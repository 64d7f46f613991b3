import Dmis.Lib.Directory
import Dmis.Lib.Outcome
import Dmis.Lib.PythonText

/-!
# Uploaded documents

`create_donation` and `verify_donation_detail` check all uploaded files, write them to the upload directory one by
one, add a `donation_doc` row for each, and commit (`app/features/donations.py:474-575`, `:1608-1703`). A failing
write removes the files that were written before it; the rows go with the rollback.

| here | there |
| --- | --- |
| `validateUpload`, `Upload.uniqueFilename` | the loop over `uploaded_files` (`:424-466`, `:1557-1599`) |
| `safeJoin` | `safe_join` of one file name (`app/security/safe_path.py:13-53`) |
| `saveDocuments`, `postDocuments` | the loop over `validated_docs`, its clean-up, and the commit |

The database and the disk can fail: a statement before the files, the write of a file, which leaves nothing or a part
of it under its name, or the commit. Only what `saved_files` lists is cleaned up, and only after a failing write.

Main theorem `documents_in_step`: directory and rows stay in step exactly when a failing write leaves nothing new, the
commit does not fail with files on the disk, and no written file takes the name of another; for new and distinct names
`keepsInStep_fresh_iff` says it shortly.
-/

namespace Dmis

open Relational Files Python

namespace Documents

/-! ## Uploads -/

section Forms

variable (κ : Type)

/-- An uploaded file with the description posted for it. -/
structure Upload where
  filename : String
  /-- `document_types[idx]`, if there is one. -/
  documentType : Option String
  documentDesc : Option String
  /-- `uuid.uuid4().hex[:8]`. -/
  hex : String
  content : κ

/-- An element of `validated_docs`. -/
structure ValidatedDoc where
  uniqueFilename : String
  docType : String
  docDesc : String
  mimeType : String
  content : κ
  deriving DecidableEq

/-- A row of `donation_doc`. -/
structure DonationDoc where
  donationId : Nat
  documentType : String
  documentDesc : String
  fileName : String
  fileType : String
  /-- What was uploaded for it; not a column. -/
  uploaded : κ

/-- What fails while a post is handled. -/
inductive Fault where
  | never
  /-- Before the files: a flush, or the directory cannot be made. -/
  | early
  /-- The write of the `k`-th file, which leaves nothing or a part under its name. -/
  | write (k : ℕ) (left : Option κ)
  | commit

/-- The upload directory and the committed rows. -/
structure Store where
  dir : Dir κ
  rows : List (DonationDoc κ)

end Forms

/-- What the text functions around the names and types do; nothing depends on them. -/
structure TextFunctions where
  upper : String → String
  /-- `mimetypes.guess_type(name)[0]`. -/
  guessType : String → Option String
  /-- `werkzeug.utils.secure_filename`, which leaves no slash. -/
  secureFilename : String → String

variable {κ : Type}

def Upload.uniqueFilename (fns : TextFunctions) (u : Upload κ) : String :=
  u.hex ++ "_" ++ fns.secureFilename (stripped u.filename)

def fileTypeError (idx : ℕ) : String :=
  "Invalid file type for document " ++ toString (idx + 1) ++ ". Only PDF and JPEG files are allowed."

/-- The checks of the `idx`-th file; a part without a file name is skipped. -/
def validateUpload (fns : TextFunctions) (idx : ℕ) (u : Upload κ) : Option (Except String (ValidatedDoc κ)) :=
  if stripped u.filename = "" then none
  else
    match fns.guessType (stripped u.filename) with
    | some mime =>
      if mime ∉ ["application/pdf", "image/jpeg"] then some (.error (fileTypeError idx))
      else if stripped (u.documentDesc.getD "") = "" then
        some (.error ("Document description is required for document " ++ toString (idx + 1) ++ "."))
      else
        some (.ok
          { uniqueFilename := u.uniqueFilename fns
            docType := fns.upper (u.documentType.getD "Other")
            docDesc := fns.upper (stripped (u.documentDesc.getD ""))
            mimeType := mime
            content := u.content })
    | none => some (.error (fileTypeError idx))

def validateUploads (fns : TextFunctions) (uploads : List (Upload κ)) : List (Except String (ValidatedDoc κ)) :=
  uploads.zipIdx.filterMap fun u => validateUpload fns u.2 u.1

/-- Two dots in a row, which `safe_join` refuses anywhere in a name. -/
def hasDots : List Char → Bool
  | '.' :: '.' :: _ => true
  | _ :: s => hasDots s
  | [] => false

/-- The name a file is written under. -/
def safeJoin (name : String) : Option String :=
  if name = "" ∨ hasDots name.toList ∨ '\x00' ∈ name.toList then none else some name

/-! ## Saving -/

/-- The write of the `k`-th file fails. -/
def Fault.writeAt (fault : Fault κ) (k : ℕ) : Option (Option κ) :=
  match fault with
  | .write j left => if j = k then some left else none
  | _ => none

def ValidatedDoc.row (donationId : Nat) (d : ValidatedDoc κ) : DonationDoc κ :=
  { donationId := donationId
    documentType := d.docType
    documentDesc := d.docDesc
    fileName := d.uniqueFilename
    fileType := d.mimeType
    uploaded := d.content }

/-- The loop from the `k`-th document on: the directory and the rows added, or the directory and `saved_files` at the
failure. -/
def saveDocuments (fault : Fault κ) (donationId : Nat) : ℕ → List (ValidatedDoc κ) → Dir κ → List String →
    List (DonationDoc κ) → Except (Dir κ × List String) (Dir κ × List (DonationDoc κ))
  | _, [], dir, _, rows => .ok (dir, rows)
  | k, d :: ds, dir, savedFiles, rows =>
    match safeJoin d.uniqueFilename with
    | none => .error (dir, savedFiles)
    | some path =>
      match fault.writeAt k with
      | some none => .error (dir, savedFiles)
      | some (some part) => .error (dir.put path part, savedFiles)
      | none =>
        saveDocuments fault donationId (k + 1) ds (dir.put path d.content) (savedFiles ++ [path])
          (rows ++ [d.row donationId])

/-- A post as far as its documents go. -/
structure DocumentPost (κ : Type) where
  /-- The other checks of the page found nothing. -/
  valid : Bool
  /-- `UPLOAD_FOLDER` is configured. -/
  uploadFolder : Bool
  uploads : List (Upload κ)

def Fault.isEarly : Fault κ → Bool
  | .early => true
  | _ => false

/-- The transaction after the loop; the clean-up ignores what is no longer there. -/
def finish (fault : Fault κ) (s : Store κ) :
    Except (Dir κ × List String) (Dir κ × List (DonationDoc κ)) → Store κ
  | .error (dir, savedFiles) => { s with dir := dir.removes savedFiles }
  | .ok (dir, rows) =>
    match fault with
    | .commit => { s with dir := dir }
    | _ => { dir := dir, rows := s.rows ++ rows }

def postDocuments (fns : TextFunctions) (fault : Fault κ) (donationId : Nat) (post : DocumentPost κ) (s : Store κ) :
    Store κ :=
  let checked := validateUploads fns post.uploads
  if post.valid = false ∨ fault.isEarly then s
  else if errors checked ≠ [] then s
  else if oks checked ≠ [] ∧ post.uploadFolder = false then s
  else finish fault s (saveDocuments fault donationId 0 (oks checked) s.dir [] [])

/-- `create_donation`: the documents of the donation that was just flushed. -/
def createDonation (fns : TextFunctions) (fault : Fault κ) (donationId : Nat) (post : DocumentPost κ) (s : Store κ) :
    Store κ := postDocuments fns fault donationId post s

/-- `verify_donation_detail`: the documents of the donation of the page. -/
def verifyDonationDetail (fns : TextFunctions) (fault : Fault κ) (donationId : Nat) (post : DocumentPost κ)
    (s : Store κ) : Store κ := postDocuments fns fault donationId post s

/-! ## In step -/

/-- The name a document is written under, and its content. -/
def ValidatedDoc.file (d : ValidatedDoc κ) : String × κ := (d.uniqueFilename, d.content)

/-- Every row names a file with what was uploaded for it. -/
def Store.InStep (s : Store κ) : Prop := ∀ r ∈ s.rows, s.dir r.fileName = some r.uploaded

/-- After a post every row names its file, and every new file has a row. -/
structure InStepAfter (s s' : Store κ) : Prop where
  named : s'.InStep
  added : ∀ n, s.dir n = none → s'.dir n ≠ none → ∃ r ∈ s'.rows, r.fileName = n

/-- The documents the loop walks over: none when the post is turned away before. -/
def toSave (fns : TextFunctions) (fault : Fault κ) (post : DocumentPost κ) : List (ValidatedDoc κ) :=
  let checked := validateUploads fns post.uploads
  if post.valid = false ∨ fault.isEarly then []
  else if errors checked ≠ [] then []
  else if oks checked ≠ [] ∧ post.uploadFolder = false then []
  else oks checked

/-- The loop stops at a document: its name is refused, or its write fails. -/
def stopsAt (fault : Fault κ) (k : ℕ) (d : ValidatedDoc κ) : Option (Option κ) :=
  match safeJoin d.uniqueFilename with
  | none => some none
  | some _ => fault.writeAt k

/-- The documents that are written whole, and the one the loop stops at with what that leaves. -/
def untilStop (fault : Fault κ) : ℕ → List (ValidatedDoc κ) → List (ValidatedDoc κ) × Option (ValidatedDoc κ × Option κ)
  | _, [] => ([], none)
  | k, d :: ds =>
    match stopsAt fault k d with
    | some left => ([], some (d, left))
    | none => (d :: (untilStop fault (k + 1) ds).1, (untilStop fault (k + 1) ds).2)

theorem safeJoin_eq_some {name path : String} (h : safeJoin name = some path) : path = name := by
  unfold safeJoin at h
  split_ifs at h
  exact (Option.some.inj h).symm

/-- A document with what is left of its failed write. -/
def putLeft (dir : Dir κ) (d : ValidatedDoc κ) : Option κ → Dir κ
  | none => dir
  | some part => dir.put d.uniqueFilename part

theorem saveDocuments_eq (fault : Fault κ) (donationId : Nat) : ∀ (docs : List (ValidatedDoc κ)) (k : ℕ) (dir : Dir κ)
    (savedFiles : List String) (rows : List (DonationDoc κ)),
    saveDocuments fault donationId k docs dir savedFiles rows =
      match (untilStop fault k docs).2 with
      | none => .ok (dir.puts ((untilStop fault k docs).1.map ValidatedDoc.file),
          rows ++ (untilStop fault k docs).1.map (ValidatedDoc.row donationId))
      | some (d, left) => .error (putLeft (dir.puts ((untilStop fault k docs).1.map ValidatedDoc.file)) d left,
          savedFiles ++ (untilStop fault k docs).1.map ValidatedDoc.uniqueFilename)
  | [], k, dir, savedFiles, rows => by simp [saveDocuments, untilStop, Dir.puts]
  | d :: ds, k, dir, savedFiles, rows => by
    unfold saveDocuments untilStop stopsAt
    cases hpath : safeJoin d.uniqueFilename with
    | none => simp [putLeft, Dir.puts]
    | some path =>
      obtain rfl := safeJoin_eq_some hpath
      dsimp only
      cases hwrite : fault.writeAt k with
      | some left => cases left <;> simp [putLeft, Dir.puts]
      | none =>
        dsimp only
        rw [saveDocuments_eq fault donationId ds (k + 1)]
        cases (untilStop fault (k + 1) ds).2 <;> simp [Dir.puts, ValidatedDoc.file]

/-- The directory after a failing write and its clean-up. -/
def cleanedUp (dir : Dir κ) (written : List (ValidatedDoc κ)) (d : ValidatedDoc κ) (left : Option κ) : Dir κ :=
  (putLeft (dir.puts (written.map ValidatedDoc.file)) d left).removes (written.map ValidatedDoc.uniqueFilename)

/-- What a post leaves of the store. -/
def afterPost (fault : Fault κ) (donationId : Nat) (docs : List (ValidatedDoc κ)) (s : Store κ) : Store κ :=
  let written := (untilStop fault 0 docs).1
  let dir := s.dir.puts (written.map ValidatedDoc.file)
  match (untilStop fault 0 docs).2, fault with
  | some (d, left), _ => { s with dir := cleanedUp s.dir written d left }
  | none, .commit => { s with dir := dir }
  | none, _ => { dir := dir, rows := s.rows ++ written.map (ValidatedDoc.row donationId) }

theorem afterPost_nil (fault : Fault κ) (donationId : Nat) (s : Store κ) : afterPost fault donationId [] s = s := by
  cases fault <;> simp [afterPost, untilStop, Dir.puts]

theorem finish_saveDocuments (fault : Fault κ) (donationId : Nat) (docs : List (ValidatedDoc κ)) (s : Store κ) :
    finish fault s (saveDocuments fault donationId 0 docs s.dir [] []) = afterPost fault donationId docs s := by
  rw [saveDocuments_eq]
  unfold afterPost finish
  cases hstop : (untilStop fault 0 docs).2 with
  | some x => rfl
  | none => cases fault <;> rfl

theorem postDocuments_eq (fns : TextFunctions) (fault : Fault κ) (donationId : Nat) (post : DocumentPost κ)
    (s : Store κ) :
    postDocuments fns fault donationId post s = afterPost fault donationId (toSave fns fault post) s := by
  unfold postDocuments toSave
  dsimp only
  split_ifs
  · exact (afterPost_nil _ _ _).symm
  · exact (afterPost_nil _ _ _).symm
  · exact (afterPost_nil _ _ _).symm
  · exact finish_saveDocuments _ _ _ _

/-! ## When they stay in step -/

/-- No upload takes the name of a document that has other content. -/
def Overwrites (written : List (ValidatedDoc κ)) (s : Store κ) : Prop :=
  ∃ r ∈ s.rows, ∃ c ∈ lastWrite (written.map ValidatedDoc.file) r.fileName, c ≠ r.uploaded

/-- The posts that keep directory and rows in step, by where they end. -/
def KeepsInStep (fault : Fault κ) (docs : List (ValidatedDoc κ)) (s : Store κ) : Prop :=
  let written := (untilStop fault 0 docs).1
  match (untilStop fault 0 docs).2, fault with
  -- a failing write: nothing new is left of it, and the clean-up removes no other document's file
  | some (d, left), _ =>
    (∀ r ∈ s.rows, r.fileName ∉ written.map ValidatedDoc.uniqueFilename) ∧
    ∀ part ∈ left, d.uniqueFilename ∉ written.map ValidatedDoc.uniqueFilename →
      s.dir d.uniqueFilename ≠ none ∧ ∀ r ∈ s.rows, r.fileName = d.uniqueFilename → part = r.uploaded
  -- a failing commit: every file was there before
  | none, .commit => ¬ Overwrites written s ∧ ∀ d ∈ written, s.dir d.uniqueFilename ≠ none
  -- a success: no two uploads of different content share a name
  | none, _ => ¬ Overwrites written s ∧
    ∀ d ∈ written, lastWrite (written.map ValidatedDoc.file) d.uniqueFilename = some d.content

section

variable {fault : Fault κ} {donationId : Nat} {docs written : List (ValidatedDoc κ)} {s : Store κ}

theorem lastWrite_ne_none {n : String} :
    lastWrite (written.map ValidatedDoc.file) n ≠ none ↔ ∃ d ∈ written, d.uniqueFilename = n := by
  rw [← Option.isSome_iff_ne_none, lastWrite_isSome, List.map_map, List.mem_map]
  rfl

/-- Without a new row, the rows keep their files and no file is new. -/
theorem inStepAfter_same_rows (h : s.InStep) (dir : Dir κ) : InStepAfter s { s with dir := dir } ↔
    (∀ r ∈ s.rows, dir r.fileName = some r.uploaded) ∧ ∀ n, s.dir n = none → dir n = none := by
  constructor
  · intro hs
    refine ⟨hs.named, fun n hn => ?_⟩
    by_contra hne
    obtain ⟨r, hr, rfl⟩ := hs.added n hn hne
    rw [h r hr] at hn
    cases hn
  · rintro ⟨hnamed, hnew⟩
    exact ⟨hnamed, fun n hn hne => absurd (hnew n hn) hne⟩

theorem named_puts_iff (h : s.InStep) : (∀ r ∈ s.rows, s.dir.puts (written.map ValidatedDoc.file) r.fileName =
    some r.uploaded) ↔ ¬ Overwrites written s := by
  unfold Overwrites
  push Not
  refine forall₂_congr fun r hr => ?_
  rw [puts_apply, h r hr]
  cases lastWrite (written.map ValidatedDoc.file) r.fileName <;> simp

theorem cleanedUp_apply (dir : Dir κ) (d : ValidatedDoc κ) (left : Option κ) (n : String) :
    cleanedUp dir written d left n =
      if n ∈ written.map ValidatedDoc.uniqueFilename then none
      else if n = d.uniqueFilename then left.or (dir n) else dir n := by
  rw [cleanedUp, removes_apply]
  by_cases hn : n ∈ written.map ValidatedDoc.uniqueFilename
  · rw [if_pos hn, if_pos hn]
  · have hlast : lastWrite (written.map ValidatedDoc.file) n = none := by
      by_contra hne
      obtain ⟨d', hd', rfl⟩ := lastWrite_ne_none.1 hne
      exact hn (List.mem_map_of_mem hd')
    have hputs : dir.puts (written.map ValidatedDoc.file) n = dir n := by rw [puts_apply, hlast, Option.none_or]
    rw [if_neg hn, if_neg hn]
    cases left with
    | none => simp [putLeft, hputs]
    | some part =>
      simp only [putLeft, Dir.put, hputs]
      split_ifs <;> rfl

/-- A failing write leaves everything in step exactly when it leaves nothing new and takes away nothing old. -/
theorem inStepAfter_failed_iff (h : s.InStep) (d : ValidatedDoc κ) (left : Option κ) :
    InStepAfter s { s with dir := cleanedUp s.dir written d left } ↔
    (∀ r ∈ s.rows, r.fileName ∉ written.map ValidatedDoc.uniqueFilename) ∧
      ∀ part ∈ left, d.uniqueFilename ∉ written.map ValidatedDoc.uniqueFilename →
        s.dir d.uniqueFilename ≠ none ∧ ∀ r ∈ s.rows, r.fileName = d.uniqueFilename → part = r.uploaded := by
  rw [inStepAfter_same_rows h]
  simp only [cleanedUp_apply]
  constructor
  · rintro ⟨hnamed, hnew⟩
    refine ⟨fun r hr hm => ?_, fun part hpart hd => ⟨fun hnone => ?_, fun r hr hrd => ?_⟩⟩
    · have hr' := hnamed r hr
      rw [if_pos hm] at hr'
      cases hr'
    · have hd' := hnew _ hnone
      rw [if_neg hd, if_pos rfl, hpart] at hd'
      cases hd'
    · have hr' := hnamed r hr
      rw [hrd, if_neg hd, if_pos rfl, hpart] at hr'
      exact Option.some.inj hr'
  · rintro ⟨hkept, hpart⟩
    refine ⟨fun r hr => ?_, fun n hn => ?_⟩
    · rw [if_neg (hkept r hr), h r hr]
      split_ifs with hd
      · cases left with
        | none => rfl
        | some part => exact congrArg some ((hpart part rfl (hd ▸ hkept r hr)).2 r hr hd)
      · rfl
    · split_ifs with hm hd
      · rfl
      · cases left with
        | none => exact hn
        | some part => exact absurd (hd ▸ hn) (hpart part rfl (hd ▸ hm)).1
      · exact hn

/-- A failing commit leaves every written file. -/
theorem inStepAfter_uncommitted_iff (h : s.InStep) :
    InStepAfter s { s with dir := s.dir.puts (written.map ValidatedDoc.file) } ↔
      ¬ Overwrites written s ∧ ∀ d ∈ written, s.dir d.uniqueFilename ≠ none := by
  rw [inStepAfter_same_rows h, named_puts_iff h]
  refine and_congr_right fun _ => ?_
  constructor
  · intro hnew d hd hnone
    have hputs := hnew _ hnone
    rw [puts_apply, Option.or_eq_none_iff] at hputs
    exact lastWrite_ne_none.2 ⟨d, hd, rfl⟩ hputs.1
  · intro hold n hn
    rw [puts_apply, hn, Option.or_none]
    by_contra hne
    obtain ⟨d, hd, rfl⟩ := lastWrite_ne_none.1 hne
    exact hold d hd hn

theorem inStepAfter_committed_iff (h : s.InStep) (donationId : Nat) :
    InStepAfter s { dir := s.dir.puts (written.map ValidatedDoc.file)
                    rows := s.rows ++ written.map (ValidatedDoc.row donationId) } ↔
      ¬ Overwrites written s ∧
        ∀ d ∈ written, lastWrite (written.map ValidatedDoc.file) d.uniqueFilename = some d.content := by
  have hnew : ∀ d ∈ written, (s.dir.puts (written.map ValidatedDoc.file) d.uniqueFilename = some d.content ↔
      lastWrite (written.map ValidatedDoc.file) d.uniqueFilename = some d.content) := fun d hd => by
    rw [puts_apply]
    have hsome := lastWrite_ne_none.2 ⟨d, hd, rfl⟩
    cases hl : lastWrite (written.map ValidatedDoc.file) d.uniqueFilename with
    | none => exact absurd hl hsome
    | some c => rfl
  rw [← named_puts_iff h]
  constructor
  · intro hs
    refine ⟨fun r hr => hs.named r (List.mem_append_left _ hr), fun d hd => (hnew d hd).1 ?_⟩
    exact hs.named (d.row donationId) (List.mem_append_right _ (List.mem_map_of_mem hd))
  · rintro ⟨hold, hdocs⟩
    refine ⟨fun r hr => ?_, fun n hn hne => ?_⟩
    · rcases List.mem_append.1 hr with hr | hr
      · exact hold r hr
      · obtain ⟨d, hd, rfl⟩ := List.mem_map.1 hr
        exact (hnew d hd).2 (hdocs d hd)
    · have hlast : lastWrite (written.map ValidatedDoc.file) n ≠ none := fun hnone => hne (by
        show s.dir.puts _ n = none
        rw [puts_apply, hnone, hn]
        rfl)
      obtain ⟨d, hd, rfl⟩ := lastWrite_ne_none.1 hlast
      exact ⟨d.row donationId, List.mem_append_right _ (List.mem_map_of_mem hd), rfl⟩

theorem afterPost_inStep_iff (h : s.InStep) :
    InStepAfter s (afterPost fault donationId docs s) ↔ KeepsInStep fault docs s := by
  unfold afterPost KeepsInStep
  dsimp only
  cases hstop : (untilStop fault 0 docs).2 with
  | some x => exact inStepAfter_failed_iff h x.1 x.2
  | none =>
    cases fault with
    | commit => exact inStepAfter_uncommitted_iff h
    | never => exact inStepAfter_committed_iff h donationId
    | early => exact inStepAfter_committed_iff h donationId
    | write k left => exact inStepAfter_committed_iff h donationId

/-- **When a post leaves directory and rows in step.** -/
theorem documents_in_step (fns : TextFunctions) (fault : Fault κ) (donationId : Nat) (post : DocumentPost κ)
    {s : Store κ} (h : s.InStep) :
    (InStepAfter s (createDonation fns fault donationId post s) ↔ KeepsInStep fault (toSave fns fault post) s) ∧
    (InStepAfter s (verifyDonationDetail fns fault donationId post s) ↔
      KeepsInStep fault (toSave fns fault post) s) := by
  unfold createDonation verifyDonationDetail
  rw [postDocuments_eq]
  exact ⟨afterPost_inStep_iff h, afterPost_inStep_iff h⟩

/-! ## New names -/

theorem untilStop_written (fault : Fault κ) : ∀ (docs : List (ValidatedDoc κ)) (k : ℕ),
    (untilStop fault k docs).1.Sublist docs ∧
    (∀ x ∈ (untilStop fault k docs).2, x.1 ∈ docs) ∧
    ((untilStop fault k docs).2 = none → (untilStop fault k docs).1 = docs)
  | [], k => by simp [untilStop]
  | d :: ds, k => by
    obtain ⟨hsub, hstop, hall⟩ := untilStop_written fault ds (k + 1)
    unfold untilStop
    cases stopsAt fault k d with
    | some left => simp
    | none =>
      refine ⟨hsub.cons_cons d, fun x hx => List.mem_cons_of_mem d (hstop x hx), fun hnone => ?_⟩
      exact congrArg (d :: ·) (hall hnone)

/-- The document that stops the loop is not one that was written before it. -/
theorem stop_notMem_written (fault : Fault κ) : ∀ {docs : List (ValidatedDoc κ)} {k : ℕ} {d : ValidatedDoc κ}
    {left : Option κ}, (docs.map ValidatedDoc.uniqueFilename).Nodup → (untilStop fault k docs).2 = some (d, left) →
    d.uniqueFilename ∉ (untilStop fault k docs).1.map ValidatedDoc.uniqueFilename
  | a :: ds, k, d, left, hn, h => by
    rw [List.map_cons, List.nodup_cons] at hn
    unfold untilStop at h ⊢
    cases hs : stopsAt fault k a with
    | some left' => simp
    | none =>
      rw [hs] at h
      dsimp only at h ⊢
      rw [List.map_cons, List.mem_cons, not_or]
      refine ⟨fun he => hn.1 (he ▸ List.mem_map_of_mem ?_), stop_notMem_written fault hn.2 h⟩
      exact (untilStop_written fault ds (k + 1)).2.1 _ h

/-- A stored document is under no new name. -/
theorem fileName_ne_of_new (h : s.InStep) (hnew : ∀ d ∈ docs, s.dir d.uniqueFilename = none) :
    ∀ r ∈ s.rows, ∀ d ∈ docs, r.fileName ≠ d.uniqueFilename := by
  intro r hr d hd he
  have hstored := h r hr
  rw [he, hnew d hd] at hstored
  cases hstored

theorem not_overwrites_of_new (h : s.InStep) (hnew : ∀ d ∈ written, s.dir d.uniqueFilename = none) :
    ¬ Overwrites written s := by
  rintro ⟨r, hr, c, hc, -⟩
  obtain ⟨d, hd, he⟩ := lastWrite_ne_none.1 (Option.ne_none_iff_exists'.2 ⟨c, hc⟩)
  exact fileName_ne_of_new h hnew r hr d hd he.symm

/-- Under distinct names every upload is what was last written under its own. -/
theorem lastWrite_of_distinct (hn : (written.map ValidatedDoc.uniqueFilename).Nodup) :
    ∀ d ∈ written, lastWrite (written.map ValidatedDoc.file) d.uniqueFilename = some d.content := by
  intro d hd
  refine lastWrite_of_nodup ?_ (List.mem_map_of_mem (f := ValidatedDoc.file) hd)
  rw [List.map_map]
  exact hn

/-- **With new and distinct names** only the rest of a failing write and a failing commit can go wrong. -/
theorem keepsInStep_fresh_iff (h : s.InStep) (hn : (docs.map ValidatedDoc.uniqueFilename).Nodup)
    (hnew : ∀ d ∈ docs, s.dir d.uniqueFilename = none) : KeepsInStep fault docs s ↔
      (∀ d left, (untilStop fault 0 docs).2 = some (d, left) → left = none) ∧
      ((untilStop fault 0 docs).2 = none → fault = .commit → docs = []) := by
  obtain ⟨hsub, hstop, hall⟩ := untilStop_written fault docs 0
  have hkept : ¬ Overwrites (untilStop fault 0 docs).1 s :=
    not_overwrites_of_new h fun d hd => hnew d (hsub.subset hd)
  unfold KeepsInStep
  dsimp only
  cases hs : (untilStop fault 0 docs).2 with
  | some x =>
    obtain ⟨d, left⟩ := x
    have hd : d ∈ docs := hstop _ hs
    have hfresh := stop_notMem_written fault hn hs
    constructor
    · rintro ⟨-, hleft⟩
      refine ⟨fun d' left' heq => ?_, fun hnone => by cases hnone⟩
      cases heq
      cases left with
      | none => rfl
      | some part => exact absurd (hnew d hd) (hleft part rfl hfresh).1
    · rintro ⟨hleft, -⟩
      obtain rfl := hleft d left rfl
      refine ⟨fun r hr hm => ?_, fun part hpart => by cases hpart⟩
      obtain ⟨d', hd', he⟩ := List.mem_map.1 hm
      exact fileName_ne_of_new h hnew r hr d' (hsub.subset hd') he.symm
  | none =>
    have hdistinct := lastWrite_of_distinct (hn.sublist (hsub.map _))
    cases fault with
    | commit =>
      constructor
      · rintro ⟨-, hthere⟩
        refine ⟨fun d left heq => (nomatch heq), fun _ _ => List.eq_nil_iff_forall_not_mem.2 fun d hd => ?_⟩
        exact hthere d ((hall hs).symm ▸ hd) (hnew d hd)
      · rintro ⟨-, hnil⟩
        refine ⟨hkept, fun d hd => ?_⟩
        have hmem := hsub.subset hd
        rw [hnil rfl rfl] at hmem
        cases hmem
    | never => exact iff_of_true ⟨hkept, hdistinct⟩ ⟨fun d left heq => (nomatch heq), fun _ hc => by cases hc⟩
    | early => exact iff_of_true ⟨hkept, hdistinct⟩ ⟨fun d left heq => (nomatch heq), fun _ hc => by cases hc⟩
    | write k left => exact iff_of_true ⟨hkept, hdistinct⟩ ⟨fun d left heq => (nomatch heq), fun _ hc => by cases hc⟩

end

/-! ## One upload -/

namespace Site

def fns : TextFunctions :=
  { upper := String.toUpper
    guessType := fun _ => some "application/pdf"
    secureFilename := id }

/-- A receipt, as it is drawn the name `0a1b2c3d_receipt.pdf`. -/
def receipt : Upload String :=
  { filename := "receipt.pdf"
    documentType := none
    documentDesc := some "Receipt"
    hex := "0a1b2c3d"
    content := "scan" }

def post : DocumentPost String := { valid := true, uploadFolder := true, uploads := [receipt] }

def empty : Store String := { dir := fun _ => none, rows := [] }

def doc : ValidatedDoc String :=
  { uniqueFilename := "0a1b2c3d_receipt.pdf"
    docType := "OTHER"
    docDesc := "RECEIPT"
    mimeType := "application/pdf"
    content := "scan" }

theorem toSave_post {fault : Fault String} (h : fault.isEarly = false) : toSave fns fault post = [doc] := by
  have hdocs : validateUploads fns post.uploads = [.ok doc] := by decide +kernel
  simp only [toSave, hdocs, h]
  decide +kernel

theorem empty_inStep : empty.InStep := fun _ hr => by cases hr

end Site

theorem documents_in_step_site :
    InStepAfter Site.empty (createDonation Site.fns .never 1 Site.post Site.empty) ∧
    InStepAfter Site.empty (verifyDonationDetail Site.fns (.write 0 none) 1 Site.post Site.empty) := by
  constructor
  · refine (documents_in_step Site.fns .never 1 Site.post Site.empty_inStep).1.2 ?_
    have hstop : (untilStop .never 0 [Site.doc]).2 = none := by decide +kernel
    rw [Site.toSave_post rfl, keepsInStep_fresh_iff Site.empty_inStep (by simp) fun _ _ => rfl, hstop]
    refine ⟨fun d left hs => ?_, fun _ hc => ?_⟩
    · cases hs
    · cases hc
  · refine (documents_in_step Site.fns (.write 0 none) 1 Site.post Site.empty_inStep).2.2 ?_
    have hstop : (untilStop (.write 0 none) 0 [Site.doc]).2 = some (Site.doc, none) := by decide +kernel
    rw [Site.toSave_post rfl, keepsInStep_fresh_iff Site.empty_inStep (by simp) fun _ _ => rfl, hstop]
    refine ⟨fun d left hs => ?_, fun hs => ?_⟩
    · cases hs
      rfl
    · cases hs

/-- **The commit fails after the file was written**: the file stays, without a row. -/
theorem orphan_after_failed_commit :
    (createDonation Site.fns .commit 1 Site.post Site.empty).rows = [] ∧
    (createDonation Site.fns .commit 1 Site.post Site.empty).dir "0a1b2c3d_receipt.pdf" = some "scan" ∧
    ¬ ∀ (fns : TextFunctions) (fault : Fault String) (donationId : Nat) (post : DocumentPost String) (s : Store String),
      s.InStep → InStepAfter s (createDonation fns fault donationId post s) := by
  have hwritten : untilStop .commit 0 [Site.doc] = ([Site.doc], none) := by decide +kernel
  have hpost : createDonation Site.fns .commit 1 Site.post Site.empty =
      { Site.empty with dir := Site.empty.dir.puts [Site.doc.file] } := by
    rw [createDonation, postDocuments_eq, Site.toSave_post rfl]
    unfold afterPost
    rw [hwritten]
    rfl
  have hfile : (createDonation Site.fns .commit 1 Site.post Site.empty).dir "0a1b2c3d_receipt.pdf" = some "scan" := by
    rw [hpost]
    decide +kernel
  have hrows : (createDonation Site.fns .commit 1 Site.post Site.empty).rows = [] := by
    rw [hpost]
    rfl
  refine ⟨hrows, hfile, fun h => ?_⟩
  obtain ⟨r, hr, -⟩ := (h Site.fns .commit 1 Site.post Site.empty Site.empty_inStep).added "0a1b2c3d_receipt.pdf" rfl
    (by rw [hfile]; exact Option.some_ne_none _)
  rw [hrows] at hr
  cases hr

end Documents

end Dmis
