import Dmis.Documents
import Dmis.Lib.Outcome
import Dmis.Lib.PosixPath

/-!
# Where uploads are written

`safe_join` (`app/security/safe_path.py:13-53`) reduces every component to its base name, refuses two dots in a row
and NUL, joins what is left to the absolute base, and compares the normalised result with the base as a prefix.

| here | there |
| --- | --- |
| `cleanedPath` | one iteration of the loop over `paths` (`:37-44`) |
| `safeJoin` | `safe_join`; an error is the text of the `ValueError` |
| `WorkingDir` | `os.getcwd()`, an absolute path |

Main theorem `uploads_stay_in_directory`. A base whose absolute form is a root (`/` or `//`) admits nothing but itself:
the prefix that is compared ends in one slash too many (`safeJoin_root`). `safeJoin_document` is the use in the
donation forms.
-/

namespace Dmis

namespace UploadPaths

open Posix Relational

structure WorkingDir where
  path : Path
  absolute : isabs path

/-- `os.path.abspath`. -/
def WorkingDir.abspath (cwd : WorkingDir) (p : Path) : Path := Posix.abspath cwd.path p

def cleanedPath (path : Path) : Except String Path :=
  let name := basename path
  if name = [] ∨ dotdot <:+: name ∨ ['/'] <+: name then .error ("Invalid filename: " ++ String.ofList path)
  else if '\x00' ∈ name then .error "Null byte in filename"
  else .ok name

def safeJoin (cwd : WorkingDir) (base : Path) (paths : List Path) : Except String Path := do
  check (base ≠ []) "Base directory cannot be empty"
  let absBase := cwd.abspath base
  let cleanedPaths ← (paths.filter (· ≠ [])).mapM cleanedPath
  check (cleanedPaths ≠ []) "No valid path components provided"
  let finalPath := cwd.abspath (joinAll absBase cleanedPaths)
  check (absBase ++ ['/'] <+: finalPath ∨ finalPath = absBase) "Attempted directory traversal detected"
  pure finalPath

/-- `/` and `//`. -/
def IsRoot (p : Path) : Prop := p = ['/'] ∨ p = ['/', '/']

/-- A file name that `safe_join` should take as it is. -/
structure FileName (name : Path) : Prop where
  ne_nil : name ≠ []
  ne_dot : name ≠ dot
  slash : '/' ∉ name
  dots : ¬ dotdot <:+: name
  nul : '\x00' ∉ name

/-! ## The components -/

theorem cleanedPath_ok {path name : Path} :
    cleanedPath path = .ok name ↔
      name = basename path ∧ name ≠ [] ∧ ¬ dotdot <:+: name ∧ '\x00' ∉ name := by
  have hslash : ¬ ['/'] <+: basename path := by
    intro h
    exact slash_notMem_basename path (h.subset (by simp))
  unfold cleanedPath
  simp only [hslash, or_false]
  by_cases hbad : basename path = [] ∨ dotdot <:+: basename path
  · rw [if_pos hbad]
    constructor
    · intro h
      cases h
    · rintro ⟨rfl, hne, hdots, -⟩
      exact absurd hbad (by simp [hne, hdots])
  · rw [if_neg hbad]
    rw [not_or] at hbad
    by_cases hnul : '\x00' ∈ basename path
    · rw [if_pos hnul]
      constructor
      · intro h
        cases h
      · rintro ⟨rfl, -, -, h⟩
        exact absurd hnul h
    · rw [if_neg hnul]
      constructor
      · intro h
        cases h
        exact ⟨rfl, hbad.1, hbad.2, hnul⟩
      · rintro ⟨rfl, -⟩
        rfl

theorem cleanedPath_piece {path name : Path} (h : cleanedPath path = .ok name) : Piece name := by
  obtain ⟨rfl, hne, hdots, -⟩ := cleanedPath_ok.1 h
  refine ⟨hne, fun he => hdots ?_, slash_notMem_basename path⟩
  rw [he]

theorem cleanedPaths_pieces : ∀ {paths names : List Path}, paths.mapM cleanedPath = .ok names →
    ∀ name ∈ names, Piece name
  | [], names, h => by
    cases h
    simp
  | path :: paths, names, h => by
    rw [List.mapM_cons] at h
    obtain ⟨name, hname, h⟩ := bind_ok.1 h
    obtain ⟨rest, hrest, h⟩ := bind_ok.1 h
    cases pure_ok.1 h
    intro d hd
    rcases List.mem_cons.1 hd with rfl | hd
    · exact cleanedPath_piece hname
    · exact cleanedPaths_pieces hrest d hd

theorem FileName.cleaned {name : Path} (h : FileName name) : cleanedPath name = .ok name :=
  cleanedPath_ok.2 ⟨(basename_of_notMem h.slash).symm, h.ne_nil, h.dots, h.nul⟩

theorem FileName.name {name : Path} (h : FileName name) : Name name where
  ne_nil := h.ne_nil
  ne_dotdot he := h.dots (he ▸ List.infix_rfl)
  slash := h.slash
  ne_dot := h.ne_dot

/-! ## The joined path -/

section
variable {cwd : WorkingDir} {base r : Path} {paths : List Path}

/-- Every accepted path is the base and what is left of the components. -/
theorem safeJoin_ok (h : safeJoin cwd base paths = .ok r) :
    base ≠ [] ∧ ∃ names, (paths.filter (· ≠ [])).mapM cleanedPath = .ok names ∧ names ≠ [] ∧
      r = cwd.abspath (joinAll (cwd.abspath base) names) ∧
      (cwd.abspath base ++ ['/'] <+: r ∨ r = cwd.abspath base) := by
  unfold safeJoin at h
  obtain ⟨_, hbase, h⟩ := bind_ok.1 h
  obtain ⟨names, hnames, h⟩ := bind_ok.1 h
  obtain ⟨_, hne, h⟩ := bind_ok.1 h
  obtain ⟨_, hstarts, h⟩ := bind_ok.1 h
  cases pure_ok.1 h
  exact ⟨check_ok.1 hbase, names, hnames, check_ok.1 hne, rfl, check_ok.1 hstarts⟩

/-- The base in normal form. -/
theorem exists_absBase (cwd : WorkingDir) (base : Path) :
    ∃ n cs, (n = 1 ∨ n = 2) ∧ (∀ c ∈ cs, Name c) ∧ cwd.abspath base = render n cs :=
  exists_abspath cwd.absolute base

/-- **Joining pieces to the base** appends those that are no dot. -/
theorem abspath_joinAll {n : ℕ} (hn : n = 1 ∨ n = 2) {cs names : List Path} (hcs : ∀ c ∈ cs, Name c)
    (hnames : ∀ name ∈ names, Piece name) :
    cwd.abspath (joinAll (render n cs) names) = render n (cs ++ names.filter (· ≠ dot)) := by
  have hpos : 0 < n := by omega
  have hpieces : ∀ c ∈ cs ++ names, Piece c := by
    intro c hc
    rcases List.mem_append.1 hc with hc | hc
    · exact (hcs c hc).toPiece
    · exact hnames c hc
  have hkept : cs.filter (· ≠ dot) = cs := by
    rw [List.filter_eq_self]
    intro c hc
    simpa using (hcs c hc).ne_dot
  rw [joinAll_render hpos hnames fun c hc => (hcs c hc).toPiece, WorkingDir.abspath, Posix.abspath,
    if_pos (isabs_render hpos _), normpath_render hn hpieces, List.filter_append, hkept]

theorem not_render_prefix {n : ℕ} {ds : List Path} (hds : ∀ d ∈ ds, Piece d) :
    ¬ render n [] ++ ['/'] <+: render n ds := by
  rintro ⟨t, ht⟩
  have hhead : '/' :: t = ['/'].intercalate ds := by simpa [render] using ht
  cases ds with
  | nil => simp at hhead
  | cons d ds =>
    have hd := hds d (by simp)
    obtain ⟨a, d, rfl⟩ := List.exists_cons_of_ne_nil hd.ne_nil
    have ha : '/' ≠ a := fun he => hd.slash (by rw [he]; exact List.mem_cons_self)
    cases ds <;> simp [List.intercalate_cons_cons, ha] at hhead

theorem isRoot_render {n : ℕ} (hn : n = 1 ∨ n = 2) : IsRoot (render n []) := by
  rcases hn with rfl | rfl
  · exact .inl rfl
  · exact .inr rfl

/-- What `safe_join` makes of pieces. -/
theorem safeJoin_eq (hbase : base ≠ []) {names : List Path}
    (hnames : (paths.filter (· ≠ [])).mapM cleanedPath = .ok names) (hne : names ≠ [])
    (hstarts : cwd.abspath base ++ ['/'] <+: cwd.abspath (joinAll (cwd.abspath base) names) ∨
      cwd.abspath (joinAll (cwd.abspath base) names) = cwd.abspath base) :
    safeJoin cwd base paths = .ok (cwd.abspath (joinAll (cwd.abspath base) names)) := by
  have hrun : ∀ {c : Prop} [Decidable c] {e : String}, c → check c e = .ok () := fun h => check_ok.2 h
  unfold safeJoin
  rw [hrun hbase, hnames]
  simp only [Except.bind, bind]
  rw [hrun hne]
  simp only
  rw [hrun hstarts]
  rfl

/-- At the base or strictly below it, in normal form and without two dots. -/
structure Within (absBase r : Path) : Prop where
  below : r = absBase ∨ ∃ rest, rest ≠ [] ∧ r = absBase ++ '/' :: rest
  normal : normpath r = r
  dotdot : dotdot ∉ r.splitOn '/'

theorem within_of_ok (h : safeJoin cwd base paths = .ok r) : Within (cwd.abspath base) r := by
  obtain ⟨-, names, hnames, -, hr, hstarts⟩ := safeJoin_ok h
  have hpieces := cleanedPaths_pieces hnames
  obtain ⟨n, cs, hn, hcs, hbase⟩ := exists_absBase cwd base
  rw [hbase, abspath_joinAll hn hcs hpieces] at hr
  rw [hbase] at hstarts ⊢
  generalize hds : names.filter (· ≠ dot) = ds at hr
  have hnames : ∀ c ∈ cs ++ ds, Name c := by
    intro c hc
    rcases List.mem_append.1 hc with hc | hc
    · exact hcs c hc
    · rw [← hds, List.mem_filter] at hc
      exact ⟨hpieces c hc.1, by simpa using hc.2⟩
  have hall : ∀ c ∈ cs ++ ds, Piece c := fun c hc => (hnames c hc).toPiece
  subst hr
  refine ⟨?_, ?_, ?_⟩
  · by_cases hnil : ds = []
    · exact .inl (by simp [hnil])
    · right
      have hcsne : cs ≠ [] := by
        rintro rfl
        rcases hstarts with hstarts | hstarts
        · exact not_render_prefix hall hstarts
        · have hinter : ['/'].intercalate ds = [] := by simpa [render] using hstarts
          obtain ⟨d, ds', rfl⟩ := List.exists_cons_of_ne_nil hnil
          have hd := (hall d (by simp)).ne_nil
          cases ds' <;> simp [List.intercalate_cons_cons, hd] at hinter
      refine ⟨['/'].intercalate ds, ?_, render_append hcsne hnil⟩
      obtain ⟨d, ds', rfl⟩ := List.exists_cons_of_ne_nil hnil
      have hd := (hall d (by simp)).ne_nil
      cases ds' <;> simp [List.intercalate_cons_cons, hd]
  · rw [normpath_render hn hall, List.filter_eq_self.2]
    intro c hc
    simpa using (hnames c hc).ne_dot
  · rw [splitOn_render hall]
    intro hmem
    rcases List.mem_append.1 hmem with hmem | hmem
    · exact absurd (List.eq_of_mem_replicate hmem) (by decide)
    · split_ifs at hmem with hnil
      · exact absurd (List.mem_singleton.1 hmem) (by decide)
      · exact (hall _ hmem).ne_dotdot rfl

/-- A file name below a base that is no root. -/
theorem safeJoin_name (hbase : base ≠ []) (hroot : ¬ IsRoot (cwd.abspath base)) {name : Path} (h : FileName name) :
    safeJoin cwd base [name] = .ok (cwd.abspath base ++ '/' :: name) := by
  obtain ⟨n, cs, hn, hcs, hb⟩ := exists_absBase cwd base
  have hcsne : cs ≠ [] := by
    rintro rfl
    exact hroot (hb ▸ isRoot_render hn)
  have hfinal : cwd.abspath (joinAll (cwd.abspath base) [name]) = cwd.abspath base ++ '/' :: name := by
    rw [hb, abspath_joinAll hn hcs (by simpa using h.name.toPiece)]
    simp [h.ne_dot, render_append hcsne]
  have hcleaned : ([name].filter (· ≠ [])).mapM cleanedPath = .ok [name] := by
    simp [h.ne_nil, h.cleaned, pure, Except.pure, bind, Except.bind]
  rw [safeJoin_eq hbase hcleaned (by simp), hfinal]
  rw [hfinal]
  exact .inl ⟨name, by simp⟩

/-- **Uploads stay in their directory**: an accepted path is the base or below it, and below a base that is no root a
file name is taken as it is. -/
theorem uploads_stay_in_directory (cwd : WorkingDir) {base : Path} (hbase : base ≠ []) :
    (∀ paths r, safeJoin cwd base paths = .ok r → Within (cwd.abspath base) r) ∧
      (¬ IsRoot (cwd.abspath base) →
        (∀ name, FileName name → safeJoin cwd base [name] = .ok (cwd.abspath base ++ '/' :: name)) ∧
          ∀ name name', FileName name → FileName name' →
            safeJoin cwd base [name] = safeJoin cwd base [name'] → name = name') := by
  refine ⟨fun paths r h => within_of_ok h, fun hroot => ⟨fun name h => safeJoin_name hbase hroot h, ?_⟩⟩
  intro name name' h h' he
  rw [safeJoin_name hbase hroot h, safeJoin_name hbase hroot h'] at he
  simpa using he

/-- Under a root the prefix test ends in one slash too many: nothing below it is accepted. -/
theorem safeJoin_root (hroot : IsRoot (cwd.abspath base)) (h : safeJoin cwd base paths = .ok r) :
    r = cwd.abspath base := by
  obtain ⟨-, names, hnames, -, hr, hstarts⟩ := safeJoin_ok h
  obtain ⟨n, cs, hn, hcs, hb⟩ := exists_absBase cwd base
  have hnil : cs = [] := by
    by_contra hne
    have hlast := getLast?_render (fun c hc => (hcs c hc).toPiece) hne n
    rw [← hb] at hlast
    rcases hroot with hroot | hroot <;> simp [hroot] at hlast
  subst hnil
  refine hstarts.resolve_left ?_
  rw [hr, hb, abspath_joinAll hn hcs (cleanedPaths_pieces hnames), List.nil_append]
  exact not_render_prefix fun d hd => cleanedPaths_pieces hnames d (List.mem_filter.1 hd).1

/-! ## Donation documents -/

theorem hasDots_iff : ∀ s : List Char, Documents.hasDots s = true ↔ dotdot <:+: s
  | [] => by simp [Documents.hasDots, dotdot]
  | [c] => by
    have hlen : ¬ dotdot <:+: [c] := fun h => absurd h.length_le (by simp [dotdot])
    simp [Documents.hasDots, hlen]
  | c :: d :: s => by
    have ih := hasDots_iff (d :: s)
    rw [List.infix_cons_iff, ← ih]
    by_cases h : c = '.' ∧ d = '.'
    · obtain ⟨rfl, rfl⟩ := h
      simp [Documents.hasDots, dotdot]
    · have hstarts : ¬ dotdot <+: c :: d :: s := by
        rw [dotdot, List.cons_prefix_cons, List.cons_prefix_cons]
        rintro ⟨rfl, rfl, -⟩
        exact h ⟨rfl, rfl⟩
      rw [Documents.hasDots, or_iff_right hstarts]
      rintro t rfl ht
      exact h ⟨rfl, (List.cons.inj ht).1⟩

/-- **A document is saved under its name in the upload directory**, or refused. -/
theorem safeJoin_document (hbase : base ≠ []) (hroot : ¬ IsRoot (cwd.abspath base)) {name path : String}
    (hslash : '/' ∉ name.toList) (hdot : name.toList ≠ dot) :
    Documents.safeJoin name = some path ↔
      safeJoin cwd base [name.toList] = .ok (cwd.abspath base ++ '/' :: path.toList) := by
  have hname : Documents.safeJoin name = some path ↔ FileName name.toList ∧ name = path := by
    unfold Documents.safeJoin
    simp only [hasDots_iff]
    constructor
    · intro h
      split_ifs at h with hbad
      rw [not_or, not_or] at hbad
      exact ⟨⟨by simpa using hbad.1, hdot, hslash, hbad.2.1, hbad.2.2⟩, Option.some.inj h⟩
    · rintro ⟨h, rfl⟩
      have hne : name ≠ "" := by simpa using h.ne_nil
      rw [if_neg (by simp [hne, h.dots, h.nul])]
  rw [hname]
  constructor
  · rintro ⟨h, rfl⟩
    exact safeJoin_name hbase hroot h
  · intro h
    obtain ⟨-, names, hnames, hne, -, -⟩ := safeJoin_ok h
    have hnil : name.toList ≠ [] := by
      intro he
      rw [he] at hnames
      cases hnames
      exact hne rfl
    have hclean : ∃ c, cleanedPath name.toList = .ok c := by
      rw [List.filter_cons_of_pos (by simpa using hnil), List.mapM_cons] at hnames
      obtain ⟨c, hc, -⟩ := bind_ok.1 hnames
      exact ⟨c, hc⟩
    obtain ⟨c, hc⟩ := hclean
    obtain ⟨rfl, -, hdots, hnul⟩ := cleanedPath_ok.1 hc
    rw [basename_of_notMem hslash] at hdots hnul
    have hfile : FileName name.toList := ⟨hnil, hdot, hslash, hdots, hnul⟩
    rw [safeJoin_name hbase hroot hfile] at h
    exact ⟨hfile, String.toList_injective (by simpa using h)⟩

end

/-! ## One upload -/

/-- The application's directory. -/
def appDir : WorkingDir := ⟨"/srv/app".toList, rfl⟩

theorem uploads_stay_in_directory_site :
    safeJoin appDir "uploads//documents".toList ["4f_receipt.pdf".toList] =
      .ok "/srv/app/uploads/documents/4f_receipt.pdf".toList ∧
      Within "/srv/app/uploads/documents".toList "/srv/app/uploads/documents/4f_receipt.pdf".toList := by
  have hbase : "uploads//documents".toList ≠ [] := by decide
  have habs : appDir.abspath "uploads//documents".toList = "/srv/app/uploads/documents".toList := by decide +kernel
  have hroot : ¬ IsRoot (appDir.abspath "uploads//documents".toList) := by
    rw [habs]
    rintro (h | h) <;> simp at h
  have hname : FileName "4f_receipt.pdf".toList := ⟨by decide, by decide, by decide, by decide, by decide⟩
  have h := uploads_stay_in_directory appDir hbase
  have hjoin := (h.2 hroot).1 _ hname
  have hwithin := h.1 _ _ hjoin
  rw [habs] at hjoin hwithin
  exact ⟨hjoin, hwithin⟩

end UploadPaths

end Dmis
