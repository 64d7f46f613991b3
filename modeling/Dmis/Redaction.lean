import Dmis.AuditLog
import Dmis.Lib.Nested

/-!
# What redaction still shows

`sanitize_url_for_log` masks the values of a query and means to remove the fragment, `sanitize_dict_for_log` masks what
stands under sensitive keys (`app/security/log_sanitizer.py:78-151`). Redaction works if two inputs that differ in
masked parts only have one output.

| here | there |
| --- | --- |
| `sanitizeUrlForLog` | `sanitize_url_for_log` (`:78-110`) |
| `sanitizeDict` | `sanitize_dict_for_log` (`:113-151`) of a dictionary, with the keys and the length it has by default |
| `Value.repr` | `str` and `repr` of dictionaries and lists |
| `blank` | what the output may depend on: an input with its secrets taken out |

Neither does. The URL is cut at the first `?`, so a fragment in front of it is shown, and the equals signs are counted
in values too. Only the keys of the dictionary itself are looked at: a dictionary inside it is written out. Main
theorem `redaction_iff` says exactly what is shown.
-/

namespace Dmis

open Relational

namespace Redaction

open AuditLog

/-! ## URLs -/

def queryText (url : Text) : Text := (url.dropWhile (· ≠ '?')).drop 1

def sanitizeUrlForLog (maxLength : ℕ) (url : Text) : Text :=
  if url = [] then "[EmptyURL]".toList
  else
    let baseUrl := sanitizeForLog maxLength (some (url.takeWhile (· ≠ '?')))
    if queryText url ≠ [] then
      baseUrl ++ '?' :: '[' :: (Nat.toDigits 10 ((queryText url).count '=') ++ " param(s) redacted]".toList)
    else baseUrl

/-- What stands before the first `?` or `#`. -/
def urlBase (url : Text) : Text := url.takeWhile fun c => c ≠ '?' && c ≠ '#'

/-- The names of the query parameters; a query ends at `#`. -/
def paramNames (url : Text) : List Text :=
  match url.dropWhile fun c => c ≠ '?' && c ≠ '#' with
  | '?' :: rest => (((rest.takeWhile (· ≠ '#')).splitOn '&').filter (· ≠ [])).map (·.takeWhile (· ≠ '='))
  | _ => []

/-- The values and the fragments are all that may differ. -/
structure SameUrl (u v : Text) : Prop where
  base : urlBase u = urlBase v
  names : paramNames u = paramNames v

/-- As much of an escaped text as a log shows, and whether that is all. -/
def shown (n : ℕ) (s : Text) : Text × Bool := ((marked s).take n, n < (marked s).length)

/-- Nothing that is shown tells two URLs apart: fragments in front of a question mark agree as far as they are shown,
and there are as many equals signs behind it. -/
structure UrlHidden (n : ℕ) (u v : Text) : Prop where
  empty : u = [] ↔ v = []
  leading : shown n (u.takeWhile (· ≠ '?')) = shown n (v.takeWhile (· ≠ '?'))
  query : queryText u = [] ↔ queryText v = []
  equals : (queryText u).count '=' = (queryText v).count '='

theorem truncate_eq_iff {n : ℕ} {suffix s t : Text} (hsuffix : suffix ≠ []) :
    truncate n suffix s = truncate n suffix t ↔ s.take n = t.take n ∧ (n < s.length ↔ n < t.length) := by
  unfold truncate
  have hpos : 0 < suffix.length := List.length_pos_iff.2 hsuffix
  by_cases hs : n < s.length
  · by_cases ht : n < t.length
    · rw [if_pos hs, if_pos ht]
      simp [hs, ht]
    · rw [if_pos hs, if_neg ht]
      constructor
      · intro h
        have hlen := congrArg List.length h
        simp only [List.length_append, List.length_take] at hlen
        omega
      · rintro ⟨-, h⟩
        exact absurd (h.1 hs) ht
  · by_cases ht : n < t.length
    · rw [if_neg hs, if_pos ht]
      constructor
      · intro h
        have hlen := congrArg List.length h
        simp only [List.length_append, List.length_take] at hlen
        omega
      · rintro ⟨-, h⟩
        exact absurd (h.2 ht) hs
    · rw [if_neg hs, if_neg ht, List.take_of_length_le (not_lt.1 hs), List.take_of_length_le (not_lt.1 ht)]
      simp [hs, ht]

theorem sanitizeForLog_eq_iff {n : ℕ} {s t : Text} :
    sanitizeForLog n (some s) = sanitizeForLog n (some t) ↔ shown n s = shown n t := by
  rw [sanitizeForLog_some, sanitizeForLog_some, truncate_eq_iff (by decide)]
  simp [shown]

theorem mem_markCrlf {c : Char} {s : Text} (h : c ∈ markCrlf s) : c ∈ s ∨ c ∈ "[CRLF]".toList := by
  induction s using markCrlf.induct with
  | case1 a b s hab ih =>
    rw [markCrlf, if_pos hab] at h
    rcases List.mem_append.1 h with h | h
    · exact .inr h
    · exact (ih h).imp_left fun hs => by simp [hs]
  | case2 a b s hab ih =>
    rw [markCrlf_of_not hab] at h
    rcases List.mem_cons.1 h with rfl | h
    · exact .inl (by simp)
    · exact (ih h).imp_left fun hs => List.mem_cons_of_mem a hs
  | case3 a => exact .inl h
  | case4 => exact .inl h

/-- The marks have no question mark. -/
theorem question_notMem_marked {s : Text} (h : '?' ∉ s) : '?' ∉ marked s := by
  intro hm
  obtain ⟨c, hc, hq⟩ := List.mem_flatMap.1 hm
  unfold mark at hq
  split_ifs at hq
  · exact absurd hq (by decide)
  · exact absurd hq (by decide)
  · exact absurd hq (by decide)
  · exact absurd hq (by decide)
  · rw [← List.mem_singleton.1 hq] at hc
    rcases mem_markCrlf hc with hc | hc
    · exact h hc
    · exact absurd hc (by decide)

theorem question_notMem_takeWhile (url : Text) : '?' ∉ url.takeWhile (· ≠ '?') := by
  intro h
  exact absurd (List.mem_takeWhile_imp (p := fun c : Char => decide (c ≠ '?')) h) (by decide)

theorem question_notMem_base (n : ℕ) (url : Text) : '?' ∉ sanitizeForLog n (some (url.takeWhile (· ≠ '?'))) := by
  rw [sanitizeForLog_some]
  intro h
  have hsuffix : ∀ c ∈ "...(truncated)".toList, c ≠ '?' := forall_of_all (by decide)
  have hshown : ∀ c ∈ (marked (url.takeWhile (· ≠ '?'))).take n, c ≠ '?' := by
    rintro c hc rfl
    exact question_notMem_marked (question_notMem_takeWhile url) (List.mem_of_mem_take hc)
  exact (forall_mem_truncate hsuffix).2 hshown _ h rfl

/-- What follows the base in the output. -/
def querySummary (url : Text) : Text :=
  if queryText url ≠ [] then
    '?' :: '[' :: (Nat.toDigits 10 ((queryText url).count '=') ++ " param(s) redacted]".toList)
  else []

theorem sanitizeUrlForLog_eq {n : ℕ} {url : Text} (h : url ≠ []) :
    sanitizeUrlForLog n url = sanitizeForLog n (some (url.takeWhile (· ≠ '?'))) ++ querySummary url := by
  unfold sanitizeUrlForLog querySummary
  rw [if_neg h]
  dsimp only
  split_ifs
  · rfl
  · rw [List.append_nil]

theorem querySummary_head (url : Text) : ∀ c ∈ (querySummary url).head?, c = '?' := by
  unfold querySummary
  split_ifs <;> simp

theorem querySummary_eq_iff {u v : Text} :
    querySummary u = querySummary v ↔
      (queryText u = [] ↔ queryText v = []) ∧ (queryText u).count '=' = (queryText v).count '=' := by
  unfold querySummary
  by_cases hu : queryText u = []
  · by_cases hv : queryText v = []
    · simp [hu, hv]
    · simp [hu, hv]
  · by_cases hv : queryText v = []
    · simp [hu, hv]
    · rw [if_pos hu, if_pos hv]
      constructor
      · intro h
        simp only [List.cons.injEq, true_and, List.append_cancel_right_eq] at h
        have hcount := congrArg (fun ds => Nat.ofDigitChars 10 ds 0) h
        simp only [Nat.ofDigitChars_ten_toDigits] at hcount
        exact ⟨by simp [hu, hv], hcount⟩
      · rintro ⟨-, h⟩
        rw [h]

theorem markCrlf_cons {c : Char} (hc : c ≠ '\r') (s : Text) : markCrlf (c :: s) = c :: markCrlf s := by
  cases s with
  | nil => rfl
  | cons d s => exact markCrlf_of_not fun h => hc h.1

theorem marked_cons {c : Char} (hc : isControl c = false) (s : Text) : marked (c :: s) = c :: marked s := by
  have hcr : c ≠ '\r' := by
    rintro rfl
    exact absurd hc (by decide)
  have hmark : mark c = [c] := by
    unfold mark
    split_ifs with hlf htab hctrl
    · exact absurd hc (by rw [hlf]; decide)
    · exact absurd hc (by rw [htab]; decide)
    · rw [hc] at hctrl
      cases hctrl
    · rfl
  unfold marked
  rw [markCrlf_cons hcr, List.flatMap_cons, hmark]
  rfl

/-- `[EmptyURL]` is printed for the empty URL only, among those without a base. -/
theorem sanitizeUrlForLog_ne_empty {n : ℕ} {url : Text} (hbase : urlBase url = []) (hne : url ≠ []) :
    sanitizeUrlForLog n url ≠ "[EmptyURL]".toList := by
  rw [sanitizeUrlForLog_eq hne]
  obtain ⟨c, tl, rfl⟩ := List.exists_cons_of_ne_nil hne
  have hc : c = '?' ∨ c = '#' := by
    by_contra hother
    rw [not_or] at hother
    rw [urlBase, List.takeWhile_cons, if_pos (by simp [hother])] at hbase
    cases hbase
  intro h
  have hhead := congrArg List.head? h
  rcases hc with rfl | rfl
  · rw [List.takeWhile_cons, if_neg (by decide)] at hhead
    have hnil : sanitizeForLog n (some []) = [] := by
      rw [sanitizeForLog_some]
      exact if_neg (by simp [marked, markCrlf])
    rw [hnil, List.nil_append] at hhead
    exact absurd (querySummary_head _ _ hhead) (by decide)
  · rw [List.takeWhile_cons, if_pos (by decide), sanitizeForLog_some, marked_cons (by decide)] at hhead
    unfold truncate at hhead
    split at hhead
    · cases n with
      | zero => exact absurd hhead (by simp)
      | succ n => exact absurd hhead (by simp)
    · exact absurd hhead (by simp)

/-- **What the log of a URL shows** of its values and fragments. -/
theorem sanitizeUrlForLog_eq_iff {n : ℕ} {u v : Text} (h : SameUrl u v) :
    sanitizeUrlForLog n u = sanitizeUrlForLog n v ↔ UrlHidden n u v := by
  by_cases hu : u = []
  · by_cases hv : v = []
    · subst hu hv
      exact ⟨fun _ => ⟨Iff.rfl, rfl, Iff.rfl, rfl⟩, fun _ => rfl⟩
    · subst hu
      constructor
      · intro he
        exact absurd he.symm (sanitizeUrlForLog_ne_empty h.base.symm hv)
      · intro hidden
        exact absurd (hidden.empty.1 rfl) hv
  · by_cases hv : v = []
    · subst hv
      constructor
      · intro he
        exact absurd he (sanitizeUrlForLog_ne_empty h.base hu)
      · intro hidden
        exact absurd (hidden.empty.2 rfl) hu
    · rw [sanitizeUrlForLog_eq hu, sanitizeUrlForLog_eq hv]
      constructor
      · intro he
        obtain ⟨hbase, hquery⟩ := append_inj_of_notMem (question_notMem_base n u) (question_notMem_base n v)
          (querySummary_head u) (querySummary_head v) he
        obtain ⟨hempty, hequals⟩ := querySummary_eq_iff.1 hquery
        exact ⟨by simp [hu, hv], sanitizeForLog_eq_iff.1 hbase, hempty, hequals⟩
      · intro hidden
        rw [sanitizeForLog_eq_iff.2 hidden.leading, querySummary_eq_iff.2 ⟨hidden.query, hidden.equals⟩]

/-- Without a fragment in front of the question mark only the equals signs tell two URLs apart. -/
theorem leading_eq_of_no_fragment {u v : Text} (h : SameUrl u v) (hu : '#' ∉ u.takeWhile (· ≠ '?'))
    (hv : '#' ∉ v.takeWhile (· ≠ '?')) : u.takeWhile (· ≠ '?') = v.takeWhile (· ≠ '?') := by
  have hbase : ∀ {url : Text}, '#' ∉ url.takeWhile (· ≠ '?') → urlBase url = url.takeWhile (· ≠ '?') := by
    intro url hash
    induction url with
    | nil => rfl
    | cons c url ih =>
      by_cases hc : c = '?'
      · subst hc
        rfl
      · rw [List.takeWhile_cons, if_pos (by simpa using hc)] at hash ⊢
        rw [List.mem_cons, not_or] at hash
        rw [urlBase, List.takeWhile_cons, if_pos (by simp [hc, Ne.symm hash.1])]
        exact congrArg (c :: ·) (ih hash.2)
  rw [← hbase hu, ← hbase hv, h.base]

/-! ## Values -/

/-- A value without parts; of any but `None` and texts only what `str` and `repr` give is known. -/
inductive Scalar where
  | none
  | text (s : Text)
  | other (str repr : Text)
  deriving DecidableEq, Repr

/-- Keys are scalars, too. -/
abbrev Value := Nested Scalar Scalar

def apostrophe : Char := Char.ofNat 39
def quotation : Char := Char.ofNat 34

/-- `width` hexadecimal digits. -/
def hex (width n : ℕ) : Text := List.replicate (width - (Nat.toDigits 16 n).length) '0' ++ Nat.toDigits 16 n

/-- One character in the `repr` of a text; `printable` is `str.isprintable` beyond ASCII. -/
def reprChar (printable : Char → Bool) (quote c : Char) : Text :=
  if c = quote ∨ c = '\\' then ['\\', c]
  else if c = '\t' then ['\\', 't']
  else if c = '\n' then ['\\', 'n']
  else if c = '\r' then ['\\', 'r']
  else if (32 ≤ c.toNat ∧ c.toNat < 127) ∨ (127 < c.toNat ∧ printable c) then [c]
  else if c.toNat ≤ 0xff then '\\' :: 'x' :: hex 2 c.toNat
  else if c.toNat ≤ 0xffff then '\\' :: 'u' :: hex 4 c.toNat
  else '\\' :: 'U' :: hex 8 c.toNat

def reprText (printable : Char → Bool) (s : Text) : Text :=
  let quote := if apostrophe ∈ s ∧ quotation ∉ s then quotation else apostrophe
  quote :: (s.flatMap (reprChar printable quote) ++ [quote])

def noneText : Text := ['N', 'o', 'n', 'e']

def Scalar.str : Scalar → Text
  | .none => noneText
  | .text s => s
  | .other str _ => str

section
variable (lower : Text → Text) (printable : Char → Bool)

def Scalar.repr : Scalar → Text
  | .none => noneText
  | .text s => reprText printable s
  | .other _ repr => repr

def comma : Text := [',', ' ']

def Value.repr : Value → Text :=
  Nested.fold (Scalar.repr printable) (fun items => '[' :: (comma.intercalate items ++ [']']))
    (fun entries => '{' :: (comma.intercalate (entries.map fun e => e.1.repr printable ++ ':' :: ' ' :: e.2) ++ ['}']))

@[simp]
theorem Value.repr_list (items : List Value) :
    Value.repr printable (.list items) =
      '[' :: (comma.intercalate (items.map (Value.repr printable)) ++ [']']) := Nested.fold_list ..

@[simp]
theorem Value.repr_dict (entries : List (Scalar × Value)) :
    Value.repr printable (.dict entries) =
      '{' :: (comma.intercalate (entries.map fun e => e.1.repr printable ++ ':' :: ' ' :: Value.repr printable e.2) ++
        ['}']) := by
  unfold Value.repr
  rw [Nested.fold_dict, List.map_map]
  rfl

/-- What `sanitize_for_log` gets of a value. -/
def Value.detail : Value → Option Text
  | .scalar .none => none
  | .scalar a => some a.str
  | v => some (Value.repr printable v)

abbrev Entries := List (Scalar × Value)

def sanitizeDict (d : Entries) : Text :=
  sanitizeDictForLog lower (d.map fun e => (e.1.str, Value.detail printable e.2))

/-! ## Secrets -/

/-- A key with a sensitive word in it. -/
def Sensitive (key : Scalar) : Prop := ∃ word ∈ sensitiveKeys, word <:+: lower key.str

instance : DecidablePred (Sensitive lower) := fun _ => by unfold Sensitive; infer_instance

/-- Every secret replaced. -/
def fill (f : Value → Value) : Value → Value :=
  Nested.fold .scalar .list fun entries =>
    .dict (entries.map fun e => (e.1, if Sensitive lower e.1 then f e.2 else e.2))

/-- Every secret taken out. -/
def blank : Value → Value := fill lower fun _ => .scalar .none

def fillEntries (f : Value → Value) (d : Entries) : Entries :=
  d.map fun e => (e.1, if Sensitive lower e.1 then f (fill lower f e.2) else fill lower f e.2)

@[simp]
theorem fill_list (f : Value → Value) (items : List Value) :
    fill lower f (.list items) = .list (items.map (fill lower f)) := Nested.fold_list ..

@[simp]
theorem fill_dict (f : Value → Value) (d : Entries) : fill lower f (.dict d) = .dict (fillEntries lower f d) := by
  unfold fill fillEntries
  rw [Nested.fold_dict, List.map_map]
  rfl

@[simp]
theorem fill_id (v : Value) : fill lower (fun w => w) v = v := by
  induction v using Nested.induct with
  | scalar a => rfl
  | list items ih =>
    rw [fill_list]
    exact congrArg _ ((List.map_congr_left (g := id) ih).trans (List.map_id items))
  | dict entries ih =>
    rw [fill_dict, fillEntries]
    refine congrArg _ ((List.map_congr_left (g := id) fun e he => ?_).trans (List.map_id entries))
    simp [ih e he]

/-- Secrets that are taken out may have been replaced before. -/
theorem blank_fill (f : Value → Value) (v : Value) : blank lower (fill lower f v) = blank lower v := by
  unfold blank
  induction v using Nested.induct with
  | scalar a => rfl
  | list items ih =>
    rw [fill_list, fill_list, fill_list, List.map_map]
    exact congrArg _ (List.map_congr_left ih)
  | dict entries ih =>
    rw [fill_dict, fill_dict, fill_dict, fillEntries, fillEntries, fillEntries, List.map_map]
    refine congrArg _ (List.map_congr_left fun e he => ?_)
    by_cases hs : Sensitive lower e.1
    · simp [hs]
    · simp [hs, ih e he]

/-! ## Up to the first secret -/

/-- A text up to its first secret, and whether there is one. -/
structure Lead where
  text : Text
  found : Bool

def Lead.plain (t : Text) : Lead := ⟨t, false⟩

def Lead.append (a b : Lead) : Lead := if a.found then a else ⟨a.text ++ b.text, b.found⟩

def joinLeads : List Lead → Lead
  | [] => .plain []
  | [a] => a
  | a :: b :: rest => a.append ((Lead.plain comma).append (joinLeads (b :: rest)))

def bracket (opening closing : Char) (a : Lead) : Lead := (Lead.plain [opening]).append (a.append (.plain [closing]))

def entryLead (key : Scalar) (value : Lead) : Lead :=
  if Sensitive lower key then ⟨key.repr printable ++ [':', ' '], true⟩
  else (Lead.plain (key.repr printable ++ [':', ' '])).append value

/-- The `repr` of a value up to its first secret. -/
def lead : Value → Lead :=
  Nested.fold (fun a => .plain (a.repr printable)) (fun items => bracket '[' ']' (joinLeads items))
    (fun entries => bracket '{' '}' (joinLeads (entries.map fun e => entryLead lower printable e.1 e.2)))

@[simp]
theorem lead_list (items : List Value) :
    lead lower printable (.list items) = bracket '[' ']' (joinLeads (items.map (lead lower printable))) := Nested.fold_list ..

@[simp]
theorem lead_dict (entries : List (Scalar × Value)) :
    lead lower printable (.dict entries) =
      bracket '{' '}' (joinLeads (entries.map fun e => entryLead lower printable e.1 (lead lower printable e.2))) := by
  unfold lead
  rw [Nested.fold_dict, List.map_map]
  rfl

theorem entryLead_secret {key : Scalar} (h : Sensitive lower key) (a b : Lead) :
    entryLead lower printable key a = entryLead lower printable key b := by
  unfold entryLead
  rw [if_pos h, if_pos h]

/-- What stands in front of the secrets does not depend on them. -/
theorem lead_fill (f : Value → Value) (v : Value) : lead lower printable (fill lower f v) = lead lower printable v := by
  induction v using Nested.induct with
  | scalar a => rfl
  | list items ih =>
    rw [fill_list, lead_list, lead_list, List.map_map]
    exact congrArg _ (congrArg _ (List.map_congr_left ih))
  | dict entries ih =>
    rw [fill_dict, lead_dict, lead_dict, fillEntries, List.map_map]
    refine congrArg _ (congrArg _ (List.map_congr_left fun e he => ?_))
    by_cases hs : Sensitive lower e.1
    · exact entryLead_secret lower printable hs _ _
    · simp [hs, ih e he]

end

/-- A text that begins as its lead says. Behind the lead stand at least `n` characters, the first of them `want`
if that is given; a secret stands behind a blank. -/
inductive Reads (want : Option Char) (n : ℕ) : Lead → Text → Prop where
  | plain (t : Text) : Reads want n ⟨t, false⟩ t
  | secret (y rest : Text) (hwant : ∀ c ∈ want, rest.head? = some c) (hn : n ≤ rest.length) :
    Reads want n ⟨y ++ [' '], true⟩ (y ++ ' ' :: rest)

section
variable {want : Option Char} {n : ℕ} {a b : Lead} {s t : Text}

theorem Reads.mono (h : Reads want (n + 1) a s) : Reads want n a s := by
  cases h with
  | plain => exact .plain _
  | secret y rest hwant hn => exact .secret y rest hwant (by omega)

theorem Reads.eq_of_found (h : Reads want n a s) (hfound : a.found = true) :
    ∃ rest, s = a.text ++ rest ∧ (∀ c ∈ want, rest.head? = some c) ∧ n ≤ rest.length := by
  cases h with
  | plain => cases hfound
  | secret y rest hwant hn => exact ⟨rest, List.append_cons y ' ' rest, hwant, hn⟩

theorem Reads.eq_of_not_found (h : Reads want n a s) (hfound : a.found = false) : s = a.text := by
  cases h with
  | plain => rfl
  | secret => cases hfound

theorem Reads.append (ha : Reads want n a s) (hb : Reads want n b t) : Reads want n (a.append b) (s ++ t) := by
  cases ha with
  | plain =>
    cases hb with
    | plain => exact .plain _
    | secret y rest hwant hn =>
      have h := Reads.secret (s ++ y) rest hwant hn
      rwa [List.append_assoc, List.append_assoc] at h
  | secret y rest hwant hn =>
    have h : Reads want n _ _ := .secret y (rest ++ t)
      (fun c hc => by rw [List.head?_append, hwant c hc]; rfl) (by rw [List.length_append]; omega)
    rw [← List.cons_append, ← List.append_assoc] at h
    exact h

/-- The closing bracket is one more character behind the secret. -/
theorem Reads.bracket (opening closing : Char) (h : Reads want n a s) :
    Reads want (n + 1) (Redaction.bracket opening closing a) (opening :: (s ++ [closing])) := by
  have hclose : Reads want (n + 1) (a.append (.plain [closing])) (s ++ [closing]) := by
    cases h with
    | plain => exact .plain _
    | secret y rest hwant hn =>
      have h : Reads want (n + 1) _ _ := .secret y (rest ++ [closing])
        (fun c hc => by rw [List.head?_append, hwant c hc]; rfl) (by rw [List.length_append]; exact Nat.succ_le_succ hn)
      rw [← List.cons_append, ← List.append_assoc] at h
      exact h
  exact (Reads.plain [opening]).append hclose

theorem Reads.join {as : List Lead} {ts : List Text} (h : List.Forall₂ (Reads want n) as ts) :
    Reads want n (joinLeads as) (comma.intercalate ts) := by
  induction h with
  | nil => exact .plain []
  | @cons a s as ts ha hrest ih =>
    cases hrest with
    | nil =>
      rw [List.intercalate_singleton]
      exact ha
    | @cons b t as ts hb hrest =>
      rw [List.intercalate_cons_cons, List.append_assoc]
      exact ha.append ((Reads.plain comma).append ih)

end

/-- **The `repr` of a value with its secrets replaced** begins with the lead of the value. -/
theorem reads_repr (lower : Text → Text) {printable : Char → Bool} {f : Value → Value} {want : Option Char}
    (hf : ∀ w, ∀ c ∈ want, (Value.repr printable (f w)).head? = some c) (v : Value) :
    Reads want 1 (lead lower printable v) (Value.repr printable (fill lower f v)) := by
  induction v using Nested.induct with
  | scalar a => exact .plain _
  | list items ih =>
    rw [fill_list, lead_list, Value.repr_list, List.map_map]
    refine Reads.bracket _ _ (Reads.join ?_)
    rw [List.forall₂_map_left_iff, List.forall₂_map_right_iff, List.forall₂_same]
    exact fun x hx => (ih x hx).mono
  | dict entries ih =>
    rw [fill_dict, lead_dict, Value.repr_dict, fillEntries, List.map_map]
    refine Reads.bracket _ _ (Reads.join ?_)
    rw [List.forall₂_map_left_iff, List.forall₂_map_right_iff, List.forall₂_same]
    intro e he
    unfold entryLead
    by_cases hs : Sensitive lower e.1
    · have h := Reads.secret (n := 0) (e.1.repr printable ++ [':']) _ (hf (fill lower f e.2)) (Nat.zero_le _)
      simpa [hs] using h
    · have h := (Reads.plain (e.1.repr printable ++ [':', ' '])).append (ih e he).mono
      simpa [hs, Lead.plain] using h

/-! ## What is shown -/

/-- A lead as it is written: escaped, and without its secret where that stands behind 100 characters. -/
def cut (a : Lead) : Lead :=
  if a.found ∧ (marked a.text).length < 100 then ⟨marked a.text, true⟩
  else if a.found then .plain ((marked a.text).take 100 ++ "...(truncated)".toList)
  else .plain (truncate 100 "...(truncated)".toList (marked a.text))

theorem Reads.cut {want : Option Char} {a : Lead} {t : Text} (hwant : ∀ c ∈ want, isControl c = false)
    (h : Reads want 1 a t) :
    Reads want 1 (Redaction.cut a) (truncate 100 "...(truncated)".toList (marked t)) := by
  cases h with
  | plain => exact .plain _
  | secret y rest hw hn =>
    have hrest : marked rest ≠ [] := marked_ne_nil (List.ne_nil_of_length_pos hn)
    have hpos : 0 < (marked rest).length := List.length_pos_iff.2 hrest
    have hhead : ∀ c ∈ want, (marked rest).head? = some c := by
      intro c hc
      obtain ⟨tl, rfl⟩ := List.head?_eq_some_iff.1 (hw c hc)
      rw [marked_cons (hwant c hc)]
      rfl
    have hlead : marked (y ++ [' ']) = marked y ++ [' '] := marked_append y []
    unfold Redaction.cut
    rw [hlead, marked_append, List.length_append, List.length_singleton]
    by_cases hlen : (marked y).length + 1 < 100
    · rw [if_pos ⟨rfl, hlen⟩]
      unfold truncate
      split
      · -- something of the secret stands in front of the cut
        obtain ⟨k, hk⟩ : ∃ k, 100 - (marked y).length = k + 2 := ⟨98 - (marked y).length, by omega⟩
        obtain ⟨c, m, hm⟩ := List.exists_cons_of_ne_nil hrest
        rw [List.take_append, List.take_of_length_le (by omega), hk, hm, List.take_succ_cons, List.take_succ_cons,
          List.append_assoc]
        rw [hm] at hhead
        exact .secret _ _ (fun d hd => hhead d hd) (by simp)
      · exact .secret _ _ hhead hpos
    · rw [if_neg (fun h => hlen h.2), if_pos rfl]
      unfold truncate
      rw [if_pos (by simp only [List.length_append, List.length_cons]; omega)]
      have hfull : 100 ≤ (marked y ++ [' ']).length := by
        rw [List.length_append, List.length_singleton]
        omega
      have htake : (marked y ++ ' ' :: marked rest).take 100 = (marked y ++ [' ']).take 100 := by
        rw [List.append_cons, List.take_append_of_le_length hfull]
      rw [htake]
      exact .plain _

/-- One entry of the dictionary itself as it is written. -/
def shownEntry (lower : Text → Text) (printable : Char → Bool) (e : Scalar × Value) : Lead :=
  if Sensitive lower e.1 then .plain (e.1.str ++ "=[REDACTED]".toList)
  else match e.2 with
    | .scalar .none => .plain (e.1.str ++ '=' :: "[None]".toList)
    | .scalar a => .plain (e.1.str ++ '=' :: sanitizeForLog 100 (some a.str))
    | v => (Lead.plain (e.1.str ++ ['='])).append (cut (lead lower printable v))

/-- What is written of a dictionary in front of the first secret that is written. -/
def shownLead (lower : Text → Text) (printable : Char → Bool) (d : Entries) : Lead :=
  bracket '{' '}' (joinLeads (d.map (shownEntry lower printable)))

section
variable {lower : Text → Text} {printable : Char → Bool}

theorem shownEntry_of_not {key : Scalar} (hs : ¬ Sensitive lower key) {v : Value} (hv : ∀ a, v ≠ .scalar a) :
    shownEntry lower printable (key, v) = (Lead.plain (key.str ++ ['='])).append (cut (lead lower printable v)) := by
  unfold shownEntry
  rw [if_neg hs]
  cases v with
  | scalar a => exact absurd rfl (hv a)
  | list items => rfl
  | dict entries => rfl

theorem detail_of_not {v : Value} (hv : ∀ a, v ≠ .scalar a) : Value.detail printable v = some (v.repr printable) := by
  cases v with
  | scalar a => exact absurd rfl (hv a)
  | list items => rfl
  | dict entries => rfl

theorem fill_ne_scalar {f : Value → Value} {v : Value} (hv : ∀ a, v ≠ .scalar a) : ∀ a, fill lower f v ≠ .scalar a := by
  intro a h
  cases v with
  | scalar b => exact hv b rfl
  | list items =>
    rw [fill_list] at h
    cases h
  | dict entries =>
    rw [fill_dict] at h
    cases h

theorem detailText_sensitive {key : Scalar} (hs : Sensitive lower key) (t : Option Text) :
    detailText lower (key.str, t) = key.str ++ "=[REDACTED]".toList := if_pos hs

theorem detailText_of_not {key : Scalar} (hs : ¬ Sensitive lower key) (t : Option Text) :
    detailText lower (key.str, t) = key.str ++ '=' :: sanitizeForLog 100 t := if_neg hs

/-- An entry is written as its lead says, whatever its secrets are. -/
theorem reads_entry {f : Value → Value} {want : Option Char} (hwant : ∀ c ∈ want, isControl c = false)
    (hf : ∀ w, ∀ c ∈ want, (Value.repr printable (f w)).head? = some c) (e : Scalar × Value) :
    Reads want 0 (shownEntry lower printable e)
      (detailText lower (e.1.str, Value.detail printable
        (if Sensitive lower e.1 then f (fill lower f e.2) else fill lower f e.2))) := by
  obtain ⟨key, v⟩ := e
  by_cases hs : Sensitive lower key
  · rw [detailText_sensitive hs]
    unfold shownEntry
    rw [if_pos hs]
    exact .plain _
  · rw [detailText_of_not hs, if_neg hs]
    by_cases hv : ∃ a, v = .scalar a
    · obtain ⟨a, rfl⟩ := hv
      unfold shownEntry
      rw [if_neg hs]
      cases a with
      | none => exact .plain _
      | text s => exact .plain _
      | other str repr => exact .plain _
    · rw [not_exists] at hv
      rw [shownEntry_of_not hs hv, detail_of_not (fill_ne_scalar hv), sanitizeForLog_some]
      have h := (Reads.plain (key.str ++ ['='])).append ((reads_repr lower hf v).cut hwant).mono
      rwa [List.append_assoc] at h

/-- **The dictionary with its secrets replaced** is written as its lead says. -/
theorem reads_dict (f : Value → Value) {want : Option Char} (hwant : ∀ c ∈ want, isControl c = false)
    (hf : ∀ w, ∀ c ∈ want, (Value.repr printable (f w)).head? = some c) (d : Entries) :
    Reads want 1 (shownLead lower printable d)
      (dictText lower ((fillEntries lower f d).map fun e => (e.1.str, Value.detail printable e.2))) := by
  unfold dictText shownLead fillEntries
  rw [List.map_map, List.map_map]
  refine Reads.bracket _ _ (Reads.join ?_)
  rw [List.forall₂_map_left_iff, List.forall₂_map_right_iff, List.forall₂_same]
  exact fun e _ => reads_entry hwant hf e

theorem shownLead_fill (f : Value → Value) (d : Entries) :
    shownLead lower printable (fillEntries lower f d) = shownLead lower printable d := by
  unfold shownLead fillEntries
  rw [List.map_map]
  refine congrArg _ (congrArg _ (List.map_congr_left fun e _ => ?_))
  obtain ⟨key, v⟩ := e
  by_cases hs : Sensitive lower key
  · simp [shownEntry, hs]
  · simp only [Function.comp_apply, hs, if_false]
    by_cases hv : ∃ a, v = .scalar a
    · obtain ⟨a, rfl⟩ := hv
      rfl
    · rw [not_exists] at hv
      rw [shownEntry_of_not hs hv, shownEntry_of_not hs (fill_ne_scalar hv), lead_fill]

end

/-! ## Truncated texts -/

section
variable {n : ℕ} {suffix s t : Text} {a : Lead}

theorem getElem?_truncate {i : ℕ} (hi : i < n) : (truncate n suffix s)[i]? = s[i]? := by
  unfold truncate
  split
  · rw [List.getElem?_append_left (by rw [List.length_take]; omega), List.getElem?_take_of_lt hi]
  · rfl

theorem truncate_append (h : n ≤ s.length) (ht : 0 < t.length) :
    truncate n suffix (s ++ t) = s.take n ++ suffix := by
  unfold truncate
  rw [if_pos (by rw [List.length_append]; omega), List.take_append_of_le_length h]

/-- Secrets behind the end. -/
theorem truncate_eq_of_reads (hs : Reads none 1 a s) (ht : Reads none 1 a t) (h : a.found = true → n ≤ a.text.length) :
    truncate n suffix s = truncate n suffix t := by
  by_cases hfound : a.found = true
  · obtain ⟨rest, rfl, -, hrest⟩ := hs.eq_of_found hfound
    obtain ⟨rest', rfl, -, hrest'⟩ := ht.eq_of_found hfound
    rw [truncate_append (h hfound) hrest, truncate_append (h hfound) hrest']
  · rw [Bool.not_eq_true] at hfound
    rw [hs.eq_of_not_found hfound, ht.eq_of_not_found hfound]

/-- A secret that shows. -/
theorem truncate_ne_of_reads (suffix : Text) {c d : Char} (hcd : c ≠ d) (hs : Reads (some c) 1 a s) (ht : Reads (some d) 1 a t)
    (hfound : a.found = true) (h : a.text.length < n) : truncate n suffix s ≠ truncate n suffix t := by
  have hchar : ∀ {c : Char} {s : Text}, Reads (some c) 1 a s → (truncate n suffix s)[a.text.length]? = some c := by
    intro c s hr
    obtain ⟨rest, rfl, hwant, hrest⟩ := hr.eq_of_found hfound
    rw [getElem?_truncate h, List.getElem?_append_right le_rfl, Nat.sub_self,
      ← List.head?_eq_getElem?]
    exact hwant c rfl
  intro he
  have hc := hchar hs
  rw [he, hchar ht] at hc
  exact hcd (Option.some.inj hc).symm

end

section
variable (lower : Text → Text) (printable : Char → Bool)

/-- Two dictionaries that differ in their secrets only. -/
def SameDict (d e : Entries) : Prop := blank lower (.dict d) = blank lower (.dict e)

/-- The first secret that would be written stands behind the 500 characters that are shown. -/
def SecretsHidden (d : Entries) : Prop :=
  (shownLead lower printable d).found = true → 500 ≤ (shownLead lower printable d).text.length

instance (d : Entries) : Decidable (SecretsHidden lower printable d) := by unfold SecretsHidden; infer_instance

variable {lower printable}

theorem shownLead_eq {d e : Entries} (h : SameDict lower d e) :
    shownLead lower printable d = shownLead lower printable e := by
  unfold SameDict blank at h
  rw [fill_dict, fill_dict, Nested.dict.injEq] at h
  rw [← shownLead_fill (fun _ => .scalar .none) d, h, shownLead_fill]

/-- A secret that is one character. -/
def digit (c : Char) : Value → Value := fun _ => .scalar (.other [c] [c])

theorem sameDict_fillEntries (f : Value → Value) (d : Entries) : SameDict lower d (fillEntries lower f d) := by
  unfold SameDict
  rw [← fill_dict, blank_fill]

theorem reads_digit {c : Char} (hc : isControl c = false) (d : Entries) :
    Reads (some c) 1 (shownLead lower printable d)
      (dictText lower ((fillEntries lower (digit c) d).map fun e => (e.1.str, Value.detail printable e.2))) := by
  refine reads_dict (digit c) (fun b hb => ?_) (fun w b hb => ?_) d
  · cases hb
    exact hc
  · cases hb
    rfl

theorem reads_self (d : Entries) :
    Reads none 1 (shownLead lower printable d)
      (dictText lower (d.map fun e => (e.1.str, Value.detail printable e.2))) := by
  have h : Reads none 1 (shownLead lower printable d) _ := reads_dict (fun w => w) (by simp) (by simp) d
  simpa [fillEntries] using h

/-- **What the log of a dictionary shows** of its secrets. -/
theorem sanitizeDict_eq_iff (d : Entries) :
    (∀ e, SameDict lower d e → sanitizeDict lower printable e = sanitizeDict lower printable d) ↔
      SecretsHidden lower printable d := by
  constructor
  · intro hall hfound
    by_contra hlen
    have hone : isControl '1' = false := by decide
    have htwo : isControl '2' = false := by decide
    have hsame : sanitizeDict lower printable (fillEntries lower (digit '1') d) =
        sanitizeDict lower printable (fillEntries lower (digit '2') d) := by
      rw [hall _ (sameDict_fillEntries _ d), hall _ (sameDict_fillEntries _ d)]
    exact truncate_ne_of_reads _ (by decide) (reads_digit hone d) (reads_digit htwo d) hfound (not_le.1 hlen) hsame
  · intro hidden e he
    have hself : Reads none 1 (shownLead lower printable e) _ := reads_self e
    rw [← shownLead_eq he] at hself
    exact truncate_eq_of_reads hself (reads_self d) hidden

end

/-- **What redaction shows**: of URLs that differ in values and fragments, and of dictionaries that differ in
secrets. -/
theorem redaction_iff (lower : Text → Text) (printable : Char → Bool) (n : ℕ) :
    (∀ u v, SameUrl u v → (sanitizeUrlForLog n u = sanitizeUrlForLog n v ↔ UrlHidden n u v)) ∧
      ∀ d, (∀ e, SameDict lower d e → sanitizeDict lower printable e = sanitizeDict lower printable d) ↔
        SecretsHidden lower printable d :=
  ⟨fun _ _ => sanitizeUrlForLog_eq_iff, sanitizeDict_eq_iff⟩

/-- `str.lower` and `str.isprintable` of ASCII. -/
def asciiLower (s : Text) : Text := s.map Char.toLower

def asciiPrintable (_ : Char) : Bool := false

def login (password : String) : Entries :=
  [(.text "user".toList, .dict [(.text "password".toList, .scalar (.text password.toList))])]

/-- A fragment, a padding and a password one level down. -/
theorem redaction_leaks :
    (SameUrl "/reset#token1?".toList "/reset#token2?".toList ∧
      sanitizeUrlForLog 200 "/reset#token1?".toList ≠ sanitizeUrlForLog 200 "/reset#token2?".toList) ∧
    (SameUrl "/reset?token=YWI=".toList "/reset?token=YWJj".toList ∧
      sanitizeUrlForLog 200 "/reset?token=YWI=".toList ≠ sanitizeUrlForLog 200 "/reset?token=YWJj".toList) ∧
    SameDict asciiLower (login "one") (login "two") ∧
      sanitizeDict asciiLower asciiPrintable (login "one") ≠ sanitizeDict asciiLower asciiPrintable (login "two") := by
  refine ⟨⟨⟨by decide, by decide⟩, by decide⟩, ⟨⟨by decide, by decide⟩, by decide⟩, rfl, by decide⟩

theorem redaction_iff_reset :
    sanitizeUrlForLog 200 "/reset?token=YWJj".toList = sanitizeUrlForLog 200 "/reset?token=ZGVm".toList :=
  ((redaction_iff asciiLower asciiPrintable 200).1 _ _ ⟨by decide, by decide⟩).2
    ⟨by decide, by decide, by decide, by decide⟩

end Redaction

end Dmis
