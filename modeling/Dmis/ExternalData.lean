import Dmis.Lib.Nested
import Mathlib.Data.List.ReduceOption

/-!
# Data from external services

`sanitize_external_data` (`app/security/safe_api_client.py:323-368`) keeps the allowed keys of a dictionary and
bounds what stands under them: NUL is dropped from a text and 10000 characters are kept, dictionaries are walked
again, and of an array the first 1000 elements are kept, without the arrays among them.

| here | there |
| --- | --- |
| `Json` | what `response.json()` returns; numbers of any kind |
| `sanitizeValue`, `sanitizeItem` | the branches on the type of `value` (`:352-366`) and of a list's `item` (`:360-366`) |
| `sanitizeExternalData` | the function; no allowed keys stand for `None` and for an empty list |

The elements of an array have a rule of their own, and it cuts a text without dropping NUL: `sanitized_iff` says that
the result is clean exactly when no text with a NUL comes through there.
-/

namespace Dmis

namespace ExternalData

abbrev Text := List Char

inductive Scalar (ν : Type) where
  | null
  | bool (b : Bool)
  | number (n : ν)
  | str (s : Text)
  deriving DecidableEq, Repr

abbrev Json (ν : Type) := Nested Text (Scalar ν)

variable {ν : Type}

/-- `value.replace('\\x00', '')[:10000]`. -/
def cleaned (s : Text) : Text := (s.filter (· ≠ '\x00')).take 10000

def Scalar.cleaned : Scalar ν → Scalar ν
  | .str s => .str (ExternalData.cleaned s)
  | a => a

/-- `item[:10000]`. -/
def Scalar.cut : Scalar ν → Scalar ν
  | .str s => .str (s.take 10000)
  | a => a

mutual

/-- A value under a key. -/
def sanitizeValue : Json ν → Json ν
  | .scalar a => .scalar a.cleaned
  | .list items => .list ((sanitizeItems items).take 1000).reduceOption
  | .dict entries => .dict (sanitizeEntries entries)

/-- An element of an array; an array in an array is left out. -/
def sanitizeItem : Json ν → Option (Json ν)
  | .scalar a => some (.scalar a.cut)
  | .list _ => none
  | .dict entries => some (.dict (sanitizeEntries entries))

def sanitizeItems : List (Json ν) → List (Option (Json ν))
  | [] => []
  | x :: items => sanitizeItem x :: sanitizeItems items

def sanitizeEntries : List (Text × Json ν) → List (Text × Json ν)
  | [] => []
  | (k, v) :: entries => (k, sanitizeValue v) :: sanitizeEntries entries

end

/-- The entries that are looked at; nothing of what is no dictionary. -/
def admitted (allowedKeys : List Text) : Json ν → Json ν
  | .dict entries => .dict (entries.filter fun e => allowedKeys = [] ∨ e.1 ∈ allowedKeys)
  | _ => .dict []

def sanitizeExternalData (data : Json ν) (allowedKeys : List Text) : Json ν := sanitizeValue (admitted allowedKeys data)

/-! ## What the result should be -/

/-- Within the bounds. -/
def Scalar.Clean (a : Scalar ν) : Prop := ∀ s, a = .str s → '\x00' ∉ s ∧ s.length ≤ 10000

structure Sanitized (data : Json ν) (allowedKeys : List Text) : Prop where
  strings : ∀ s, Nested.Occurs (.scalar (.str s)) (sanitizeExternalData data allowedKeys) →
    '\x00' ∉ s ∧ s.length ≤ 10000
  arrays : ∀ items, Nested.Occurs (.list items) (sanitizeExternalData data allowedKeys) → items.length ≤ 1000
  again : sanitizeExternalData (sanitizeExternalData data allowedKeys) allowedKeys =
    sanitizeExternalData data allowedKeys
  /-- A clean scalar under allowed keys stays where it is. -/
  kept : ∀ k ks a, (allowedKeys = [] ∨ k ∈ allowedKeys) → data.get? (k :: ks) = some (.scalar a) → a.Clean →
    (sanitizeExternalData data allowedKeys).get? (k :: ks) = some (.scalar a)

/-- A text with a NUL among its first 10000 characters is one of the first 1000 elements of an array, in a dictionary
that is reached through dictionaries and through such elements. -/
inductive ListedNul : Json ν → Prop where
  | text {s : Text} {items : List (Json ν)} : .scalar (.str s) ∈ items.take 1000 → '\x00' ∈ s.take 10000 →
      ListedNul (.list items)
  | item {entries : List (Text × Json ν)} {items : List (Json ν)} : .dict entries ∈ items.take 1000 →
      ListedNul (.dict entries) → ListedNul (.list items)
  | entry {e : Text × Json ν} {entries : List (Text × Json ν)} : e ∈ entries → ListedNul e.2 →
      ListedNul (.dict entries)

/-! ## One level -/

theorem sanitizeItems_eq (items : List (Json ν)) : sanitizeItems items = items.map sanitizeItem := by
  induction items with
  | nil => rfl
  | cons x items ih => rw [sanitizeItems, ih, List.map_cons]

theorem sanitizeEntries_eq (entries : List (Text × Json ν)) :
    sanitizeEntries entries = entries.map fun e => (e.1, sanitizeValue e.2) := by
  induction entries with
  | nil => rfl
  | cons e entries ih => rw [sanitizeEntries, ih, List.map_cons]

theorem sanitizeValue_dict (entries : List (Text × Json ν)) :
    sanitizeValue (.dict entries) = .dict (entries.map fun e => (e.1, sanitizeValue e.2)) := by
  rw [sanitizeValue, sanitizeEntries_eq]

theorem sanitizeItem_dict (entries : List (Text × Json ν)) :
    sanitizeItem (.dict entries) = some (sanitizeValue (.dict entries)) := by
  rw [sanitizeItem, sanitizeValue]

/-- The elements that are kept of an array. -/
def listed (items : List (Json ν)) : List (Json ν) := ((items.take 1000).map sanitizeItem).reduceOption

theorem sanitizeValue_list (items : List (Json ν)) : sanitizeValue (.list items) = .list (listed items) := by
  rw [sanitizeValue, sanitizeItems_eq, listed, List.map_take]

theorem mem_listed {x : Json ν} {items : List (Json ν)} :
    x ∈ listed items ↔ ∃ y ∈ items.take 1000, sanitizeItem y = some x := by
  rw [listed, List.reduceOption_mem_iff, List.mem_map]

theorem length_listed (items : List (Json ν)) : (listed items).length ≤ 1000 := by
  have hsub := List.reduceOption_length_le ((items.take 1000).map sanitizeItem)
  have htake := List.length_take_le 1000 items
  rw [List.length_map] at hsub
  exact Nat.le_trans hsub htake

theorem cleaned_clean (s : Text) : '\x00' ∉ cleaned s ∧ (cleaned s).length ≤ 10000 := by
  refine ⟨fun h => ?_, List.length_take_le _ _⟩
  have hmem := (List.mem_filter.1 (List.mem_of_mem_take h)).2
  simp at hmem

theorem cleaned_eq {s : Text} (h : '\x00' ∉ s ∧ s.length ≤ 10000) : cleaned s = s := by
  have hkept : s.filter (· ≠ '\x00') = s := by
    rw [List.filter_eq_self]
    intro c hc
    simp only [ne_eq, decide_eq_true_eq]
    rintro rfl
    exact h.1 hc
  rw [cleaned, hkept, List.take_of_length_le h.2]

theorem Scalar.Clean.cleaned {a : Scalar ν} (h : a.Clean) : a.cleaned = a := by
  cases a with
  | str s => exact congrArg Scalar.str (cleaned_eq (h s rfl))
  | null => rfl
  | bool b => rfl
  | number n => rfl

theorem Scalar.cleaned_clean (a : Scalar ν) : a.cleaned.Clean := by
  intro s hs
  cases a with
  | str t =>
    cases hs
    exact ExternalData.cleaned_clean t
  | null => cases hs
  | bool b => cases hs
  | number n => cases hs

theorem Scalar.cut_cut (a : Scalar ν) : a.cut.cut = a.cut := by
  cases a with
  | str s => simp [Scalar.cut, List.take_take]
  | null => rfl
  | bool b => rfl
  | number n => rfl

/-! ## Every depth -/

/-- A text of the result is short, and a NUL in it came through an array. -/
theorem occurs_str {s : Text} (v : Json ν) (h : Nested.Occurs (.scalar (.str s)) (sanitizeValue v)) :
    s.length ≤ 10000 ∧ ('\x00' ∈ s → ListedNul v) := by
  induction v using Nested.induct with
  | scalar a =>
    rw [sanitizeValue, Nested.occurs_scalar] at h
    have hclean := a.cleaned_clean s (by simpa using h.symm)
    exact ⟨hclean.2, fun hm => absurd hm hclean.1⟩
  | list items ih =>
    rw [sanitizeValue_list, Nested.occurs_list] at h
    obtain ⟨x, hx, h⟩ := h.resolve_left (by simp)
    obtain ⟨y, hy, hyx⟩ := mem_listed.1 hx
    cases y with
    | scalar a =>
      rw [sanitizeItem] at hyx
      cases hyx
      rw [Nested.occurs_scalar] at h
      cases a with
      | str t =>
        obtain rfl : s = t.take 10000 := by simpa [Scalar.cut] using h
        exact ⟨List.length_take_le _ _, fun hm => .text hy hm⟩
      | null => simp [Scalar.cut] at h
      | bool b => simp [Scalar.cut] at h
      | number n => simp [Scalar.cut] at h
    | list _ =>
      rw [sanitizeItem] at hyx
      cases hyx
    | dict entries =>
      rw [sanitizeItem_dict] at hyx
      cases hyx
      have hd := ih _ (List.mem_of_mem_take hy) h
      exact ⟨hd.1, fun hm => .item hy (hd.2 hm)⟩
  | dict entries ih =>
    rw [sanitizeValue_dict, Nested.occurs_dict] at h
    obtain ⟨e', he', h⟩ := h.resolve_left (by simp)
    obtain ⟨e, he, rfl⟩ := List.mem_map.1 he'
    have hd := ih e he h
    exact ⟨hd.1, fun hm => .entry he (hd.2 hm)⟩

/-- And such a NUL does come through. -/
theorem exists_of_listedNul {v : Json ν} (h : ListedNul v) :
    ∃ s, '\x00' ∈ s ∧ Nested.Occurs (.scalar (.str s)) (sanitizeValue v) := by
  induction h with
  | @text s items hs hm =>
    refine ⟨s.take 10000, hm, ?_⟩
    rw [sanitizeValue_list]
    exact .item (mem_listed.2 ⟨_, hs, by rw [sanitizeItem]; rfl⟩) .self
  | item hd _ ih =>
    obtain ⟨s, hm, hs⟩ := ih
    refine ⟨s, hm, ?_⟩
    rw [sanitizeValue_list]
    exact .item (mem_listed.2 ⟨_, hd, sanitizeItem_dict _⟩) hs
  | @entry e entries he _ ih =>
    obtain ⟨s, hm, hs⟩ := ih
    refine ⟨s, hm, ?_⟩
    rw [sanitizeValue_dict]
    exact .entry (List.mem_map_of_mem he) hs

theorem occurs_list {items : List (Json ν)} (v : Json ν) (h : Nested.Occurs (.list items) (sanitizeValue v)) :
    items.length ≤ 1000 := by
  induction v using Nested.induct with
  | scalar a =>
    rw [sanitizeValue, Nested.occurs_scalar] at h
    cases h
  | list items' ih =>
    rw [sanitizeValue_list, Nested.occurs_list] at h
    rcases h with h | ⟨x, hx, h⟩
    · cases h
      exact length_listed items'
    · obtain ⟨y, hy, hyx⟩ := mem_listed.1 hx
      cases y with
      | scalar a =>
        rw [sanitizeItem] at hyx
        cases hyx
        rw [Nested.occurs_scalar] at h
        cases h
      | list _ =>
        rw [sanitizeItem] at hyx
        cases hyx
      | dict entries =>
        rw [sanitizeItem_dict] at hyx
        cases hyx
        exact ih _ (List.mem_of_mem_take hy) h
  | dict entries ih =>
    rw [sanitizeValue_dict, Nested.occurs_dict] at h
    obtain ⟨e', he', h⟩ := h.resolve_left (by simp)
    obtain ⟨e, he, rfl⟩ := List.mem_map.1 he'
    exact ih e he h

/-- What an array keeps, it keeps again. -/
theorem listed_listed {items : List (Json ν)} (h : ∀ x ∈ listed items, sanitizeItem x = some x) :
    listed (listed items) = listed items := by
  have hmap : (listed items).map sanitizeItem = (listed items).map some := List.map_congr_left h
  rw [listed, List.take_of_length_le (length_listed items), hmap]
  simp [List.reduceOption]

theorem sanitizeValue_again (v : Json ν) : sanitizeValue (sanitizeValue v) = sanitizeValue v := by
  induction v using Nested.induct with
  | scalar a => rw [sanitizeValue, sanitizeValue, a.cleaned_clean.cleaned]
  | list items ih =>
    rw [sanitizeValue_list, sanitizeValue_list, listed_listed]
    intro x hx
    obtain ⟨y, hy, hyx⟩ := mem_listed.1 hx
    cases y with
    | scalar a =>
      rw [sanitizeItem] at hyx
      cases hyx
      rw [sanitizeItem, a.cut_cut]
    | list _ =>
      rw [sanitizeItem] at hyx
      cases hyx
    | dict entries =>
      rw [sanitizeItem_dict] at hyx
      cases hyx
      have hagain := ih _ (List.mem_of_mem_take hy)
      rw [sanitizeValue_dict] at hagain ⊢
      rw [sanitizeItem_dict, hagain]
  | dict entries ih =>
    rw [sanitizeValue_dict, sanitizeValue_dict, List.map_map]
    refine congrArg Nested.dict (List.map_congr_left fun e he => ?_)
    exact Prod.ext rfl (ih e he)

theorem get?_sanitizeValue {a : Scalar ν} (ha : a.Clean) : ∀ {ks : List Text} {v : Json ν},
    v.get? ks = some (.scalar a) → (sanitizeValue v).get? ks = some (.scalar a)
  | [], v, h => by
    cases h
    rw [sanitizeValue, ha.cleaned]
    rfl
  | k :: ks, .scalar _, h => by cases h
  | k :: ks, .list _, h => by cases h
  | k :: ks, .dict entries, h => by
    rw [Nested.get?] at h
    obtain ⟨e, he, h⟩ := Option.bind_eq_some_iff.1 h
    rw [sanitizeValue_dict, Nested.get?, Nested.find?_map_entries, he]
    exact get?_sanitizeValue ha h

/-! ## The result -/

variable {data : Json ν} {allowedKeys : List Text}

theorem admitted_again : admitted allowedKeys (sanitizeValue (admitted allowedKeys data)) =
    sanitizeValue (admitted allowedKeys data) := by
  obtain ⟨entries, he⟩ : ∃ entries : List (Text × Json ν), admitted allowedKeys data =
      .dict (entries.filter fun e => allowedKeys = [] ∨ e.1 ∈ allowedKeys) := by
    cases data with
    | dict entries => exact ⟨entries, rfl⟩
    | scalar a => exact ⟨[], rfl⟩
    | list items => exact ⟨[], rfl⟩
  rw [he, sanitizeValue_dict, admitted, List.filter_eq_self.2]
  intro e' he'
  obtain ⟨e, he, rfl⟩ := List.mem_map.1 he'
  exact (List.mem_filter.1 he).2

theorem get?_admitted {k : Text} {ks : List Text} (hk : allowedKeys = [] ∨ k ∈ allowedKeys) :
    (admitted allowedKeys data).get? (k :: ks) = data.get? (k :: ks) := by
  cases data with
  | scalar a => rfl
  | list items => rfl
  | dict entries =>
    have hfind : (entries.filter fun e => allowedKeys = [] ∨ e.1 ∈ allowedKeys).find? (fun e => e.1 = k) =
        entries.find? fun e => e.1 = k := by
      rw [List.find?_filter]
      congr 1
      funext e
      by_cases he : e.1 = k
      · simp [he, hk]
      · simp [he]
    rw [admitted, Nested.get?, Nested.get?, hfind]

/-- **The result is clean** exactly when no text with a NUL comes through an array. -/
theorem sanitized_iff (data : Json ν) (allowedKeys : List Text) :
    Sanitized data allowedKeys ↔ ¬ ListedNul (admitted allowedKeys data) := by
  constructor
  · intro h hnul
    obtain ⟨s, hm, hs⟩ := exists_of_listedNul hnul
    exact (h.strings s hs).1 hm
  · intro h
    refine ⟨fun s hs => ?_, fun items hitems => occurs_list _ hitems, ?_, fun k ks a hk hget ha => ?_⟩
    · have hstr := occurs_str _ hs
      exact ⟨fun hm => h (hstr.2 hm), hstr.1⟩
    · rw [sanitizeExternalData, sanitizeExternalData, admitted_again, sanitizeValue_again]
    · refine get?_sanitizeValue ha ?_
      rw [get?_admitted hk, hget]

/-- `{"tags": ["a\u0000b"]}`. -/
def nulTag : Json ℕ := .dict [("tags".toList, .list [.scalar (.str ['a', '\x00', 'b'])])]

/-- The NUL passes. -/
theorem nul_passes : sanitizeExternalData nulTag [] = nulTag ∧ ¬ Sanitized nulTag [] := by
  have hsame : sanitizeExternalData nulTag [] = nulTag := by
    simp [sanitizeExternalData, nulTag, admitted, sanitizeValue_dict, sanitizeValue_list, listed, sanitizeItem,
      Scalar.cut, List.reduceOption]
  refine ⟨hsame, fun h => ?_⟩
  have hstr := h.strings ['a', '\x00', 'b']
  rw [hsame] at hstr
  have hocc : Nested.Occurs (.scalar (.str ['a', '\x00', 'b'])) nulTag :=
    .entry (List.mem_singleton.2 rfl) (.item (List.mem_singleton.2 rfl) .self)
  exact absurd (hstr hocc).1 (by decide)

end ExternalData

end Dmis
