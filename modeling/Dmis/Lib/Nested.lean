import Mathlib.Data.List.Basic

/-!
# Nested data

Values built from scalars by lists and by dictionaries with keys, as JSON and Python have them. A dictionary is the
list of its entries in order. `Nested.induct` is the induction over both kinds of nesting, `Occurs` says that a value
stands somewhere inside another, `fold` is a recursion that sees only the results for the parts, and `get?` follows a
path of keys.
-/

inductive Nested (κ σ : Type) where
  | scalar (a : σ)
  | list (items : List (Nested κ σ))
  | dict (entries : List (κ × Nested κ σ))

namespace Nested

variable {κ σ : Type}

/-- Induction over lists and dictionaries at once. -/
@[elab_as_elim]
theorem induct {P : Nested κ σ → Prop} (scalar : ∀ a, P (.scalar a))
    (list : ∀ items, (∀ x ∈ items, P x) → P (.list items))
    (dict : ∀ entries, (∀ e ∈ entries, P e.2) → P (.dict entries)) (v : Nested κ σ) : P v := by
  refine @Nested.rec κ σ P (fun items => ∀ x ∈ items, P x) (fun entries => ∀ e ∈ entries, P e.2) (fun e => P e.2)
    scalar list dict ?_ ?_ ?_ ?_ ?_ v
  · simp
  · intro x items hx hitems y hy
    rcases List.mem_cons.1 hy with rfl | hy
    · exact hx
    · exact hitems y hy
  · simp
  · intro e entries he hentries y hy
    rcases List.mem_cons.1 hy with rfl | hy
    · exact he
    · exact hentries y hy
  · intro k v hv
    exact hv

/-! ## Recursion -/

section
variable {α : Type} (scalar : σ → α) (list : List α → α) (dict : List (κ × α) → α)

mutual

def fold : Nested κ σ → α
  | .scalar a => scalar a
  | .list items => list (foldItems items)
  | .dict entries => dict (foldEntries entries)

def foldItems : List (Nested κ σ) → List α
  | [] => []
  | x :: items => fold x :: foldItems items

def foldEntries : List (κ × Nested κ σ) → List (κ × α)
  | [] => []
  | (k, v) :: entries => (k, fold v) :: foldEntries entries

end

@[simp]
theorem fold_scalar (a : σ) : fold scalar list dict (.scalar a : Nested κ σ) = scalar a := rfl

@[simp]
theorem fold_list (items : List (Nested κ σ)) :
    fold scalar list dict (.list items) = list (items.map (fold scalar list dict)) := by
  have h : ∀ items : List (Nested κ σ), foldItems scalar list dict items = items.map (fold scalar list dict) := by
    intro items
    induction items with
    | nil => rfl
    | cons x items ih => rw [foldItems, ih, List.map_cons]
  rw [fold, h]

@[simp]
theorem fold_dict (entries : List (κ × Nested κ σ)) :
    fold scalar list dict (.dict entries) = dict (entries.map fun e => (e.1, fold scalar list dict e.2)) := by
  have h : ∀ entries : List (κ × Nested κ σ),
      foldEntries scalar list dict entries = entries.map fun e => (e.1, fold scalar list dict e.2) := by
    intro entries
    induction entries with
    | nil => rfl
    | cons e entries ih => rw [foldEntries, ih, List.map_cons]
  rw [fold, h]

end

/-! ## Parts -/

/-- `w` is `v` or stands somewhere inside it. -/
inductive Occurs (w : Nested κ σ) : Nested κ σ → Prop where
  | self : Occurs w w
  | item {x : Nested κ σ} {items : List (Nested κ σ)} : x ∈ items → Occurs w x → Occurs w (.list items)
  | entry {e : κ × Nested κ σ} {entries : List (κ × Nested κ σ)} : e ∈ entries → Occurs w e.2 → Occurs w (.dict entries)

theorem occurs_scalar {w : Nested κ σ} {a : σ} : Occurs w (.scalar a) ↔ w = .scalar a := by
  constructor
  · rintro ⟨⟩
    rfl
  · rintro rfl
    exact .self

theorem occurs_list {w : Nested κ σ} {items : List (Nested κ σ)} :
    Occurs w (.list items) ↔ w = .list items ∨ ∃ x ∈ items, Occurs w x := by
  constructor
  · intro h
    cases h with
    | self => exact .inl rfl
    | item hx h => exact .inr ⟨_, hx, h⟩
  · rintro (rfl | ⟨x, hx, h⟩)
    · exact .self
    · exact .item hx h

theorem occurs_dict {w : Nested κ σ} {entries : List (κ × Nested κ σ)} :
    Occurs w (.dict entries) ↔ w = .dict entries ∨ ∃ e ∈ entries, Occurs w e.2 := by
  constructor
  · intro h
    cases h with
    | self => exact .inl rfl
    | entry he h => exact .inr ⟨_, he, h⟩
  · rintro (rfl | ⟨e, he, h⟩)
    · exact .self
    · exact .entry he h

section
variable [DecidableEq κ]

/-- The value at a path of keys. -/
def get? : List κ → Nested κ σ → Option (Nested κ σ)
  | [], v => some v
  | k :: ks, .dict entries => (entries.find? fun e => e.1 = k).bind fun e => get? ks e.2
  | _ :: _, _ => none

/-- A key whose entry is rewritten on its own is found as before. -/
theorem find?_map_entries (f : Nested κ σ → Nested κ σ) (entries : List (κ × Nested κ σ)) (k : κ) :
    (entries.map fun e => (e.1, f e.2)).find? (fun e => e.1 = k) =
      (entries.find? fun e => e.1 = k).map fun e => (e.1, f e.2) := by
  rw [List.find?_map]
  rfl

end

end Nested
