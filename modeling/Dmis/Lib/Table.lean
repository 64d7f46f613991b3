import Mathlib.Data.List.Nodup
import Mathlib.Data.List.Dedup
import Mathlib.Algebra.BigOperators.Group.Finset.Basic
import Mathlib.Algebra.BigOperators.Group.List.Basic
import Mathlib.Tactic.Abel

/-!
# Keyed tables

A relational table: a list of rows whose primary keys are pairwise distinct. Rows stay in the
order in which they were inserted, which is the order an unordered query returns them in.

`forRows` is the loop most transactions consist of: for each entry, lock the row with the entry's
key, decide, and write the row back. `forRows_spec` says what such a loop leaves behind when the
entries' keys are distinct, `forRows_rel` what it preserves when they are not. Two tables have the same sum when they
say the same of every key (`sum_eq_of_getD`), whichever rows one has and the other does not.
-/

namespace Relational

/-- The primary key of a row type. -/
class Keyed (ρ : Type) (κ : outParam Type) where
  key : ρ → κ

open Keyed

/-- Rows with pairwise distinct primary keys. -/
structure Table (ρ : Type) {κ : Type} [Keyed ρ κ] where
  rows : List ρ
  nodup : (rows.map key).Nodup

namespace Table

variable {ρ κ : Type} [Keyed ρ κ]

theorem ext {t t' : Table ρ} (h : t.rows = t'.rows) : t = t' := by
  cases t; cases t'; simp_all

instance [DecidableEq ρ] : DecidableEq (Table ρ) := fun t t' =>
  decidable_of_iff (t.rows = t'.rows) ⟨ext, fun h => h ▸ rfl⟩

def keys (t : Table ρ) : List κ := t.rows.map key

instance [DecidableEq κ] (k : κ) (t : Table ρ) : Decidable (k ∈ t.keys) :=
  decidable_of_iff (∃ r ∈ t.rows, key r = k) List.mem_map.symm

def empty : Table ρ := ⟨[], by simp⟩

/-- A query without a key: every row that matches, in table order. -/
def select (t : Table ρ) (p : ρ → Bool) : List ρ := t.rows.filter p

/-- `DELETE … WHERE p`. -/
def deleteWhere (t : Table ρ) (p : ρ → Bool) : Table ρ :=
  ⟨t.rows.filter fun r => !p r, t.nodup.sublist (List.filter_sublist.map key)⟩

/-- Rewrite every row, keys kept. -/
def mapRows (t : Table ρ) (f : ρ → ρ) (hf : ∀ r, key (f r) = key r) : Table ρ :=
  ⟨t.rows.map f, by
    rw [List.map_map, show key ∘ f = (key : ρ → κ) from funext hf]; exact t.nodup⟩

/-- `SELECT SUM(g) … WHERE p`, `0` over no rows. -/
def sum (t : Table ρ) (p : ρ → Bool) {M : Type} [AddCommMonoid M] (g : ρ → M) : M :=
  ((t.select p).map g).sum

/-- When a column changes in one row only, its sum changes by that row's difference. -/
theorem sum_of_single {t : Table ρ} {p : ρ → Bool} {M : Type} [AddCommGroup M] {g g' : ρ → M} {r : ρ}
    (hr : r ∈ t.rows) (hp : p r = true) (h : ∀ x ∈ t.rows, key x ≠ key r → g' x = g x) :
    t.sum p g' = t.sum p g + (g' r - g r) := by
  have key_unique : (t.rows.map key).Nodup := t.nodup
  simp only [sum, select]
  generalize t.rows = l at hr h key_unique
  induction l with
  | nil => simp at hr
  | cons x l ih =>
    simp only [List.map_cons, List.nodup_cons] at key_unique
    rcases List.mem_cons.1 hr with rfl | hr
    · have hrest : (l.filter p).map g' = (l.filter p).map g := List.map_congr_left fun y hy => by
        have hy := (List.mem_filter.1 hy).1
        exact h y (by simp [hy]) fun e => key_unique.1 (e ▸ List.mem_map_of_mem hy)
      simp only [List.filter_cons_of_pos hp, List.map_cons, List.sum_cons, hrest]
      abel
    · have hx : g' x = g x := h x (by simp) fun e => key_unique.1 (e ▸ List.mem_map_of_mem hr)
      have hl := ih hr (fun y hy => h y (by simp [hy])) key_unique.2
      by_cases hpx : p x = true
      · simp only [List.filter_cons_of_pos hpx, List.map_cons, List.sum_cons, hl, hx, add_assoc]
      · simp only [List.filter_cons_of_neg hpx, hl]

variable [DecidableEq κ]

/-- Look a row up by primary key. -/
def get? (t : Table ρ) (k : κ) : Option ρ := t.rows.find? fun r => decide (key r = k)

/-- `UPDATE`: replace the row that has `r`'s key; nothing if there is none. -/
def set (t : Table ρ) (r : ρ) : Table ρ :=
  ⟨t.rows.map fun x => if key x = key r then r else x, by
    have h : (key ∘ fun x => if key x = key r then r else x) = (key : ρ → κ) := by
      funext x; simp only [Function.comp]; split <;> simp_all
    rw [List.map_map, h]; exact t.nodup⟩

/-- `INSERT`: `none` on a duplicate key. -/
def insert (t : Table ρ) (r : ρ) : Option (Table ρ) :=
  if h : key r ∈ t.keys then none
  else some ⟨t.rows ++ [r], by
    rw [List.map_append]
    exact List.nodup_append.2 ⟨t.nodup, by simp, by
      intro a ha b hb e; simp at hb; exact h (by rw [← hb, ← e]; exact ha)⟩⟩

/-- Update the row with `r`'s key if there is one, else insert `r`. -/
def upsert (t : Table ρ) (r : ρ) : Table ρ := (t.insert r).getD (t.set r)

/-! ## Lookup -/

theorem get?_eq_some {t : Table ρ} {k : κ} {r : ρ} : t.get? k = some r ↔ r ∈ t.rows ∧ key r = k := by
  constructor
  · intro h
    exact ⟨List.mem_of_find?_eq_some h, by simpa using List.find?_some h⟩
  · rintro ⟨hr, rfl⟩
    cases h : t.get? (key r) with
    | none =>
      have := List.find?_eq_none.1 h r hr
      simp at this
    | some r' =>
      have hm := List.mem_of_find?_eq_some h
      have hk : key r' = key r := by simpa using List.find?_some h
      rw [List.inj_on_of_nodup_map t.nodup hm hr hk]

theorem get?_eq_none {t : Table ρ} {k : κ} : t.get? k = none ↔ k ∉ t.keys := by
  simp [get?, keys, List.find?_eq_none]

theorem get?_key {t : Table ρ} {r : ρ} (h : r ∈ t.rows) : t.get? (key r) = some r :=
  get?_eq_some.2 ⟨h, rfl⟩

theorem key_of_get? {t : Table ρ} {k : κ} {r : ρ} (h : t.get? k = some r) : key r = k :=
  (get?_eq_some.1 h).2

theorem mem_of_get? {t : Table ρ} {k : κ} {r : ρ} (h : t.get? k = some r) : r ∈ t.rows :=
  (get?_eq_some.1 h).1

@[simp] theorem keys_set (t : Table ρ) (r : ρ) : (t.set r).keys = t.keys := by
  simp only [keys, set, List.map_map]
  refine List.map_congr_left fun x _ => ?_
  simp only [Function.comp]; split <;> simp_all

theorem get?_set_self (t : Table ρ) (r : ρ) : (t.set r).get? (key r) = (t.get? (key r)).map fun _ => r := by
  cases h : t.get? (key r) with
  | none => rw [Option.map_none, get?_eq_none, keys_set]; exact get?_eq_none.1 h
  | some x =>
    refine get?_eq_some.2 ⟨?_, rfl⟩
    obtain ⟨hx, hk⟩ := get?_eq_some.1 h
    exact List.mem_map.2 ⟨x, hx, by simp [hk]⟩

theorem get?_set_of_ne {t : Table ρ} {r : ρ} {k : κ} (h : key r ≠ k) : (t.set r).get? k = t.get? k := by
  cases hx : t.get? k with
  | none => rw [get?_eq_none, keys_set]; exact get?_eq_none.1 hx
  | some x =>
    obtain ⟨hm, hk⟩ := get?_eq_some.1 hx
    refine get?_eq_some.2 ⟨List.mem_map.2 ⟨x, hm, ?_⟩, hk⟩
    rw [if_neg]; rw [hk]; exact fun e => h e.symm

theorem get?_set {t : Table ρ} {r : ρ} {k : κ} :
    (t.set r).get? k = if key r = k then (t.get? k).map fun _ => r else t.get? k := by
  split
  · subst k; exact get?_set_self t r
  · exact get?_set_of_ne ‹_›

/-- The row under a key after it was written. -/
theorem get?_set_of_get? {t : Table ρ} {r x : ρ} {k : κ} (hx : t.get? k = some x) (hk : key r = k) :
    (t.set r).get? k = some r := by
  rw [get?_set, if_pos hk, hx]
  rfl

/-- A row of a table that is another one rewritten key by key comes from the row under its key. -/
theorem exists_of_map {t t' : Table ρ} {f : κ → ρ → ρ} (h : ∀ k, t'.get? k = (t.get? k).map (f k)) {r : ρ} {k : κ}
    (hr : r ∈ t'.rows) (hk : key r = k) : ∃ r₀, t.get? k = some r₀ ∧ f k r₀ = r := by
  have hg := get?_key hr
  rw [hk, h] at hg
  exact Option.map_eq_some_iff.1 hg

theorem mem_set {t : Table ρ} {r x : ρ} (h : x ∈ (t.set r).rows) : x = r ∨ (x ∈ t.rows ∧ key x ≠ key r) := by
  obtain ⟨y, hy, rfl⟩ := List.mem_map.1 h
  by_cases hk : key y = key r <;> simp [hk, hy]

/-- An update that keeps a column of the row it replaces keeps the column of every row. -/
theorem get?_set_map {t : Table ρ} {r : ρ} {β : Type} {g : ρ → β} (h : ∀ x ∈ t.get? (key r), g x = g r) (k : κ) :
    ((t.set r).get? k).map g = (t.get? k).map g := by
  rw [get?_set]
  split
  · subst k
    cases hx : t.get? (key r) with
    | none => rfl
    | some x => exact congrArg some (h x hx).symm
  · rfl

theorem get?_foldl_set_map {α : Type} {f : α → ρ} {β : Type} {g : ρ → β} : ∀ {as : List α} {t : Table ρ},
    (∀ a ∈ as, (t.get? (key (f a))).map g = some (g (f a))) →
    ∀ k, ((as.foldl (fun t a => t.set (f a)) t).get? k).map g = (t.get? k).map g
  | [], _, _, _ => rfl
  | a :: as, t, h, k => by
    have hset : ∀ k, ((t.set (f a)).get? k).map g = (t.get? k).map g := get?_set_map fun x hx => by
      have := h a (by simp)
      rw [hx] at this
      exact Option.some.inj this
    rw [List.foldl_cons, get?_foldl_set_map (fun b hb => by rw [hset]; exact h b (by simp [hb])), hset]

theorem mem_foldl_set {α : Type} {f : α → ρ} : ∀ {as : List α} {t : Table ρ} {x : ρ},
    x ∈ (as.foldl (fun t a => t.set (f a)) t).rows → x ∈ t.rows ∨ ∃ a ∈ as, x = f a
  | [], _, _, h => .inl h
  | a :: as, t, x, h => by
    rw [List.foldl_cons] at h
    rcases mem_foldl_set h with h | ⟨b, hb, rfl⟩
    · rcases mem_set h with rfl | h
      · exact .inr ⟨a, by simp, rfl⟩
      · exact .inl h.1
    · exact .inr ⟨b, by simp [hb], rfl⟩

/-- A key that no entry has keeps its row. -/
theorem get?_foldl_set_of_notMem {α : Type} {f : α → ρ} {k : κ} : ∀ {as : List α} {t : Table ρ},
    k ∉ as.map (fun a => key (f a)) → (as.foldl (fun t a => t.set (f a)) t).get? k = t.get? k
  | [], _, _ => rfl
  | a :: as, t, h => by
    simp only [List.map_cons, List.mem_cons, not_or] at h
    rw [List.foldl_cons, get?_foldl_set_of_notMem h.2, get?_set, if_neg (Ne.symm h.1)]

/-- Of entries with distinct keys each is the row of its key. -/
theorem get?_foldl_set {α : Type} {f : α → ρ} {a : α} : ∀ {as : List α} {t : Table ρ},
    (as.map fun a => key (f a)).Nodup → a ∈ as → t.get? (key (f a)) ≠ none →
    (as.foldl (fun t a => t.set (f a)) t).get? (key (f a)) = some (f a)
  | b :: as, t, hn, ha, ht => by
    rw [List.map_cons, List.nodup_cons] at hn
    rw [List.foldl_cons]
    rcases List.mem_cons.1 ha with rfl | ha
    · obtain ⟨x, hx⟩ := Option.ne_none_iff_exists'.1 ht
      rw [get?_foldl_set_of_notMem hn.1]
      exact get?_set_of_get? hx rfl
    · refine get?_foldl_set hn.2 ha ?_
      rw [get?_set]
      split
      · simpa using ht
      · exact ht

theorem insert_eq_some {t t' : Table ρ} {r : ρ} :
    t.insert r = some t' ↔ key r ∉ t.keys ∧ t'.rows = t.rows ++ [r] := by
  unfold insert
  split
  · simp_all
  · rename_i h
    simp only [Option.some.injEq]
    exact ⟨fun e => e ▸ ⟨h, rfl⟩, fun e => ext e.2.symm⟩

theorem get?_insert {t t' : Table ρ} {r : ρ} (h : t.insert r = some t') (k : κ) :
    t'.get? k = if key r = k then some r else t.get? k := by
  obtain ⟨hk, hr⟩ := insert_eq_some.1 h
  simp only [get?, hr, List.find?_append]
  by_cases e : key r = k
  · subst e
    have : t.get? (key r) = none := get?_eq_none.2 hk
    simp only [get?] at this
    simp [this]
  · simp [e]

theorem get?_upsert {t : Table ρ} {r : ρ} {k : κ} :
    (t.upsert r).get? k = if key r = k then some r else t.get? k := by
  unfold upsert
  cases h : t.insert r with
  | some t' => exact get?_insert h k
  | none =>
    have hk : key r ∈ t.keys := by
      unfold insert at h; split at h
      · assumption
      · cases h
    rw [Option.getD_none, get?_set]
    split
    · subst k
      cases hg : t.get? (key r) with
      | none => exact absurd hk (get?_eq_none.1 hg)
      | some _ => rfl
    · rfl

/-- Writing a row that has `g` as it was, or a new one that has nothing. -/
theorem getD_upsert {M : Type} [Zero M] {t : Table ρ} {g : ρ → M} (r r' : ρ)
    (hr : t.get? (key r) = some r ∨ t.get? (key r) = none ∧ g r = 0) (hk : key r' = key r) (hg : g r' = g r) (k : κ) :
    (((t.upsert r').get? k).map g).getD 0 = ((t.get? k).map g).getD 0 := by
  rw [get?_upsert, hk]
  split_ifs with hkey
  · subst hkey
    rcases hr with h | ⟨h, hzero⟩
    · rw [h, Option.map_some, Option.map_some, Option.getD_some, Option.getD_some, hg]
    · rw [h, Option.map_some, Option.map_none, Option.getD_some, Option.getD_none, hg, hzero]
  · rfl

/-- Row after row: the last one written under a key stays. -/
theorem get?_foldl_upsert {α : Type} {f : α → ρ} (as : List α) (t : Table ρ) (k : κ) :
    (as.foldl (fun t a => t.upsert (f a)) t).get? k =
      ((as.filter fun a => decide (key (f a) = k)).getLast?).elim (t.get? k) fun a => some (f a) := by
  induction as generalizing t with
  | nil => rfl
  | cons a as ih =>
    rw [List.foldl_cons, ih, get?_upsert]
    by_cases hk : key (f a) = k
    · rw [List.filter_cons_of_pos (by simpa using hk), List.getLast?_cons, if_pos hk]
      cases (as.filter fun a => decide (key (f a) = k)).getLast? <;> rfl
    · rw [List.filter_cons_of_neg (by simpa using hk), if_neg hk]

theorem mem_upsert {t : Table ρ} {r x : ρ} (h : x ∈ (t.upsert r).rows) : x = r ∨ x ∈ t.rows := by
  have hg : (t.upsert r).get? (key x) = some x := get?_key h
  rw [get?_upsert] at hg
  by_cases hk : key r = key x
  · rw [if_pos hk] at hg
    exact .inl (Option.some.inj hg).symm
  · rw [if_neg hk] at hg
    exact .inr (mem_of_get? hg)

theorem get?_deleteWhere {t : Table ρ} {p : ρ → Bool} {k : κ} :
    (t.deleteWhere p).get? k = (t.get? k).filter fun r => !p r := by
  cases hx : t.get? k with
  | none =>
    rw [Option.filter_none, get?_eq_none]
    intro hm
    obtain ⟨r, hr, hk⟩ := List.mem_map.1 hm
    exact get?_eq_none.1 hx (List.mem_map.2 ⟨r, (List.mem_filter.1 hr).1, hk⟩)
  | some x =>
    obtain ⟨hm, hk⟩ := get?_eq_some.1 hx
    by_cases hp : p x
    · rw [Option.filter_some, if_neg (by simp [hp]), get?_eq_none]
      intro hm'
      obtain ⟨r, hr, hk'⟩ := List.mem_map.1 hm'
      obtain ⟨hr, hpr⟩ := List.mem_filter.1 hr
      rw [List.inj_on_of_nodup_map t.nodup hr hm (hk'.trans hk.symm)] at hpr
      simp [hp] at hpr
    · rw [Option.filter_some, if_pos (by simp [hp])]
      exact get?_eq_some.2 ⟨List.mem_filter.2 ⟨hm, by simp [hp]⟩, hk⟩

theorem get?_mapRows {t : Table ρ} {f : ρ → ρ} {hf : ∀ r, key (f r) = key r} {k : κ} :
    (t.mapRows f hf).get? k = (t.get? k).map f := by
  simp only [get?, mapRows, List.find?_map]
  congr 2
  funext r
  simp [hf]

/-- A column no row has changed in. -/
theorem map_get?_mapRows {t : Table ρ} {f : ρ → ρ} {hf : ∀ r, key (f r) = key r} {β : Type} {g : ρ → β}
    (hg : ∀ r, g (f r) = g r) (k : κ) : ((t.mapRows f hf).get? k).map g = (t.get? k).map g := by
  rw [get?_mapRows, Option.map_map]
  congr 1
  funext r
  exact hg r

omit [DecidableEq κ] in
/-- What leaves a table as it is leaves its rows as they are. -/
theorem eq_of_mapRows {t : Table ρ} {f : ρ → ρ} (hf : ∀ r, key (f r) = key r) (h : t.mapRows f hf = t) :
    ∀ r ∈ t.rows, f r = r :=
  List.map_inj_left.1 ((congrArg rows h).trans (List.map_id _).symm)

/-- `INSERT` row by row; `none` if one of them fails. -/
def insertAll : List ρ → Table ρ → Option (Table ρ)
  | [], t => some t
  | r :: rs, t => (t.insert r).bind fun t => insertAll rs t

theorem keys_insert {t t' : Table ρ} {r : ρ} (h : t.insert r = some t') : t'.keys = t.keys ++ [key r] := by
  simp only [keys, (insert_eq_some.1 h).2, List.map_append, List.map_cons, List.map_nil]

theorem mem_keys_insertAll {k : κ} : ∀ {rs : List ρ} {t t' : Table ρ}, insertAll rs t = some t' →
    (k ∈ t'.keys ↔ k ∈ t.keys ∨ k ∈ rs.map key)
  | [], _, _, h => by cases h; simp
  | r :: rs, t, t', h => by
    obtain ⟨t₁, h₁, h⟩ := Option.bind_eq_some_iff.1 h
    rw [mem_keys_insertAll h, keys_insert h₁]
    simp only [List.mem_append, List.map_cons, List.mem_cons, List.not_mem_nil, or_false, or_assoc]

theorem rows_insertAll : ∀ {rs : List ρ} {t t' : Table ρ}, insertAll rs t = some t' → t'.rows = t.rows ++ rs
  | [], _, _, h => by cases h; exact (List.append_nil _).symm
  | r :: rs, t, t', h => by
    obtain ⟨t₁, h₁, h⟩ := Option.bind_eq_some_iff.1 h
    rw [rows_insertAll h, (insert_eq_some.1 h₁).2, List.append_assoc, List.singleton_append]

/-- New keys, each once, can be inserted. -/
theorem exists_insertAll : ∀ {rs : List ρ} {t : Table ρ}, (rs.map key).Nodup → (∀ r ∈ rs, key r ∉ t.keys) →
    ∃ t', insertAll rs t = some t'
  | [], t, _, _ => ⟨t, rfl⟩
  | r :: rs, t, hn, hnew => by
    rw [List.map_cons, List.nodup_cons] at hn
    obtain ⟨t₁, h₁⟩ : ∃ t₁, t.insert r = some t₁ := by
      unfold insert
      rw [dif_neg (hnew r List.mem_cons_self)]
      exact ⟨_, rfl⟩
    obtain ⟨t', h'⟩ := exists_insertAll hn.2 (t := t₁) fun r' hr' hk => by
      rw [keys_insert h₁, List.mem_append, List.mem_singleton] at hk
      rcases hk with hk | hk
      · exact hnew r' (List.mem_cons_of_mem r hr') hk
      · exact hn.1 (hk ▸ List.mem_map_of_mem hr')
    exact ⟨t', Option.bind_eq_some_iff.2 ⟨t₁, h₁, h'⟩⟩

omit [DecidableEq κ] in
theorem mem_keys_deleteWhere {t : Table ρ} {p : ρ → Bool} {k : κ} :
    k ∈ (t.deleteWhere p).keys ↔ ∃ r ∈ t.rows, p r = false ∧ key r = k := by
  simp only [keys, deleteWhere, List.mem_map, List.mem_filter, Bool.not_eq_true', and_assoc]

/-- A query does not see a row replaced outside of it. -/
theorem select_set {t : Table ρ} {r : ρ} {p : ρ → Bool} (hp : p r = false) (hold : ∀ x ∈ t.get? (key r), p x = false) :
    (t.set r).select p = t.select p := by
  have hrow : ∀ x ∈ t.rows, (if key x = key r then r else x) = x ∨
      (p (if key x = key r then r else x) = false ∧ p x = false) := by
    intro x hx
    by_cases hk : key x = key r
    · refine .inr ⟨by rw [if_pos hk]; exact hp, hold x ?_⟩
      rw [← hk]
      exact get?_key hx
    · exact .inl (if_neg hk)
  simp only [select, set]
  generalize t.rows = l at hrow
  induction l with
  | nil => rfl
  | cons x l ih =>
    have htail := ih fun y hy => hrow y (List.mem_cons_of_mem _ hy)
    rw [List.map_cons]
    rcases hrow x (by simp) with he | ⟨h1, h2⟩
    · rw [he, List.filter_cons, List.filter_cons, htail]
    · rw [List.filter_cons_of_neg (by simp [h1]), List.filter_cons_of_neg (by simp [h2]), htail]

theorem select_insert {t t' : Table ρ} {r : ρ} {p : ρ → Bool} (h : t.insert r = some t') (hp : p r = false) :
    t'.select p = t.select p := by
  simp [select, (insert_eq_some.1 h).2, hp]

theorem select_upsert {t : Table ρ} {r : ρ} {p : ρ → Bool} (hp : p r = false)
    (hold : ∀ x ∈ t.get? (key r), p x = false) : (t.upsert r).select p = t.select p := by
  unfold upsert
  cases h : t.insert r with
  | some t' => exact select_insert h hp
  | none => exact select_set hp hold

omit [DecidableEq κ] in
theorem select_deleteWhere {t : Table ρ} {p q : ρ → Bool} (h : ∀ x, p x = true → q x = false) :
    (t.deleteWhere q).select p = t.select p := by
  simp only [select, deleteWhere, List.filter_filter]
  refine List.filter_congr fun x _ => ?_
  cases hp : p x with
  | false => rfl
  | true => simp [h x hp]

/-! ## Same keys, other values -/

/-- Tables with the same keys in the same order hold corresponding rows. -/
theorem rows_eq_map {t t' : Table ρ} (h : t'.keys = t.keys) :
    t'.rows = t.rows.map fun r => (t'.get? (key r)).getD r := by
  have hlen : t'.rows.length = t.rows.length := by simpa [keys] using congrArg List.length h
  refine List.ext_getElem (by simpa using hlen) fun i h1 h2 => ?_
  have hi : i < t.rows.length := hlen ▸ h1
  have hk : key t'.rows[i] = key t.rows[i] := by
    have e := congrArg (fun l : List κ => l[i]?) h
    simpa [keys, h1, hi] using e
  rw [List.getElem_map, ← hk, get?_key (List.getElem_mem h1), Option.getD_some]

/-- Tables with the same keys in the same order and the same row under each are the same. -/
theorem eq_of_get? {t t' : Table ρ} (hk : t'.keys = t.keys) (h : ∀ k, t'.get? k = t.get? k) : t' = t := by
  apply ext
  rw [rows_eq_map hk]
  conv_rhs => rw [← List.map_id t.rows]
  refine List.map_congr_left fun r hr => ?_
  rw [h, get?_key hr]
  rfl

/-- A sum only reads, row by row, the filter and the column. -/
theorem sum_congr {t t' : Table ρ} {p p' : ρ → Bool} {M : Type} [AddCommMonoid M] {g g' : ρ → M}
    (h : t'.keys = t.keys)
    (hp : ∀ k r r', t.get? k = some r → t'.get? k = some r' → p' r' = p r ∧ (p r = true → g' r' = g r)) :
    t'.sum p' g' = t.sum p g := by
  simp only [sum, select]
  rw [rows_eq_map h, List.filter_map, List.map_map]
  have hrow : ∀ r ∈ t.rows, ∃ r', t'.get? (key r) = some r' := fun r hr => by
    cases hg : t'.get? (key r) with
    | some r' => exact ⟨r', rfl⟩
    | none =>
      refine absurd (?_ : key r ∈ t'.keys) (get?_eq_none.1 hg)
      rw [h]; exact List.mem_map.2 ⟨r, hr, rfl⟩
  have hfil : t.rows.filter (p' ∘ fun r => (t'.get? (key r)).getD r) = t.rows.filter p := by
    refine List.filter_congr fun r hr => ?_
    obtain ⟨r', hr'⟩ := hrow r hr
    simp [hr', (hp _ r r' (get?_key hr) hr').1]
  rw [hfil]
  congr 1
  refine List.map_congr_left fun r hr => ?_
  obtain ⟨hr, hpr⟩ := List.mem_filter.1 hr
  obtain ⟨r', hr'⟩ := hrow r hr
  simpa [hr'] using (hp _ r r' (get?_key hr) hr').2 hpr

theorem sum_insert {t t' : Table ρ} {r : ρ} (h : t.insert r = some t') {p : ρ → Bool} {M : Type}
    [AddCommMonoid M] (g : ρ → M) : t'.sum p g = t.sum p g + if p r then g r else 0 := by
  simp only [sum, select, (insert_eq_some.1 h).2, List.filter_append, List.map_append, List.sum_append]
  cases hp : p r <;> simp [hp]

/-- Replacing a row moves a sum by the difference of the two rows' contributions. -/
theorem sum_set {t : Table ρ} {r r' : ρ} (hr : r ∈ t.rows) (hk : key r' = key r) {p : ρ → Bool} {M : Type}
    [AddCommGroup M] (g : ρ → M) :
    (t.set r').sum p g = t.sum p g + ((if p r' then g r' else 0) - if p r then g r else 0) := by
  have hcontrib : ∀ t : Table ρ, t.sum p g = t.sum (fun _ => true) fun x => if p x then g x else 0 := by
    intro t
    simp only [sum, select]
    induction t.rows with
    | nil => rfl
    | cons x l ih => by_cases hp : p x <;> simp_all
  have hset : (t.set r').sum (fun _ => true) (fun x => if p x then g x else 0) =
      t.sum (fun _ => true) fun x => if key x = key r then (if p r' then g r' else 0) else if p x then g x else 0 := by
    simp only [sum, select, set, List.filter_true, List.map_map, hk]
    congr 1
    refine List.map_congr_left fun x _ => ?_
    by_cases hx : key x = key r <;> simp [hx]
  rw [hcontrib, hset, hcontrib t, sum_of_single hr rfl fun x _ hx => if_neg hx, if_pos rfl]

/-- A sum is one row's part and the rest. -/
theorem sum_eq_rest_add {t : Table ρ} {p q : ρ → Bool} {M : Type} [AddCommGroup M] {g : ρ → M} {r : ρ}
    (hr : r ∈ t.rows) (hp : p r = true) (hq : ∀ x, q x = (p x && !decide (key x = key r))) :
    t.sum p g = t.sum q g + g r := by
  have hrest : t.sum q g = t.sum p fun x => if key x = key r then 0 else g x := by
    simp only [sum, select]
    induction t.rows with
    | nil => rfl
    | cons x l ih => by_cases hpx : p x <;> by_cases hk : key x = key r <;> simp [hq, hpx, hk, ih]
  rw [hrest, sum_of_single hr hp (g := fun x => if key x = key r then 0 else g x) fun x _ hx => (if_neg hx).symm,
    if_pos rfl, sub_zero]

omit [DecidableEq κ] in
/-- Deleting rows that count nothing leaves a sum as it is. -/
theorem sum_deleteWhere {t : Table ρ} {p q : ρ → Bool} {M : Type} [AddCommMonoid M] {g : ρ → M}
    (h : ∀ r ∈ t.rows, q r = true → g r = 0) : (t.deleteWhere q).sum p g = t.sum p g := by
  simp only [sum, select, deleteWhere, List.filter_filter]
  generalize t.rows = l at h
  induction l with
  | nil => rfl
  | cons r l ih =>
    have htail := ih fun x hx => h x (List.mem_cons_of_mem _ hx)
    by_cases hq : q r = true
    · have hzero : g r = 0 := h r List.mem_cons_self hq
      by_cases hp : p r = true <;> simp [hq, hp, hzero, htail]
    · by_cases hp : p r = true <;> simp [hq, hp, htail]

omit [DecidableEq κ] in
theorem sum_mapRows {t : Table ρ} {f : ρ → ρ} (hf : ∀ r, key (f r) = key r) {p : ρ → Bool} {M : Type}
    [AddCommMonoid M] (g : ρ → M) : (t.mapRows f hf).sum p g = t.sum (fun r => p (f r)) fun r => g (f r) := by
  simp only [sum, select, mapRows, List.filter_map, List.map_map]
  rfl

/-- Writing a row over an old one moves a sum by the difference, writing a new one by all it counts. -/
theorem sum_upsert (t : Table ρ) (r : ρ) {p : ρ → Bool} {M : Type} [AddCommGroup M] (g : ρ → M) :
    (t.upsert r).sum p g = t.sum p g +
      ((if p r then g r else 0) - ((t.get? (key r)).map fun x => if p x then g x else 0).getD 0) := by
  unfold upsert
  cases hi : t.insert r with
  | some t' =>
    have hnew : t.get? (key r) = none := get?_eq_none.2 (insert_eq_some.1 hi).1
    rw [Option.getD_some, sum_insert hi, hnew, Option.map_none, Option.getD_none, sub_zero]
  | none =>
    have hk : key r ∈ t.keys := by
      unfold insert at hi
      split at hi
      · assumption
      · cases hi
    obtain ⟨x, hx⟩ := Option.ne_none_iff_exists'.1 fun hn => get?_eq_none.1 hn hk
    rw [Option.getD_none, hx, Option.map_some, Option.getD_some, sum_set (mem_of_get? hx) (key_of_get? hx).symm]

/-- **Adding to a row**, one that is there or one that starts from nothing, moves a sum by what is added. -/
theorem sum_upsert_add {t : Table ρ} {b r : ρ} {p : ρ → Bool} {M : Type} [AddCommGroup M] {g : ρ → M} {d : M}
    (hb : t.get? (key b) = some b ∨ t.get? (key b) = none ∧ g b = 0) (hk : key r = key b) (hp : p r = p b)
    (hg : g r = g b + d) : (t.upsert r).sum p g = t.sum p g + if p b then d else 0 := by
  rw [sum_upsert, hk, hp, hg]
  rcases hb with h | ⟨h, hzero⟩
  · rw [h, Option.map_some, Option.getD_some]
    cases p b <;> simp
  · rw [h, Option.map_none, Option.getD_none, sub_zero, hzero, zero_add]

/-! ## The row loop -/

section
variable {α ε : Type}

/-- `for a in as: row = lock(k a); …; row.… = …`. The body `f` sees the row the entry's key
selects (`none` when there is none) and raises, skips (`none`) or writes a new row back. -/
def forRows (k : α → κ) (f : α → Option ρ → Except ε (Option ρ)) : List α → Table ρ → Except ε (Table ρ)
  | [], t => .ok t
  | a :: as, t =>
    match f a (t.get? (k a)) with
    | .error e => .error e
    | .ok none => forRows k f as t
    | .ok (some r) => forRows k f as (t.set r)

theorem forRows_entries {β : Type} {g : β → α} {k : α → κ} {f : α → Option ρ → Except ε (Option ρ)} {k' : β → κ}
    {f' : β → Option ρ → Except ε (Option ρ)} (hk : ∀ b, k (g b) = k' b) (hf : ∀ b, f (g b) = f' b) :
    ∀ (bs : List β) (t : Table ρ), forRows k f (bs.map g) t = forRows k' f' bs t
  | [], _ => rfl
  | b :: bs, t => by
    simp only [List.map_cons, forRows, hk, hf, forRows_entries hk hf bs]

/-- Entries whose body skips every row make no difference. -/
theorem forRows_filter {k : α → κ} {f : α → Option ρ → Except ε (Option ρ)} {p : α → Bool}
    (h : ∀ a, p a = false → ∀ o, f a o = .ok none) :
    ∀ (as : List α) (t : Table ρ), forRows k f (as.filter p) t = forRows k f as t
  | [], _ => rfl
  | a :: as, t => by
    cases hp : p a with
    | false => rw [List.filter_cons_of_neg (by simp [hp]), forRows_filter h as, forRows, h a hp]
    | true => simp only [List.filter_cons_of_pos hp, forRows, forRows_filter h as]

/-- What the iterations of the loop saw, in order, up to the first that raised. -/
def seen (k : α → κ) (f : α → Option ρ → Except ε (Option ρ)) : List α → Table ρ → List (α × Option ρ)
  | [], _ => []
  | a :: as, t => (a, t.get? (k a)) ::
    match f a (t.get? (k a)) with
    | .error _ => []
    | .ok none => seen k f as t
    | .ok (some r) => seen k f as (t.set r)

variable {k : α → κ} {f : α → Option ρ → Except ε (Option ρ)}

/-- The body writes back the row it locked: the key stays. -/
def WritesOwn (k : α → κ) (f : α → Option ρ → Except ε (Option ρ)) : Prop :=
  ∀ a o r, (∀ x ∈ o, key x = k a) → f a o = .ok (some r) → key r = k a

theorem WritesOwn.key_eq (hw : WritesOwn k f) {t : Table ρ} {a : α} {r : ρ}
    (h : f a (t.get? (k a)) = .ok (some r)) : key r = k a :=
  hw a _ r (fun _ hx => key_of_get? hx) h

/-- The row a body leaves under its key. -/
def left (o : Option ρ) : Option ρ → Option ρ
  | none => o
  | some r => o.map fun _ => r

theorem forRows_keys : ∀ {as : List α} {t t' : Table ρ}, forRows k f as t = .ok t' → t'.keys = t.keys
  | [], _, _, h => by cases h; rfl
  | a :: as, t, t', h => by
    unfold forRows at h
    split at h
    · cases h
    · exact forRows_keys h
    · rw [forRows_keys h, keys_set]

/-- A row whose key no entry carries is left alone. -/
theorem forRows_other (hw : WritesOwn k f) {x : κ} :
    ∀ {as : List α} {t t' : Table ρ}, forRows k f as t = .ok t' → x ∉ as.map k → t'.get? x = t.get? x
  | [], _, _, h, _ => by cases h; rfl
  | a :: as, t, t', h, hx => by
    simp only [List.map_cons, List.mem_cons, not_or] at hx
    unfold forRows at h
    split at h
    · cases h
    · exact forRows_other hw h hx.2
    · rename_i r hr
      rw [forRows_other hw h hx.2, get?_set_of_ne (by rw [hw.key_eq hr]; exact Ne.symm hx.1)]

/-- **The loop over distinct keys** decides every entry on the row that was there before the loop,
and leaves under its key what the body wrote. -/
theorem forRows_spec (hw : WritesOwn k f) :
    ∀ {as : List α} {t t' : Table ρ}, forRows k f as t = .ok t' → (as.map k).Nodup →
      ∀ a ∈ as, ∃ o, f a (t.get? (k a)) = .ok o ∧ t'.get? (k a) = left (t.get? (k a)) o
  | [], _, _, _, _, a, ha => by simp at ha
  | b :: as, t, t', h, hn, a, ha => by
    simp only [List.map_cons, List.nodup_cons] at hn
    unfold forRows at h
    split at h
    · cases h
    · rename_i hb
      rcases List.mem_cons.1 ha with rfl | ha
      · exact ⟨none, hb, forRows_other hw h hn.1⟩
      · exact forRows_spec hw h hn.2 a ha
    · rename_i r hr
      have hk := hw.key_eq hr
      rcases List.mem_cons.1 ha with rfl | ha
      · exact ⟨some r, hr, by rw [forRows_other hw h hn.1, ← hk, get?_set_self, left]⟩
      · have hne : key r ≠ k a := fun e => hn.1 (hk ▸ e ▸ List.mem_map_of_mem ha)
        simpa [get?_set_of_ne hne] using forRows_spec hw h hn.2 a ha

/-- The row under `x` after a loop over distinct keys: untouched, or what the entry for `x` made of it. -/
theorem forRows_get? (hw : WritesOwn k f) {as : List α} {t t' : Table ρ} (h : forRows k f as t = .ok t')
    (hn : (as.map k).Nodup) (x : κ) :
    (x ∉ as.map k ∧ t'.get? x = t.get? x) ∨
    ∃ a ∈ as, k a = x ∧ ∃ o, f a (t.get? x) = .ok o ∧ t'.get? x = left (t.get? x) o := by
  by_cases hx : x ∈ as.map k
  · obtain ⟨a, ha, rfl⟩ := List.mem_map.1 hx
    exact .inr ⟨a, ha, rfl, forRows_spec hw h hn a ha⟩
  · exact .inl ⟨hx, forRows_other hw h hx⟩

/-- A loop over distinct keys succeeds when every body succeeds on the table before the loop. -/
theorem forRows_ok (hw : WritesOwn k f) :
    ∀ {as : List α} {t : Table ρ}, (as.map k).Nodup → (∀ a ∈ as, ∃ o, f a (t.get? (k a)) = .ok o) →
      ∃ t', forRows k f as t = .ok t'
  | [], t, _, _ => ⟨t, rfl⟩
  | b :: as, t, hn, hall => by
    simp only [List.map_cons, List.nodup_cons] at hn
    obtain ⟨o, ho⟩ := hall b (by simp)
    unfold forRows
    cases o with
    | none => simp only [ho]; exact forRows_ok hw hn.2 fun a ha => hall a (by simp [ha])
    | some r =>
      simp only [ho]
      refine forRows_ok hw hn.2 fun a ha => ?_
      have hne : key r ≠ k a := fun e => hn.1 (hw.key_eq ho ▸ e ▸ List.mem_map_of_mem ha)
      rw [get?_set_of_ne hne]
      exact hall a (by simp [ha])

/-- A loop over distinct keys that raises raises what one of its bodies raises on the table before the loop. -/
theorem forRows_error (hw : WritesOwn k f) {e : ε} :
    ∀ {as : List α} {t : Table ρ}, (as.map k).Nodup → forRows k f as t = .error e →
      ∃ a ∈ as, f a (t.get? (k a)) = .error e
  | [], _, _, h => by cases h
  | b :: as, t, hn, h => by
    simp only [List.map_cons, List.nodup_cons] at hn
    unfold forRows at h
    split at h
    · cases h
      exact ⟨b, by simp, ‹_›⟩
    · obtain ⟨a, ha, he⟩ := forRows_error hw hn.2 h
      exact ⟨a, by simp [ha], he⟩
    · rename_i r hr
      obtain ⟨a, ha, he⟩ := forRows_error hw hn.2 h
      have hne : key r ≠ k a := fun e => hn.1 (hw.key_eq hr ▸ e ▸ List.mem_map_of_mem ha)
      exact ⟨a, by simp [ha], by rwa [get?_set_of_ne hne] at he⟩

/-- What every iteration of a loop over distinct keys saw is the row from before the loop. -/
theorem seen_eq (hw : WritesOwn k f) :
    ∀ {as : List α} {t : Table ρ}, (as.map k).Nodup → ∀ p ∈ seen k f as t, p.1 ∈ as ∧ p.2 = t.get? (k p.1)
  | [], _, _, p, hp => by simp [seen] at hp
  | b :: as, t, hn, p, hp => by
    simp only [List.map_cons, List.nodup_cons] at hn
    simp only [seen, List.mem_cons] at hp
    rcases hp with rfl | hp
    · exact ⟨by simp, rfl⟩
    · split at hp
      · simp at hp
      · obtain ⟨h1, h2⟩ := seen_eq hw hn.2 p hp
        exact ⟨by simp [h1], h2⟩
      · rename_i r hr
        obtain ⟨h1, h2⟩ := seen_eq hw hn.2 p hp
        have hne : key r ≠ k p.1 := fun e => hn.1 (hw.key_eq hr ▸ e ▸ List.mem_map_of_mem h1)
        exact ⟨by simp [h1], by rw [h2, get?_set_of_ne hne]⟩

/-- A column no body changes stays, repeated keys included. -/
theorem forRows_map (hw : WritesOwn k f) {β : Type} {g : ρ → β}
    (hg : ∀ a o r, f a o = .ok (some r) → ∀ x ∈ o, g x = g r) :
    ∀ {as : List α} {t t' : Table ρ}, forRows k f as t = .ok t' → ∀ x, (t'.get? x).map g = (t.get? x).map g
  | [], _, _, h, _ => by cases h; rfl
  | a :: as, t, t', h, x => by
    unfold forRows at h
    split at h
    · cases h
    · exact forRows_map hw hg h x
    · rename_i r hr
      rw [forRows_map hw hg h, get?_set_map (g := g) (by rw [hw.key_eq hr]; exact hg a _ r hr)]

/-- **A loop with a running total**: if every body finds a row and adds `d a` to its column, on the rows
`p` selects for the entries `c` selects, the loop adds up the `d a`. -/
theorem forRows_sum (hw : WritesOwn k f) {p : ρ → Bool} {c : α → Bool} {M : Type} [AddCommGroup M]
    {g : ρ → M} {d : α → M}
    (hf : ∀ a o w, (∀ x ∈ o, key x = k a) → f a o = .ok w →
      ∃ r r', o = some r ∧ w = some r' ∧ p r = c a ∧ p r' = c a ∧ g r' = g r + d a) :
    ∀ {as : List α} {t t' : Table ρ}, forRows k f as t = .ok t' →
      t'.sum p g = t.sum p g + ((as.filter c).map d).sum
  | [], t, _, h => by cases h; simp
  | a :: as, t, t', h => by
    unfold forRows at h
    split at h
    · cases h
    · rename_i ha
      obtain ⟨_, _, -, hnone, -⟩ := hf a _ _ (fun _ hx => key_of_get? hx) ha
      cases hnone
    · rename_i w ha
      obtain ⟨r, r', hr, hr', hp, hp', hg⟩ := hf a _ _ (fun _ hx => key_of_get? hx) ha
      cases hr'
      have hk : key w = key r := (hw.key_eq ha).trans (key_of_get? hr).symm
      rw [forRows_sum hw hf h, sum_set (mem_of_get? hr) hk, hp, hp', hg]
      cases hs : c a
      · simp [hs]
      · simp only [if_true, List.filter_cons_of_pos hs, List.map_cons, List.sum_cons]
        abel

/-- An entry on which the body raises for a missing row had a row before the loop. -/
theorem forRows_found (hf : ∀ a, f a none = .ok none → False) (hf' : ∀ a r, f a none ≠ .ok (some r)) :
    ∀ {as : List α} {t t' : Table ρ}, forRows k f as t = .ok t' → ∀ a ∈ as, ∃ r, t.get? (k a) = some r
  | [], _, _, _, a, ha => by simp at ha
  | b :: as, t, t', h, a, ha => by
    unfold forRows at h
    have hb : ∃ r, t.get? (k b) = some r := by
      cases hg : t.get? (k b) with
      | some r => exact ⟨r, rfl⟩
      | none =>
        rw [hg] at h
        split at h
        · cases h
        · exact (hf b ‹_›).elim
        · exact (hf' b _ ‹_›).elim
    rcases List.mem_cons.1 ha with rfl | ha
    · exact hb
    · split at h
      · cases h
      · exact forRows_found hf hf' h a ha
      · obtain ⟨r, hr⟩ := forRows_found hf hf' h a ha
        cases hg : t.get? (k a) with
        | some r => exact ⟨r, rfl⟩
        | none =>
          have := get?_eq_none.1 hg
          exact absurd (mem_of_get? hr) fun hm => this (by
            rw [← keys_set t]; exact List.mem_map.2 ⟨r, hm, key_of_get? hr⟩)

end

/-! ## Loops that take from a column -/

section
variable {α ε M : Type} [AddCommGroup M] [LE M] {k : α → κ} {q : α → M} {col : ρ → M} {upd : M → ρ → ρ}
  {f : α → Option ρ → Except ε (Option ρ)}

/-- The body takes `q a` out of the column `col` of a row that has as much, and raises on any other. -/
structure Takes (q : α → M) (col : ρ → M) (upd : M → ρ → ρ) (f : α → Option ρ → Except ε (Option ρ)) : Prop where
  ok_iff : ∀ a o w, f a o = .ok w ↔ ∃ r, o = some r ∧ q a ≤ col r ∧ w = some (upd (q a) r)
  key_upd : ∀ x r, key (upd x r) = key r
  col_upd : ∀ x r, col (upd x r) = col r - x
  upd_zero : ∀ r, upd 0 r = r

omit [DecidableEq κ] in
theorem Takes.of_ite {M : Type} [AddCommGroup M] [LinearOrder M] {q : α → M} {col : ρ → M} {upd : M → ρ → ρ}
    {missing : α → ε} {short : α → ρ → ε} (hnone : ∀ a, f a none = .error (missing a))
    (hsome : ∀ a r, f a (some r) = if col r < q a then .error (short a r) else .ok (some (upd (q a) r)))
    (hkey : ∀ x r, key (upd x r) = key r) (hcol : ∀ x r, col (upd x r) = col r - x) (hzero : ∀ r, upd 0 r = r) :
    Takes q col upd f := by
  refine ⟨fun a o w => ?_, hkey, hcol, hzero⟩
  cases o with
  | none => simp [hnone]
  | some r =>
    simp only [hsome, Option.some.injEq, exists_eq_left']
    split
    · simp [*]
    · simp [not_lt.1 ‹_›, eq_comm]

omit [DecidableEq κ] in
theorem Takes.writesOwn (h : Takes q col upd f) : WritesOwn k f := by
  intro a o r ho hf
  obtain ⟨r₀, rfl, -, e⟩ := (h.ok_iff a o _).1 hf
  cases e
  rw [h.key_upd]
  exact ho r₀ rfl

/-- Over distinct keys the loop takes `x k` from every row. -/
theorem Takes.ok (h : Takes q col upd f) {as : List α} {t t' : Table ρ} (hn : (as.map k).Nodup) {x : κ → M}
    (hx : ∀ a ∈ as, q a = x (k a)) (hx0 : ∀ y, y ∉ as.map k → x y = 0) (hf : forRows k f as t = .ok t') (y : κ) :
    t'.get? y = (t.get? y).map (upd (x y)) := by
  rcases forRows_get? h.writesOwn hf hn y with ⟨hy, hg⟩ | ⟨a, ha, rfl, o, ho, hg⟩
  · rw [hg, hx0 y hy, show upd 0 = (id : ρ → ρ) from funext h.upd_zero, Option.map_id]
    rfl
  · obtain ⟨r, hr, -, rfl⟩ := (h.ok_iff a _ _).1 ho
    rw [hg, hr, hx a ha]
    rfl

/-- Over distinct keys the loop goes through when every row has what is taken from it. -/
theorem Takes.run (h : Takes q col upd f) {as : List α} {t : Table ρ} (hn : (as.map k).Nodup) {x : κ → M}
    (hx : ∀ a ∈ as, q a = x (k a)) (hx0 : ∀ y, y ∉ as.map k → x y = 0)
    (hall : ∀ a ∈ as, ∃ r, t.get? (k a) = some r ∧ q a ≤ col r) :
    ∃ t', forRows k f as t = .ok t' ∧ ∀ y, t'.get? y = (t.get? y).map (upd (x y)) := by
  have hw : WritesOwn k f := h.writesOwn
  obtain ⟨t', ht'⟩ := forRows_ok hw hn fun a ha => by
    obtain ⟨r, hr, hq⟩ := hall a ha
    exact ⟨_, (h.ok_iff a _ _).2 ⟨r, hr, hq, rfl⟩⟩
  exact ⟨t', ht', h.ok hn hx hx0 ht'⟩

/-- Every entry of a loop that went through had its row. -/
theorem Takes.found (h : Takes q col upd f) {as : List α} {t t' : Table ρ} (hf : forRows k f as t = .ok t') :
    ∀ a ∈ as, ∃ r, t.get? (k a) = some r := by
  refine forRows_found (fun a ha => ?_) (fun a r ha => ?_) hf
  · obtain ⟨_, hr, -⟩ := (h.ok_iff a _ _).1 ha
    cases hr
  · obtain ⟨_, hr, -⟩ := (h.ok_iff a _ _).1 ha
    cases hr

/-- Over distinct keys, every row of a loop that went through had what was taken from it. -/
theorem Takes.fits (h : Takes q col upd f) {as : List α} {t t' : Table ρ} (hn : (as.map k).Nodup)
    (hf : forRows k f as t = .ok t') : ∀ a ∈ as, ∃ r, t.get? (k a) = some r ∧ q a ≤ col r := by
  intro a ha
  obtain ⟨o, ho, -⟩ := forRows_spec h.writesOwn hf hn a ha
  obtain ⟨r, hr, hq, -⟩ := (h.ok_iff a _ _).1 ho
  exact ⟨r, hr, hq⟩

/-- What the entries for one key take together. -/
def sumAt (k : α → κ) (q : α → M) (as : List α) (y : κ) : M := ((as.filter fun a => decide (k a = y)).map q).sum

omit [LE M] in
theorem sumAt_cons (k : α → κ) (q : α → M) (a : α) (as : List α) (y : κ) :
    sumAt k q (a :: as) y = (if k a = y then q a else 0) + sumAt k q as y := by
  unfold sumAt
  by_cases hk : k a = y
  · simp [hk]
  · simp [hk]

/-- **Over any keys** the loop takes from every row what the entries for it take together. -/
theorem Takes.accumulates (h : Takes q col upd f) (hadd : ∀ x y r, upd y (upd x r) = upd (x + y) r) {as : List α}
    {t t' : Table ρ} (hf : forRows k f as t = .ok t') (y : κ) :
    t'.get? y = (t.get? y).map (upd (sumAt k q as y)) := by
  induction as generalizing t with
  | nil =>
    cases hf
    rw [show upd (sumAt k q [] y) = (id : ρ → ρ) from funext h.upd_zero, Option.map_id]
    rfl
  | cons a as ih =>
    unfold forRows at hf
    split at hf
    · cases hf
    · rename_i ha
      obtain ⟨_, -, -, hw⟩ := (h.ok_iff a _ _).1 ha
      cases hw
    · rename_i w ha
      obtain ⟨r, hr, -, hw⟩ := (h.ok_iff a _ _).1 ha
      cases hw
      rw [ih hf, sumAt_cons, get?_set, h.key_upd, key_of_get? hr]
      by_cases hk : k a = y
      · subst hk
        simp [hr, hadd]
      · simp [hk]

/-- What is left in a class of rows is what was there less what was taken from it. -/
theorem Takes.sum {σ : Type} [DecidableEq σ] (cls : κ → σ) (h : Takes q col upd f) {as : List α} {t t' : Table ρ}
    (hf : forRows k f as t = .ok t') (s : σ) :
    t'.sum (fun r => decide (cls (key r) = s)) col =
      t.sum (fun r => decide (cls (key r) = s)) col - ((as.filter fun a => decide (cls (k a) = s)).map q).sum := by
  have := forRows_sum (h.writesOwn) (p := fun r => decide (cls (key r) = s)) (c := fun a => decide (cls (k a) = s))
    (g := col) (d := fun a => -q a) (fun a o w ho hfa => by
      obtain ⟨r, rfl, -, rfl⟩ := (h.ok_iff a o w).1 hfa
      have hk := ho r rfl
      exact ⟨r, _, rfl, rfl, by rw [hk], by rw [h.key_upd, hk], by rw [h.col_upd, sub_eq_add_neg]⟩) hf
  rw [this, sub_eq_add_neg]
  congr 1
  induction as.filter fun a => decide (cls (k a) = s) with
  | nil => simp
  | cons a l ih => simp only [List.map_cons, List.sum_cons, ih, neg_add]

end

/-! ## Sums by key

A sum over the rows whose keys pass a test is a sum over keys, `0` where there is no row. -/

section
variable {M : Type} [AddCommMonoid M] {t t' : Table ρ} {p : κ → Bool} {g g' : ρ → M}

/-- What a table says of a key. -/
theorem sum_eq_finset (t : Table ρ) (p : κ → Bool) (g : ρ → M) (s : Finset κ) (hs : ∀ k ∈ t.keys, k ∈ s) :
    t.sum (fun r => p (key r)) g = ∑ k ∈ s, if p k then ((t.get? k).map g).getD 0 else 0 := by
  have hrows : t.sum (fun r => p (key r)) g =
      (t.keys.map fun k => if p k then ((t.get? k).map g).getD 0 else 0).sum := by
    have hrow : ∀ r ∈ t.rows, (if p (key r) then ((t.get? (key r)).map g).getD 0 else 0) =
        if p (key r) then g r else 0 := by
      intro r hr
      rw [get?_key hr]
      rfl
    rw [keys, List.map_map, sum, select]
    refine Eq.trans ?_ (congrArg List.sum (List.map_congr_left hrow)).symm
    induction t.rows with
    | nil => rfl
    | cons r l ih => by_cases h : p (key r) <;> simp [h, ih]
  have hnodup : t.keys.Nodup := t.nodup
  rw [hrows, ← List.sum_toFinset _ hnodup]
  refine Finset.sum_subset (fun k hk => hs k (List.mem_toFinset.1 hk)) fun k _ hk => ?_
  have hnone : t.get? k = none := get?_eq_none.2 fun hmem => hk (List.mem_toFinset.2 hmem)
  simp [hnone]

/-- **Tables that say the same of every key have the same sum.** -/
theorem sum_eq_of_getD (h : ∀ k, p k = true → ((t'.get? k).map g').getD 0 = ((t.get? k).map g).getD 0) :
    t'.sum (fun r => p (key r)) g' = t.sum (fun r => p (key r)) g := by
  rw [sum_eq_finset t' p g' (t.keys ++ t'.keys).toFinset (by simp +contextual),
    sum_eq_finset t p g (t.keys ++ t'.keys).toFinset (by simp +contextual)]
  refine Finset.sum_congr rfl fun k _ => ?_
  split_ifs with hk
  · exact h k hk
  · rfl

end

end Table

end Relational
