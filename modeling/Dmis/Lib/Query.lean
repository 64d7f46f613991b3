import Dmis.Lib.Lists

/-!
# Joins and groups

`join` and `outerJoin` are the inner and the left join of two lists of rows, `groupBy` collects rows under their keys.
A join repeats a row of the left side once for each match: `length_outerJoin`, `sum_join` and `sum_outerJoin` say what
that makes of a count and a sum. `sum_groupBy` is the total of the groups.
-/

namespace Relational

variable {α β κ M : Type}

def join (on : α → β → Bool) (l : List α) (r : List β) : List (α × β) :=
  l.flatMap fun a => (r.filter (on a)).map (Prod.mk a)

/-- A row without a match comes once, with nothing beside it. -/
def outerJoin (on : α → β → Bool) (l : List α) (r : List β) : List (α × Option β) :=
  l.flatMap fun a =>
    match r.filter (on a) with
    | [] => [(a, none)]
    | bs => bs.map fun b => (a, some b)

/-- The groups, in the order of the last rows of their keys. -/
def groupBy [DecidableEq κ] (key : α → κ) (l : List α) : List (κ × List α) :=
  (l.map key).dedup.map fun k => (k, l.filter fun a => key a = k)

/-! ## Joins -/

section
variable {on : α → β → Bool} {l : List α} {r : List β}

theorem filter_join_left (p : α → Bool) : (join on l r).filter (fun x => p x.1) = join on (l.filter p) r := by
  unfold join
  induction l with
  | nil => rfl
  | cons a l ih =>
    rw [List.flatMap_cons, List.filter_append, ih, List.filter_cons, List.filter_map]
    by_cases ha : p a = true
    · simp [ha, Function.comp_def]
    · simp [ha, Function.comp_def]

theorem filter_join_right (p : β → Bool) : (join on l r).filter (fun x => p x.2) = join on l (r.filter p) := by
  unfold join
  rw [List.filter_flatMap]
  refine List.flatMap_congr fun a _ => ?_
  rw [List.filter_map, List.filter_filter, List.filter_filter]
  refine congrArg _ (List.filter_congr fun b _ => ?_)
  exact Bool.and_comm ..

theorem length_outerJoin :
    (outerJoin on l r).length = (l.map fun a => max 1 (r.filter (on a)).length).sum := by
  unfold outerJoin
  rw [List.length_flatMap]
  refine congrArg List.sum (List.map_congr_left fun a _ => ?_)
  cases r.filter (on a) with
  | nil => rfl
  | cons b bs =>
    rw [List.length_map, List.length_cons]
    omega

theorem outerJoin_cons (a : α) : outerJoin on (a :: l) r = outerJoin on [a] r ++ outerJoin on l r := by
  unfold outerJoin
  rw [List.flatMap_cons, List.flatMap_singleton]

theorem fst_of_mem_outerJoin {a : α} {x : α × Option β} (hx : x ∈ outerJoin on [a] r) : x.1 = a := by
  unfold outerJoin at hx
  rw [List.flatMap_singleton] at hx
  split at hx
  · rw [List.mem_singleton.1 hx]
  · obtain ⟨b, -, rfl⟩ := List.mem_map.1 hx
    rfl

theorem filter_outerJoin (p : α → Bool) :
    (outerJoin on l r).filter (fun x => p x.1) = outerJoin on (l.filter p) r := by
  induction l with
  | nil => rfl
  | cons a l ih =>
    rw [outerJoin_cons, List.filter_append, ih, List.filter_cons]
    by_cases ha : p a = true
    · have hall : (outerJoin on [a] r).filter (fun x => p x.1) = outerJoin on [a] r := by
        refine List.filter_eq_self.2 fun x hx => ?_
        rw [fst_of_mem_outerJoin hx]
        exact ha
      rw [if_pos ha, hall, ← outerJoin_cons]
    · have hnone : (outerJoin on [a] r).filter (fun x => p x.1) = [] := by
        refine List.filter_eq_nil_iff.2 fun x hx => ?_
        rw [fst_of_mem_outerJoin hx]
        exact ha
      rw [if_neg ha, hnone, List.nil_append]

/-- `WHERE r.id IS NULL` behind a left join: the rows without a match. -/
theorem mem_outerJoin_none {a : α} : (a, none) ∈ outerJoin on l r ↔ a ∈ l ∧ ∀ b ∈ r, on a b = false := by
  unfold outerJoin
  rw [List.mem_flatMap]
  constructor
  · rintro ⟨c, hc, hx⟩
    split at hx
    · rename_i hnil
      cases List.mem_singleton.1 hx
      exact ⟨hc, fun b hb => by simpa using List.filter_eq_nil_iff.1 hnil b hb⟩
    · obtain ⟨b, -, hb⟩ := List.mem_map.1 hx
      cases hb
  · rintro ⟨ha, hnone⟩
    refine ⟨a, ha, ?_⟩
    have hnil : r.filter (on a) = [] := List.filter_eq_nil_iff.2 fun b hb => by simp [hnone b hb]
    rw [hnil]
    exact List.mem_singleton_self _

/-- A left join with one match at most keeps the rows. -/
theorem map_fst_outerJoin (h : ∀ a ∈ l, (r.filter (on a)).length ≤ 1) : (outerJoin on l r).map Prod.fst = l := by
  induction l with
  | nil => rfl
  | cons a l ih =>
    have hone := h a List.mem_cons_self
    have hrow : (outerJoin on [a] r).map Prod.fst = [a] := by
      unfold outerJoin
      rw [List.flatMap_singleton]
      match r.filter (on a), hone with
      | [], _ => rfl
      | [b], _ => rfl
    rw [outerJoin_cons, List.map_append, hrow, ih fun b hb => h b (List.mem_cons_of_mem a hb)]
    rfl

variable [AddCommMonoid M]

/-- A sum over the left side counts a row once for each match. -/
theorem sum_join (q : α → M) :
    ((join on l r).map fun x => q x.1).sum = (l.map fun a => (r.filter (on a)).length • q a).sum := by
  unfold join
  rw [List.map_flatMap, List.flatMap_def, List.sum_flatten, List.map_map]
  refine congrArg List.sum (List.map_congr_left fun a _ => ?_)
  simp [Function.comp_def]

/-- With one match at most, the rows that have one. -/
theorem sum_join_unique (q : α → M) (h : ∀ a ∈ l, (r.filter (on a)).length ≤ 1) :
    ((join on l r).map fun x => q x.1).sum = ((l.filter fun a => r.any (on a)).map q).sum := by
  rw [sum_join]
  induction l with
  | nil => rfl
  | cons a l ih =>
    have hrest := ih fun b hb => h b (List.mem_cons_of_mem a hb)
    have hone := h a List.mem_cons_self
    rw [List.map_cons, List.sum_cons, hrest, List.filter_cons]
    by_cases ha : r.any (on a) = true
    · have hpos : 0 < (r.filter (on a)).length := by
        obtain ⟨b, hb, hon⟩ := List.any_eq_true.1 ha
        exact List.length_pos_of_mem (List.mem_filter.2 ⟨hb, hon⟩)
      have hlen : (r.filter (on a)).length = 1 := by omega
      rw [if_pos ha, hlen, one_nsmul, List.map_cons, List.sum_cons]
    · have hnil : r.filter (on a) = [] := by
        refine List.filter_eq_nil_iff.2 fun b hb hon => ha ?_
        exact List.any_eq_true.2 ⟨b, hb, hon⟩
      rw [if_neg ha, hnil, List.length_nil, zero_nsmul, zero_add]

/-- A sum over the right side. -/
theorem sum_outerJoin (q : β → M) :
    ((outerJoin on l r).map fun x => (x.2.map q).getD 0).sum =
      (l.map fun a => ((r.filter (on a)).map q).sum).sum := by
  unfold outerJoin
  rw [List.map_flatMap, List.flatMap_def, List.sum_flatten, List.map_map]
  refine congrArg List.sum (List.map_congr_left fun a _ => ?_)
  simp only [Function.comp_apply]
  cases r.filter (on a) with
  | nil => simp
  | cons b bs => simp [Function.comp_def]

end

/-! ## Groups -/

section
variable [DecidableEq κ] {key : α → κ} {l : List α}

theorem mem_groupBy {g : κ × List α} :
    g ∈ groupBy key l ↔ g.1 ∈ l.map key ∧ g.2 = l.filter fun a => key a = g.1 := by
  obtain ⟨k, rows⟩ := g
  simp only [groupBy, List.mem_map, List.mem_dedup, Prod.mk.injEq]
  constructor
  · rintro ⟨k, hk, rfl, rfl⟩
    exact ⟨hk, rfl⟩
  · rintro ⟨hk, hrows⟩
    exact ⟨k, hk, rfl, hrows.symm⟩

/-- **The sums of the groups add up** to the sum of the rows. -/
theorem sum_groupBy [AddCommMonoid M] (key : α → κ) (q : α → M) (l : List α) :
    ((groupBy key l).map fun g => (g.2.map q).sum).sum = (l.map q).sum := by
  unfold groupBy
  rw [List.map_map]
  have h := sum_filter_mem (f := key) (q := q) (List.nodup_dedup (l.map key)) l
  rw [List.filter_eq_self.2 fun a ha => by simpa using ⟨a, ha, rfl⟩] at h
  exact h.symm

theorem length_groupBy (key : α → κ) (l : List α) : ((groupBy key l).map fun g => g.2.length).sum = l.length := by
  have h := sum_groupBy key (fun _ => (1 : ℕ)) l
  simp only [List.map_const', List.sum_replicate, Nat.nsmul_eq_mul, mul_one] at h
  exact h

end

end Relational
