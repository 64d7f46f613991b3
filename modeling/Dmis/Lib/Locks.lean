import Dmis.Lib.Table
import Mathlib.Algebra.Group.Basic
import Mathlib.Data.List.Induction

/-!
# Row locks and uncommitted rows

A transaction locks the rows it writes and keeps the locks until it ends, so no two transactions that have not
ended write the same row. What it sees is the committed table overlaid with its own rows (`Table.overlay`); a
sum over that view differs from the committed sum by what its own rows change, whatever other transactions
commit to other rows (`sum_overlay_sub`).
-/

namespace Relational

open Keyed

/-! ## Locks -/

/-- The transaction that holds the lock of each row. -/
abbrev Locks (κ : Type) := κ → Option Nat

namespace Locks

variable {κ : Type} [DecidableEq κ] {locks : Locks κ} {n m : Nat} {k k' : κ}

def heldByOther (locks : Locks κ) (n : Nat) (k : κ) : Bool := (locks k).any (· ≠ n)

def acquire (locks : Locks κ) (n : Nat) (k : κ) : Locks κ := fun k' => if k' = k then some n else locks k'

/-- The locks of `n` go when it ends. -/
def release (locks : Locks κ) (n : Nat) : Locks κ := fun k => (locks k).filter (· ≠ n)

theorem acquire_self (locks : Locks κ) (n : Nat) (k : κ) : locks.acquire n k k = some n := if_pos rfl

/-- Taking a free lock takes none from anybody. -/
theorem acquire_keeps (hfree : locks.heldByOther n k = false) (h : locks k' = some m) :
    locks.acquire n k k' = some m := by
  unfold acquire
  by_cases hk : k' = k
  · subst hk
    have hm : m = n := by simpa [heldByOther, h] using hfree
    rw [if_pos rfl, hm]
  · rwa [if_neg hk]

/-- Taking a lock bars nobody from it who took it. -/
theorem heldByOther_acquire (h : locks.heldByOther n k' = false) : (locks.acquire n k).heldByOther n k' = false := by
  unfold heldByOther acquire at *
  split
  · simp
  · exact h

omit [DecidableEq κ] in
theorem release_keeps (hm : m ≠ n) (h : locks k = some m) : locks.release n k = some m := by
  unfold release
  rw [h]
  exact Option.filter_some_pos (by simpa using hm)

end Locks

/-! ## Uncommitted rows -/

namespace Table

variable {ρ κ : Type} [Keyed ρ κ] [DecidableEq κ] {t t' : Table ρ} {r : ρ} {rs : List ρ} {k : κ}

/-- The table with these rows written over it, the later ones last. -/
def overlay (t : Table ρ) (rs : List ρ) : Table ρ := rs.foldl set t

@[simp] theorem overlay_nil (t : Table ρ) : t.overlay [] = t := rfl

theorem overlay_cons (t : Table ρ) (r : ρ) (rs : List ρ) : t.overlay (r :: rs) = (t.set r).overlay rs := rfl

theorem overlay_concat (t : Table ρ) (rs : List ρ) (r : ρ) : t.overlay (rs ++ [r]) = (t.overlay rs).set r := by
  rw [overlay, List.foldl_append]
  rfl

theorem keys_overlay (t : Table ρ) (rs : List ρ) : (t.overlay rs).keys = t.keys := by
  induction rs generalizing t with
  | nil => rfl
  | cons r rs ih => rw [overlay_cons, ih, keys_set]

theorem get?_overlay_of_ne (h : ∀ r ∈ rs, key r ≠ k) : (t.overlay rs).get? k = t.get? k := by
  induction rs generalizing t with
  | nil => rfl
  | cons r rs ih =>
    rw [overlay_cons, ih fun x hx => h x (List.mem_cons_of_mem r hx), get?_set_of_ne (h r List.mem_cons_self)]

/-- Under a key that is there, the last row written with it. -/
theorem get?_overlay (h : ∃ r ∈ rs, key r = k) (hk : t.get? k ≠ none) :
    ∃ r ∈ rs, key r = k ∧ (t.overlay rs).get? k = some r := by
  induction rs generalizing t with
  | nil => simp at h
  | cons r rs ih =>
    rw [overlay_cons]
    by_cases hlater : ∃ x ∈ rs, key x = k
    · have hset : (t.set r).get? k ≠ none := by
        rw [get?_set]
        split
        · simpa using hk
        · exact hk
      obtain ⟨x, hx, hxk, hg⟩ := ih hlater hset
      exact ⟨x, List.mem_cons_of_mem r hx, hxk, hg⟩
    · have hr : key r = k := by
        obtain ⟨x, hx, hxk⟩ := h
        rcases List.mem_cons.1 hx with rfl | hx
        · exact hxk
        · exact absurd ⟨x, hx, hxk⟩ hlater
      refine ⟨r, List.mem_cons_self, hr, ?_⟩
      rw [get?_overlay_of_ne fun x hx hxk => hlater ⟨x, hx, hxk⟩, ← hr, get?_set_self, hr]
      obtain ⟨x, hx⟩ := Option.ne_none_iff_exists'.1 hk
      rw [hx]
      rfl

/-- A column that the rows written have as the table has it. -/
theorem map_get?_overlay {β : Type} {g : ρ → β} (h : ∀ r ∈ rs, ∀ x ∈ t.get? (key r), g x = g r) (k : κ) :
    ((t.overlay rs).get? k).map g = (t.get? k).map g := by
  induction rs generalizing t with
  | nil => rfl
  | cons r rs ih =>
    have hr : ∀ k, ((t.set r).get? k).map g = (t.get? k).map g := get?_set_map (h r List.mem_cons_self)
    rw [overlay_cons, ih fun x hx y hy => ?_, hr]
    have hmap : (t.get? (key x)).map g = some (g y) := by rw [← hr, Option.mem_def.1 hy, Option.map_some]
    obtain ⟨z, hz, hzy⟩ := Option.map_eq_some_iff.1 hmap
    rw [← hzy]
    exact h x (List.mem_cons_of_mem r hx) z hz

/-- What `f` leaves of the rows written, it leaves of the table. -/
theorem map_get?_overlay_map {β : Type} {f : ρ → ρ} {g : ρ → β} (hk : ∀ r, key (f r) = key r) (hg : ∀ r, g (f r) = g r)
    (k : κ) : ((t.overlay (rs.map f)).get? k).map g = ((t.overlay rs).get? k).map g := by
  induction rs using List.reverseRecOn with
  | nil => rfl
  | append_singleton rs r ih =>
    rw [List.map_append, List.map_singleton, overlay_concat, overlay_concat, get?_set, get?_set, hk]
    by_cases hr : key r = k
    · have hconst : ∀ (o : Option ρ) (x : ρ), (o.map fun _ => x).map g = (o.map g).map fun _ => g x := fun o x => by
        cases o <;> rfl
      rw [if_pos hr, if_pos hr, hconst, hconst, ih, hg]
    · rw [if_neg hr, if_neg hr, ih]

variable {p : ρ → Bool} {M : Type} [AddCommGroup M] {g : ρ → M}

theorem sum_overlay_map {f : ρ → ρ} (hk : ∀ r, key (f r) = key r) (hp : ∀ r, p (f r) = p r) (hg : ∀ r, g (f r) = g r) :
    (t.overlay (rs.map f)).sum p g = (t.overlay rs).sum p g := by
  have hkeys : (t.overlay (rs.map f)).keys = (t.overlay rs).keys := by rw [keys_overlay, keys_overlay]
  refine sum_congr hkeys fun k r r' hr hr' => ?_
  have hrow : ((t.overlay (rs.map f)).get? k).map (fun r => (p r, g r)) =
      ((t.overlay rs).get? k).map fun r => (p r, g r) := map_get?_overlay_map hk (fun r => by rw [hp, hg]) k
  rw [hr, hr', Option.map_some, Option.map_some, Option.some.injEq, Prod.mk.injEq] at hrow
  exact ⟨hrow.1, fun _ => hrow.2⟩

/-- Rows that do not count leave a sum alone, if what counts is decided by the key. -/
theorem sum_overlay_other {q : κ → Bool} (h : ∀ r ∈ rs, q (key r) = false) :
    (t.overlay rs).sum (fun r => q (key r)) g = t.sum (fun r => q (key r)) g := by
  refine sum_congr (keys_overlay t rs) fun k r r' hr hr' => ?_
  have hkr : key r = k := key_of_get? hr
  have hkr' : key r' = k := key_of_get? hr'
  refine ⟨by rw [hkr, hkr'], fun hq => ?_⟩
  have hother : ∀ x ∈ rs, key x ≠ k := fun x hx hxk => by
    have hx := h x hx
    rw [hxk, ← hkr, hq] at hx
    cases hx
  rw [get?_overlay_of_ne hother, hr] at hr'
  rw [Option.some.inj hr']

omit [AddCommGroup M] in
theorem set_of_absent (h : t.get? (key r) = none) : t.set r = t := by
  have habsent : ∀ x ∈ t.rows, key x ≠ key r := fun x hx he =>
    get?_eq_none.1 h (he ▸ List.mem_map_of_mem hx)
  refine Table.ext ?_
  unfold set
  conv_rhs => rw [← List.map_id t.rows]
  exact List.map_congr_left fun x hx => if_neg (habsent x hx)

/-- Writing a row changes the sums of two tables by the same, if they hold the same row under its key. -/
theorem sum_set_sub (h : t'.get? (key r) = t.get? (key r)) :
    (t'.set r).sum p g - t'.sum p g = (t.set r).sum p g - t.sum p g := by
  cases hx : t.get? (key r) with
  | none => rw [set_of_absent hx, set_of_absent (h.trans hx), sub_self, sub_self]
  | some x =>
    have hkey : key r = key x := (key_of_get? hx).symm
    rw [sum_set (mem_of_get? hx) hkey g, sum_set (mem_of_get? (h.trans hx)) hkey g]
    abel

/-- **What uncommitted rows add to a sum** does not depend on the other rows of the table. -/
theorem sum_overlay_sub (h : ∀ r ∈ rs, t'.get? (key r) = t.get? (key r)) :
    (t'.overlay rs).sum p g - t'.sum p g = (t.overlay rs).sum p g - t.sum p g := by
  induction rs generalizing t t' with
  | nil => rw [overlay_nil, overlay_nil, sub_self, sub_self]
  | cons r rs ih =>
    have hr := h r List.mem_cons_self
    have hrest : ∀ x ∈ rs, (t'.set r).get? (key x) = (t.set r).get? (key x) := fun x hx => by
      rw [get?_set, get?_set, h x (List.mem_cons_of_mem r hx)]
    have hlater := ih hrest
    have hfirst := sum_set_sub (p := p) (g := g) hr
    rw [overlay_cons, overlay_cons]
    calc ((t'.set r).overlay rs).sum p g - t'.sum p g
        = (((t'.set r).overlay rs).sum p g - (t'.set r).sum p g) + ((t'.set r).sum p g - t'.sum p g) := by abel
      _ = (((t.set r).overlay rs).sum p g - (t.set r).sum p g) + ((t.set r).sum p g - t.sum p g) := by
        rw [hlater, hfirst]
      _ = ((t.set r).overlay rs).sum p g - t.sum p g := by abel

end Table

end Relational
