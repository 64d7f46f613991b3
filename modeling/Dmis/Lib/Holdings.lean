import Mathlib.Algebra.BigOperators.Finsupp.Basic
import Mathlib.Algebra.Order.Group.Defs
import Mathlib.Algebra.Order.Pi
import Mathlib.Logic.Relation
import Mathlib.Tactic.Abel

/-!
# Holdings

What is stored at places `B`, what the parties `P` claim of it, and what went out to them. A party replaces its
claim (`Books.claim`) or takes something and gives its claim up (`Books.send`), each within what the others leave
it (`Books.free`). Every claim then stays covered (`Step.solvent`), nothing is lost (`Step.balance`), and what
went out stays out (`Step.sent_le`).
-/

namespace Relational

variable {P B α : Type} [AddCommGroup α]

/-- What all parties have at a place together. -/
noncomputable def total : (P →₀ (B → α)) →+ (B → α) := Finsupp.liftAddHom fun _ => AddMonoidHom.id (B → α)

@[simp] theorem total_single (p : P) (c : B → α) : total (Finsupp.single p c) = c := by
  simp [total]

theorem total_update (f : P →₀ (B → α)) (p : P) (c : B → α) : total (f.update p c) = total f - f p + c := by
  have hf : total (f.erase p) + f p = total f := by
    rw [← total_single p (f p), ← map_add, Finsupp.erase_add_single]
  rw [Finsupp.update_eq_erase_add_single, map_add, total_single, ← hf, add_sub_cancel_right]

/-- Of a list of holdings a party has what is listed for it. -/
theorem sum_singles_apply [DecidableEq P] {ι : Type} (k : ι → P) (g : ι → B → α) (as : List ι) (p : P) :
    (as.map fun a => Finsupp.single (k a) (g a)).sum p = ((as.filter fun a => k a = p).map g).sum := by
  induction as with
  | nil => rfl
  | cons a as ih =>
    rw [List.map_cons, List.sum_cons, Finsupp.add_apply, ih, List.filter_cons]
    by_cases h : k a = p
    · simp [h]
    · simp [h, Finsupp.single_eq_of_ne (Ne.symm h)]

theorem total_sum_apply {ι : Type} (k : ι → P) (g : ι → B → α) (as : List ι) (b : B) :
    total (as.map fun a => Finsupp.single (k a) (g a)).sum b = (as.map fun a => g a b).sum := by
  induction as with
  | nil => simp
  | cons a as ih => rw [List.map_cons, List.sum_cons, map_add, Pi.add_apply, ih, total_single]; rfl

/-- Stock, open claims, and what was sent. -/
structure Books (P B α : Type) [AddCommGroup α] where
  stock : B → α
  claims : P →₀ (B → α)
  sent : P →₀ (B → α)

namespace Books

variable {s s' : Books P B α} {p q : P} {c : B → α}

theorem ext (hstock : s'.stock = s.stock) (hclaims : ∀ p, s'.claims p = s.claims p)
    (hsent : ∀ p, s'.sent p = s.sent p) : s' = s := by
  cases s; cases s'
  simp only [mk.injEq]
  exact ⟨hstock, Finsupp.ext hclaims, Finsupp.ext hsent⟩

/-- What the other parties leave to `p`. -/
noncomputable def free (s : Books P B α) (p : P) : B → α := s.stock - (total s.claims - s.claims p)

noncomputable def claim (s : Books P B α) (p : P) (c : B → α) : Books P B α :=
  { s with claims := s.claims.update p c }

noncomputable def send (s : Books P B α) (p : P) (c : B → α) : Books P B α :=
  { stock := s.stock - c
    claims := s.claims.update p 0
    sent := s.sent.update p (s.sent p + c) }

theorem total_claim (s : Books P B α) (p : P) (c : B → α) :
    total (s.claim p c).claims = total s.claims - s.claims p + c :=
  total_update s.claims p c

variable [PartialOrder α]

/-- One party claims or takes something, within what the others leave it. -/
inductive Step (s : Books P B α) : Books P B α → Prop
  | claim (p : P) (c : B → α) (nonneg : 0 ≤ c) (fits : c ≤ s.free p) : Step s (s.claim p c)
  | send (p : P) (c : B → α) (nonneg : 0 ≤ c) (fits : c ≤ s.free p) : Step s (s.send p c)

/-- Every claim is covered by the stock. -/
structure Solvent (s : Books P B α) : Prop where
  nonneg : ∀ p, 0 ≤ s.claims p
  covered : total s.claims ≤ s.stock

/-- **Nothing is lost**: stock and what was sent add up to the same. -/
theorem Step.balance (h : Step s s') : s'.stock + total s'.sent = s.stock + total s.sent := by
  cases h with
  | claim => rfl
  | send p c =>
    simp only [Books.send, total_update]
    abel

/-- Any number of steps. -/
abbrev Reaches : Books P B α → Books P B α → Prop := Relation.ReflTransGen Step

theorem Reaches.balance (h : Reaches s s') : s'.stock + total s'.sent = s.stock + total s.sent := by
  induction h with
  | refl => rfl
  | tail _ h ih => exact h.balance.trans ih

variable [IsOrderedAddMonoid α]

/-- What fits beside the claims of the others leaves them covered. -/
theorem fits_iff : c ≤ s.free p ↔ total s.claims - s.claims p + c ≤ s.stock := by
  rw [free, le_sub_iff_add_le, add_comm]

theorem Step.solvent (h : Step s s') (hs : s.Solvent) : s'.Solvent := by
  cases h with
  | claim p c nonneg fits =>
    refine ⟨fun q => ?_, ?_⟩
    · classical
      rw [Books.claim, Finsupp.coe_update, Function.update_apply]
      split
      · exact nonneg
      · exact hs.nonneg q
    · rw [total_claim]
      exact fits_iff.1 fits
  | send p c nonneg fits =>
    refine ⟨fun q => ?_, ?_⟩
    · classical
      rw [Books.send, Finsupp.coe_update, Function.update_apply]
      split
      · exact le_rfl
      · exact hs.nonneg q
    · simp only [Books.send, total_update, add_zero]
      exact le_sub_iff_add_le.2 (fits_iff.1 fits)

/-- What went out stays out. -/
theorem Step.sent_le (h : Step s s') (p : P) : s.sent p ≤ s'.sent p := by
  cases h with
  | claim => exact le_rfl
  | send q c nonneg =>
    classical
    rw [Books.send, Finsupp.coe_update, Function.update_apply]
    split
    · subst p
      exact le_add_of_nonneg_right nonneg
    · exact le_rfl

theorem Reaches.solvent (h : Reaches s s') (hs : s.Solvent) : s'.Solvent := by
  induction h with
  | refl => exact hs
  | tail _ h ih => exact h.solvent ih

theorem Reaches.sent_le (h : Reaches s s') (p : P) : s.sent p ≤ s'.sent p := by
  induction h with
  | refl => exact le_rfl
  | tail _ h ih => exact ih.trans (h.sent_le p)

/-- A step read off the books before and after it, when only `p` moved: its claim changed and nothing left. -/
theorem Step.of_claim (hstock : s'.stock = s.stock) (hclaims : ∀ q, q ≠ p → s'.claims q = s.claims q)
    (hsent : ∀ q, s'.sent q = s.sent q) (nonneg : 0 ≤ s'.claims p) (covered : total s'.claims ≤ s'.stock) :
    Step s s' := by
  have he : s' = s.claim p (s'.claims p) := by
    refine ext hstock (fun q => ?_) hsent
    classical
    rw [Books.claim, Finsupp.coe_update, Function.update_apply]
    split
    · rw [‹q = p›]
    · exact hclaims q ‹_›
  have hfits : s'.claims p ≤ s.free p := by
    rw [fits_iff, ← total_claim, ← he, ← hstock]
    exact covered
  rw [he]
  exact .claim p _ nonneg hfits

/-- The same where its claim was closed and `c` left. -/
theorem Step.of_send (hstock : s'.stock = s.stock - c) (hclaims : ∀ q, q ≠ p → s'.claims q = s.claims q)
    (hsent : ∀ q, q ≠ p → s'.sent q = s.sent q) (hclosed : s'.claims p = 0) (hnew : s'.sent p = s.sent p + c)
    (nonneg : 0 ≤ c) (covered : total s'.claims ≤ s'.stock) : Step s s' := by
  have he : s' = s.send p c := by
    refine ext hstock (fun q => ?_) fun q => ?_
    · classical
      rw [Books.send, Finsupp.coe_update, Function.update_apply]
      split
      · rw [‹q = p›, hclosed]
      · exact hclaims q ‹_›
    · classical
      rw [Books.send, Finsupp.coe_update, Function.update_apply]
      split
      · rw [‹q = p›, hnew]
      · exact hsent q ‹_›
  have hfits : c ≤ s.free p := by
    rw [he] at covered
    simp only [Books.send, total_update, add_zero] at covered
    rw [fits_iff]
    exact le_sub_iff_add_le.1 covered
  rw [he]
  exact .send p c nonneg hfits

end Books

end Relational
