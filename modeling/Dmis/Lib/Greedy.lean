import Mathlib.Algebra.Order.BigOperators.Group.List
import Mathlib.Algebra.Order.Group.Defs
import Mathlib.Algebra.Order.Group.Unbundled.Basic
import Mathlib.Algebra.Order.Monoid.Unbundled.MinMax
import Mathlib.Data.List.Induction
import Mathlib.Data.List.Sort

/-!
# Sorted lists, greedy plans and groups

`sortOn key` is a stable sort. `handOut` gives a quantity to the entries of a list, each as much as it holds, until
nothing is left; `limit` keeps entries until they hold a quantity, and the forced ones always. `groupsOf` collects the
entries of each key in the order in which the keys come up.

`sum_handOut` and `handOut_full` say that a plan is exact and that nothing is taken past an entry that is not used up;
`limit_all_or_reaches` and `limit_prefix` say the same of what is kept.
-/

namespace Relational

/-! ## Sorting -/

section sort
variable {α κ : Type} [LinearOrder κ]

/-- The entries by their keys, those with the same key as they come. -/
def sortOn (key : α → κ) (l : List α) : List α := l.insertionSort fun a b => key a ≤ key b

theorem sortOn_perm (key : α → κ) (l : List α) : (sortOn key l).Perm l := List.perm_insertionSort _ l

theorem sortOn_pairwise (key : α → κ) (l : List α) : (sortOn key l).Pairwise fun a b => key a ≤ key b :=
  List.pairwise_insertionSort (r := fun a b => key a ≤ key b) l

end sort

/-! ## Greedy plans -/

section handOut
variable {α M : Type} [AddCommGroup M] [LinearOrder M] {holds : α → M} {q : M} {l : List α}

/-- What of `q` each entry gives. -/
def handOut (holds : α → M) : M → List α → List (α × M)
  | _, [] => []
  | q, a :: l =>
    if q ≤ 0 then []
    else if 0 < min (holds a) q then (a, min (holds a) q) :: handOut holds (q - min (holds a) q) l
    else handOut holds q l

theorem handOut_cons_of_pos {a : α} (hq : 0 < q) (ha : 0 < holds a) :
    handOut holds q (a :: l) = (a, min (holds a) q) :: handOut holds (q - min (holds a) q) l := by
  rw [handOut, if_neg (not_le.2 hq), if_pos (lt_min ha hq)]

theorem handOut_of_nonpos (hq : q ≤ 0) : handOut holds q l = [] := by
  cases l with
  | nil => rfl
  | cons a l => rw [handOut, if_pos hq]

theorem handOut_sublist (holds : α → M) (q : M) (l : List α) : ((handOut holds q l).map Prod.fst).Sublist l := by
  fun_induction handOut holds q l with
  | case1 => exact .slnil
  | case2 q a l hq => exact List.nil_sublist _
  | case3 q a l hq hx ih => exact ih.cons_cons a
  | case4 q a l hq hx ih => exact ih.cons a

/-- Nobody gives more than it holds. -/
theorem handOut_bounds {x : α × M} (h : x ∈ handOut holds q l) : 0 < x.2 ∧ x.2 ≤ holds x.1 := by
  fun_induction handOut holds q l with
  | case1 => cases h
  | case2 q a l hq => cases h
  | case3 q a l hq hx ih =>
    rcases List.mem_cons.1 h with rfl | h
    · exact ⟨hx, min_le_left _ _⟩
    · exact ih h
  | case4 q a l hq hx ih => exact ih h

/-- **A greedy plan is exact**: it gives all of `q`, or all there is. -/
theorem sum_handOut [IsOrderedAddMonoid M] (hl : ∀ a ∈ l, 0 < holds a) (hq : 0 ≤ q) :
    ((handOut holds q l).map Prod.snd).sum = min q (l.map holds).sum := by
  induction l generalizing q with
  | nil => simpa [handOut] using hq
  | cons a l ih =>
    obtain ⟨ha, hl⟩ := List.forall_mem_cons.1 hl
    have hsum : 0 ≤ (l.map holds).sum := List.sum_nonneg fun x hx => by
      obtain ⟨b, hb, rfl⟩ := List.mem_map.1 hx
      exact (hl b hb).le
    rcases hq.eq_or_lt with rfl | hpos
    · rw [handOut_of_nonpos le_rfl, List.map_cons, List.sum_cons]
      exact (min_eq_left (add_nonneg ha.le hsum)).symm
    · rw [handOut_cons_of_pos hpos ha, List.map_cons, List.sum_cons, ih hl (sub_nonneg.2 (min_le_right _ _)),
        List.map_cons, List.sum_cons]
      rcases le_total (holds a) q with hle | hle
      · rw [min_eq_left hle, ← min_add_add_left, add_sub_cancel]
      · rw [min_eq_right hle, sub_self, min_eq_left hsum, add_zero]
        exact (min_eq_left (hle.trans (le_add_of_nonneg_right hsum))).symm

/-- **A greedy plan goes in order**: what does not come after an entry that gives something gives all it holds. -/
theorem handOut_full {R : α → α → Prop} (hr : ∀ a, R a a) (hs : l.Pairwise R) (hl : ∀ a ∈ l, 0 < holds a)
    {b c : α} {x : M} (hb : (b, x) ∈ handOut holds q l) (hc : c ∈ l) (hcb : ¬ R b c) :
    (c, holds c) ∈ handOut holds q l := by
  induction l generalizing q with
  | nil => cases hc
  | cons a l ih =>
    obtain ⟨ha, hl⟩ := List.forall_mem_cons.1 hl
    obtain ⟨hfirst, hs⟩ := List.pairwise_cons.1 hs
    rcases le_or_gt q 0 with hq | hq
    · rw [handOut_of_nonpos hq] at hb
      cases hb
    · rw [handOut_cons_of_pos hq ha] at hb ⊢
      rcases List.mem_cons.1 hb with heq | hb
      · -- the first entry is before every other one
        obtain ⟨rfl, -⟩ := Prod.mk.inj heq
        rcases List.mem_cons.1 hc with rfl | hc
        · exact absurd (hr _) hcb
        · exact absurd (hfirst c hc) hcb
      · rcases List.mem_cons.1 hc with rfl | hc
        · -- something is left for the others, so the first one gave all it holds
          have hmin : min (holds c) q = holds c := by
            by_contra hne
            rw [(min_choice _ _).resolve_left hne, sub_self, handOut_of_nonpos le_rfl] at hb
            cases hb
          rw [hmin]
          exact List.mem_cons_self
        · exact List.mem_cons_of_mem _ (ih hs hl hb hc)

/-- What is given is what an entry holds or what is left: an invariant of what is left says what it can be. -/
theorem handOut_induction {P Q : M → Prop} (hgive : ∀ a ∈ l, ∀ r, Q r → P (min (holds a) r))
    (hleft : ∀ a ∈ l, ∀ r, Q r → Q (r - min (holds a) r)) (hq : Q q) {x : α × M} (hx : x ∈ handOut holds q l) :
    P x.2 := by
  induction l generalizing q with
  | nil => cases hx
  | cons a l ih =>
    obtain ⟨hg, hgive⟩ := List.forall_mem_cons.1 hgive
    obtain ⟨hf, hleft⟩ := List.forall_mem_cons.1 hleft
    rw [handOut] at hx
    split_ifs at hx with h0 hpos
    · cases hx
    · rcases List.mem_cons.1 hx with rfl | hx
      · exact hg q hq
      · exact ih hgive hleft (hf q hq) hx
    · exact ih hgive hleft hq hx

end handOut

/-! ## Limits -/

section limit
variable {α M : Type} [AddCommGroup M] [LinearOrder M] {holds : α → M} {r cum : M} {done : Bool}
  {l : List α} {forced : α → Prop} [DecidablePred forced]

/-- The entries until they hold `r`, with `cum` held by those before; forced ones are never left out. -/
def limit (forced : α → Prop) [DecidablePred forced] (holds : α → M) (r : M) : M → Bool → List α → List α
  | _, _, [] => []
  | cum, done, a :: l =>
    if forced a ∨ done = false then
      a :: limit forced holds r (cum + holds a) (done || decide (r ≤ cum + holds a)) l
    else limit forced holds r cum done l

theorem limit_sublist (forced : α → Prop) [DecidablePred forced] (holds : α → M) (r cum : M) (done : Bool)
    (l : List α) : (limit forced holds r cum done l).Sublist l := by
  fun_induction limit forced holds r cum done l with
  | case1 => exact .slnil
  | case2 cum done a l h ih => exact ih.cons_cons a
  | case3 cum done a l h ih => exact ih.cons a

theorem mem_limit_of_forced {a : α} (ha : a ∈ l) (hf : forced a) : a ∈ limit forced holds r cum done l := by
  fun_induction limit forced holds r cum done l with
  | case1 => cases ha
  | case2 cum done b l h ih =>
    rcases List.mem_cons.1 ha with rfl | ha
    · exact List.mem_cons_self
    · exact List.mem_cons_of_mem _ (ih ha)
  | case3 cum done b l h ih =>
    rcases List.mem_cons.1 ha with rfl | ha
    · exact absurd (.inl hf) h
    · exact ih ha

/-- Once enough is held, only forced entries are kept. -/
theorem limit_done {a : α} (ha : a ∈ limit forced holds r cum true l) : forced a := by
  induction l generalizing cum with
  | nil => cases ha
  | cons b l ih =>
    rw [limit] at ha
    by_cases h : forced b
    · rw [if_pos (.inl h)] at ha
      rcases List.mem_cons.1 ha with rfl | ha
      · exact h
      · exact ih ha
    · rw [if_neg (by simp [h])] at ha
      exact ih ha

/-- **Nothing is lost by stopping**: all entries are kept, or those that are hold `r`. -/
theorem limit_all_or_reaches [IsOrderedAddMonoid M] (forced : α → Prop) [DecidablePred forced] (r cum : M) (done : Bool)
    (hl : ∀ a ∈ l, 0 ≤ holds a) (hdone : done = true → r ≤ cum) :
    limit forced holds r cum done l = l ∨ r ≤ cum + ((limit forced holds r cum done l).map holds).sum := by
  induction l generalizing cum done with
  | nil => exact .inl rfl
  | cons a l ih =>
    obtain ⟨ha, hl⟩ := List.forall_mem_cons.1 hl
    rw [limit]
    split_ifs with h
    · have hnext : (done || decide (r ≤ cum + holds a)) = true → r ≤ cum + holds a := by
        intro hd
        rcases Bool.or_eq_true _ _ ▸ hd with hd | hd
        · exact (hdone hd).trans (le_add_of_nonneg_right ha)
        · exact of_decide_eq_true hd
      rcases ih _ _ hl hnext with heq | hle
      · rw [heq]
        exact .inl rfl
      · rw [List.map_cons, List.sum_cons, ← add_assoc]
        exact .inr hle
    · have hd : done = true := by simpa using fun hf => h (.inr hf)
      refine .inr ((hdone hd).trans (le_add_of_nonneg_right (List.sum_nonneg fun x hx => ?_)))
      obtain ⟨b, hb, rfl⟩ := List.mem_map.1 hx
      exact hl b ((limit_sublist _ _ _ _ _ _).subset hb)

/-- **What is kept is first in order**: an entry that is not forced is not kept after one that was left out. -/
theorem limit_prefix {R : α → α → Prop} (hs : l.Pairwise R) {b c : α} (hb : b ∈ l) (hc : c ∈ l) (hfc : ¬ forced c)
    (hleft : b ∉ limit forced holds r cum done l) (hcb : ¬ R c b) : c ∉ limit forced holds r cum done l := by
  induction l generalizing cum done with
  | nil => cases hb
  | cons a l ih =>
    obtain ⟨hfirst, hs⟩ := List.pairwise_cons.1 hs
    rw [limit] at hleft ⊢
    split_ifs at hleft ⊢ with h
    · rw [List.mem_cons, not_or] at hleft
      have hb' := (List.mem_cons.1 hb).resolve_left hleft.1
      have hca : c ≠ a := fun he => hcb (he ▸ hfirst b hb')
      rw [List.mem_cons, not_or]
      exact ⟨hca, ih hs hb' ((List.mem_cons.1 hc).resolve_left hca) hleft.2⟩
    · have hd : done = true := by simpa using fun hf => h (.inr hf)
      rw [hd]
      exact fun hin => hfc (limit_done hin)

end limit

/-! ## Groups -/

section groups
variable {α κ γ : Type} [DecidableEq κ] {f : α → κ} {step : γ → α → γ} {start : γ} {l : List α}

/-- The group of `a` takes it; a key that comes up first gets a new group at the end. -/
def addToGroup (f : α → κ) (step : γ → α → γ) (start : γ) : List (κ × γ) → α → List (κ × γ)
  | [], a => [(f a, step start a)]
  | (k, g) :: gs, a => if k = f a then (k, step g a) :: gs else (k, g) :: addToGroup f step start gs a

def groupsOf (f : α → κ) (step : γ → α → γ) (start : γ) (l : List α) : List (κ × γ) :=
  l.foldl (addToGroup f step start) []

theorem keys_addToGroup (gs : List (κ × γ)) (a : α) :
    (addToGroup f step start gs a).map Prod.fst =
      if f a ∈ gs.map Prod.fst then gs.map Prod.fst else gs.map Prod.fst ++ [f a] := by
  induction gs with
  | nil => simp [addToGroup]
  | cons g gs ih =>
    obtain ⟨k, g⟩ := g
    rw [addToGroup]
    by_cases hk : k = f a
    · simp [hk]
    · rw [if_neg hk, List.map_cons, ih]
      by_cases hm : f a ∈ gs.map Prod.fst
      · simp only [List.map_cons, List.mem_cons, hm, or_true, if_true]
      · simp only [List.map_cons, List.mem_cons, hm, or_false, if_neg (Ne.symm hk), if_false, List.cons_append]

theorem mem_addToGroup {gs : List (κ × γ)} (hn : (gs.map Prod.fst).Nodup) {a : α} {k : κ} {g : γ} :
    (k, g) ∈ addToGroup f step start gs a ↔
      (k ≠ f a ∧ (k, g) ∈ gs) ∨
      (k = f a ∧ ((∃ g', (k, g') ∈ gs ∧ g = step g' a) ∨ (k ∉ gs.map Prod.fst ∧ g = step start a))) := by
  induction gs with
  | nil => simp [addToGroup]
  | cons h gs ih =>
    obtain ⟨k', g'⟩ := h
    obtain ⟨hfresh, hn⟩ := List.nodup_cons.1 hn
    have hnot : ∀ g, (k', g) ∉ gs := fun g hg => hfresh (List.mem_map.2 ⟨_, hg, rfl⟩)
    rw [addToGroup]
    by_cases hk : k' = f a
    · subst hk
      rw [if_pos rfl]
      by_cases hkk : k = f a
      · subst hkk
        simp [hnot]
      · simp [hkk]
    · rw [if_neg hk, List.mem_cons, ih hn]
      by_cases hkk : k = f a
      · subst hkk
        simp [Ne.symm hk]
      · simp [hkk]

/-- The keys of the groups are those that come up, once each. -/
theorem keys_groupsOf (f : α → κ) (step : γ → α → γ) (start : γ) (l : List α) :
    ((groupsOf f step start l).map Prod.fst).Nodup ∧
    ∀ k, k ∈ (groupsOf f step start l).map Prod.fst ↔ k ∈ l.map f := by
  induction l using List.reverseRecOn with
  | nil => simp [groupsOf]
  | append_singleton l a ih =>
    obtain ⟨hn, hk⟩ := ih
    have hstep : groupsOf f step start (l ++ [a]) = addToGroup f step start (groupsOf f step start l) a := by
      simp [groupsOf]
    rw [hstep, keys_addToGroup]
    split_ifs with hm
    · refine ⟨hn, fun k => ?_⟩
      rw [hk] at hm ⊢
      simp only [List.map_append, List.map_cons, List.map_nil, List.mem_append, List.mem_singleton]
      exact ⟨.inl, fun h => h.elim id fun h => h ▸ hm⟩
    · refine ⟨List.nodup_append.2 ⟨hn, List.nodup_singleton _, fun x hx y hy hxy => ?_⟩, fun k => ?_⟩
      · obtain rfl := List.mem_singleton.1 hy
        exact hm (hxy ▸ hx)
      · simp only [List.mem_append, hk, List.map_append, List.map_cons, List.map_nil]

/-- **A group is what the entries of its key add up to.** -/
theorem mem_groupsOf {k : κ} {g : γ} :
    (k, g) ∈ groupsOf f step start l ↔ k ∈ l.map f ∧ g = (l.filter fun a => f a = k).foldl step start := by
  induction l using List.reverseRecOn generalizing k g with
  | nil => simp [groupsOf]
  | append_singleton l a ih =>
    obtain ⟨hn, hkeys⟩ := keys_groupsOf f step start l
    have hstep : groupsOf f step start (l ++ [a]) = addToGroup f step start (groupsOf f step start l) a := by
      simp [groupsOf]
    rw [hstep, mem_addToGroup hn]
    simp only [ih, hkeys, List.map_append, List.map_cons, List.map_nil, List.mem_append, List.mem_singleton,
      List.filter_append, List.foldl_append]
    by_cases hk : k = f a
    · subst hk
      by_cases hm : f a ∈ l.map f
      · simp [hm]
      · have hnone : (l.filter fun b => f b = f a) = [] :=
          List.filter_eq_nil_iff.2 fun b hb he => hm (List.mem_map.2 ⟨b, hb, of_decide_eq_true he⟩)
        simp [hm, hnone]
    · simp [hk, Ne.symm hk]

/-- The last entry of every key, in the order in which the keys come up: `{f(a): a for a in l}.values()`. -/
def lastOfEach (f : α → κ) (l : List α) : List α := (groupsOf f (fun _ a => some a) none l).filterMap Prod.snd

theorem foldl_last : ∀ {l : List α} {o : Option α}, l ≠ [] → ∃ a ∈ l, l.foldl (fun _ a => some a) o = some a
  | [a], _, _ => ⟨a, List.mem_singleton_self a, rfl⟩
  | a :: b :: l, _, _ => by
    obtain ⟨c, hc, he⟩ := foldl_last (o := some a) (List.cons_ne_nil b l)
    exact ⟨c, List.mem_cons_of_mem a hc, he⟩

/-- Every key is there, once. -/
theorem keys_lastOfEach (f : α → κ) (l : List α) :
    ((lastOfEach f l).map f).Nodup ∧ ∀ k, k ∈ (lastOfEach f l).map f ↔ k ∈ l.map f := by
  have hlast : ∀ e ∈ groupsOf f (fun _ a => some a) none l, (Prod.snd e).map f = some e.1 := by
    rintro ⟨k, g⟩ he
    obtain ⟨hk, rfl⟩ := mem_groupsOf.1 he
    obtain ⟨a, ha, rfl⟩ := List.mem_map.1 hk
    have hne : (l.filter fun b => f b = f a) ≠ [] := List.ne_nil_of_mem (List.mem_filter.2 ⟨ha, by simp⟩)
    obtain ⟨b, hb, hfold⟩ := foldl_last (o := none) hne
    rw [hfold, Option.map_some, of_decide_eq_true (List.mem_filter.1 hb).2]
  have hkeys : (lastOfEach f l).map f = (groupsOf f (fun _ a => some a) none l).map Prod.fst := by
    rw [lastOfEach, List.map_filterMap]
    exact (List.filterMap_congr hlast).trans (List.filterMap_eq_map ▸ rfl)
  rw [hkeys]
  exact keys_groupsOf _ _ _ _

end groups

/-! ## Runs -/

section runs
variable {α κ : Type} [DecidableEq κ] {key : α → κ} {n : ℕ} {k : κ} {l : List α}

/-- The entries with the number of their run of equal keys, after one of key `k` and number `n`. -/
def numberAfter (key : α → κ) : ℕ → κ → List α → List (α × ℕ)
  | _, _, [] => []
  | n, k, a :: l =>
    let m := if key a ≠ k then n + 1 else n
    (a, m) :: numberAfter key m (key a) l

def numberRuns (key : α → κ) : List α → List (α × ℕ)
  | [] => []
  | a :: l => (a, 0) :: numberAfter key 0 (key a) l

/-- A key does not come back once its run has ended. -/
def RunsOnce : List κ → Prop
  | [] => True
  | [_] => True
  | a :: b :: l => (a = b ∨ a ∉ b :: l) ∧ RunsOnce (b :: l)

instance decidableRunsOnce : (l : List κ) → Decidable (RunsOnce l)
  | [] => .isTrue trivial
  | [_] => .isTrue trivial
  | _ :: b :: l => @instDecidableAnd _ _ inferInstance (decidableRunsOnce (b :: l))

theorem map_fst_numberAfter (key : α → κ) (n : ℕ) (k : κ) (l : List α) :
    (numberAfter key n k l).map Prod.fst = l := by
  induction l generalizing n k with
  | nil => rfl
  | cons a l ih => rw [numberAfter, List.map_cons, ih]

theorem map_fst_numberRuns (key : α → κ) (l : List α) : (numberRuns key l).map Prod.fst = l := by
  cases l with
  | nil => rfl
  | cons a l => rw [numberRuns, List.map_cons, map_fst_numberAfter]

theorem le_of_mem_numberAfter {x : α × ℕ} (h : x ∈ numberAfter key n k l) : n ≤ x.2 := by
  induction l generalizing n k with
  | nil => cases h
  | cons a l ih =>
    rw [numberAfter] at h
    have hm : n ≤ if key a ≠ k then n + 1 else n := by split_ifs <;> omega
    rcases List.mem_cons.1 h with rfl | h
    · exact hm
    · exact hm.trans (ih h)

theorem numberAfter_pairwise (key : α → κ) (n : ℕ) (k : κ) (l : List α) :
    (numberAfter key n k l).Pairwise fun x y => x.2 ≤ y.2 := by
  induction l generalizing n k with
  | nil => exact .nil
  | cons a l ih =>
    rw [numberAfter]
    exact List.pairwise_cons.2 ⟨fun x hx => le_of_mem_numberAfter hx, ih _ _⟩

/-- The numbers go up. -/
theorem numberRuns_pairwise (key : α → κ) (l : List α) : (numberRuns key l).Pairwise fun x y => x.2 ≤ y.2 := by
  cases l with
  | nil => exact .nil
  | cons a l => exact List.pairwise_cons.2 ⟨fun x _ => Nat.zero_le _, numberAfter_pairwise _ _ _ _⟩

/-- In a list with rising numbers what has the smaller number comes first. -/
theorem before_of_lt {β : Type} {number : β → ℕ} {R : β → β → Prop} {groups : List β}
    (hup : groups.Pairwise fun x y => number x ≤ number y) {x y : β} (hx : x ∈ groups) (hy : y ∈ groups)
    (hlt : number x < number y) (h : groups.Pairwise R) : R x y := by
  induction groups with
  | nil => cases hx
  | cons a groups ih =>
    obtain ⟨hfirst, hup⟩ := List.pairwise_cons.1 hup
    obtain ⟨hrel, h⟩ := List.pairwise_cons.1 h
    rcases List.mem_cons.1 hx with rfl | hx'
    · rcases List.mem_cons.1 hy with rfl | hy'
      · exact absurd hlt (lt_irrefl _)
      · exact hrel y hy'
    · rcases List.mem_cons.1 hy with rfl | hy'
      · exact absurd hlt (not_lt.2 (hfirst x hx'))
      · exact ih hup hx' hy' h

/-- Two entries have the same number exactly when they have the same key. -/
def NumbersKeys (key : α → κ) (xs : List (α × ℕ)) : Prop := ∀ x ∈ xs, ∀ y ∈ xs, x.2 = y.2 ↔ key x.1 = key y.1

omit [DecidableEq κ] in
theorem numbersKeys_cons {x : α × ℕ} {xs : List (α × ℕ)} :
    NumbersKeys key (x :: xs) ↔ (∀ y ∈ xs, x.2 = y.2 ↔ key x.1 = key y.1) ∧ NumbersKeys key xs := by
  unfold NumbersKeys
  simp only [List.forall_mem_cons, true_and, iff_self]
  refine and_congr_right fun h => ⟨fun h' y hy => (h' y hy).2, fun h' y hy => ⟨?_, h' y hy⟩⟩
  rw [eq_comm, h y hy, eq_comm]

theorem numbersKeys_after (a : α) :
    NumbersKeys key ((a, n) :: numberAfter key n (key a) l) ↔ RunsOnce (key a :: l.map key) := by
  induction l generalizing n a with
  | nil => simp [NumbersKeys, numberAfter, RunsOnce]
  | cons b l ih =>
    rw [numberAfter, List.map_cons, RunsOnce, numbersKeys_cons]
    by_cases hk : key b = key a
    · -- the run goes on: what holds of `b` holds of `a`
      have hm : (if key b ≠ key a then n + 1 else n) = n := if_neg (not_not.2 hk)
      rw [hm, ← ih b]
      refine ⟨fun h => ⟨.inl hk.symm, h.2⟩, fun h => ⟨fun y hy => ?_, h.2⟩⟩
      have := h.2 (b, n) List.mem_cons_self y hy
      rwa [hk] at this
    · -- a run ends: the numbers that follow are larger
      have hm : (if key b ≠ key a then n + 1 else n) = n + 1 := if_pos hk
      rw [hm, ← ih b]
      refine and_congr_left fun _ => ?_
      have hlarge : ∀ y ∈ (b, n + 1) :: numberAfter key (n + 1) (key b) l, n ≠ y.2 := fun y hy => by
        rcases List.mem_cons.1 hy with rfl | hy
        · exact (Nat.succ_ne_self n).symm
        · have := le_of_mem_numberAfter hy
          omega
      have hkeys : key b :: l.map key =
          ((b, n + 1) :: numberAfter key (n + 1) (key b) l).map fun y => key y.1 := by
        rw [List.map_cons, ← map_fst_numberAfter key (n + 1) (key b) l, List.map_map]
        rw [map_fst_numberAfter]
        rfl
      rw [or_iff_right (Ne.symm hk), hkeys, List.mem_map, not_exists]
      refine forall_congr' fun y => ⟨fun h hy => hlarge y hy.1 ((h hy.1).2 hy.2.symm), fun h hy => ?_⟩
      exact ⟨fun he => absurd he (hlarge y hy), fun he => absurd ⟨hy, he.symm⟩ h⟩

/-- **Runs number the keys exactly when no key comes back.** -/
theorem numbersKeys_iff (key : α → κ) (l : List α) : NumbersKeys key (numberRuns key l) ↔ RunsOnce (l.map key) := by
  cases l with
  | nil => simp [NumbersKeys, numberRuns, RunsOnce]
  | cons a l => exact numbersKeys_after a

end runs

end Relational
