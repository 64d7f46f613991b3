import Dmis.Lib.Binary64

/-!
# Python's decimal context

`decimal` keeps 28 significant digits of what it computes, ties to even. A result that needs no more of them is exact:
of `s` decimals, one below `10 ^ (28 - s)` (`decimalContext_of_atScale`). So amounts of few decimals are added up exactly,
one after the other (`contextSum_eq`).
-/

namespace Relational

/-- A computed decimal: 28 significant digits, ties to even. -/
def decimalContext (q : ℚ) : ℚ :=
  if q = 0 then 0 else roundEven (q / 10 ^ (Int.log 10 |q| - 27)) * 10 ^ (Int.log 10 |q| - 27)

/-- `sum`: one after the other, from zero. -/
def contextSum (l : List ℚ) : ℚ := l.foldl (fun a q => decimalContext (a + q)) 0

/-- A result of at most 28 digits is not rounded. -/
theorem decimalContext_exact {n e : ℤ} (hn : |n| < 10 ^ 28) : decimalContext (n * 10 ^ e) = n * 10 ^ e := by
  unfold decimalContext
  by_cases h0 : (n : ℚ) * 10 ^ e = 0
  · rw [if_pos h0, h0]
  · rw [if_neg h0]
    have hten : (10 : ℚ) ≠ 0 := by norm_num
    have hbound : |(n : ℚ) * 10 ^ e| < ((10 : ℕ) : ℚ) ^ (28 + e) := by
      have hpos : (0 : ℚ) < 10 ^ e := zpow_pos (by norm_num) e
      have hn' : |(n : ℚ)| < 10 ^ (28 : ℤ) := by exact_mod_cast hn
      rw [abs_mul, abs_of_pos hpos, Nat.cast_ofNat, zpow_add₀ hten]
      exact mul_lt_mul_of_pos_right hn' hpos
    have hlog := (Int.lt_zpow_iff_log_lt (by norm_num) (abs_pos.2 h0)).1 hbound
    obtain ⟨m, hm⟩ : ∃ m : ℕ, e = Int.log 10 |(n : ℚ) * 10 ^ e| - 27 + m :=
      ⟨(e - (Int.log 10 |(n : ℚ) * 10 ^ e| - 27)).toNat, by omega⟩
    generalize Int.log 10 |(n : ℚ) * 10 ^ e| - 27 = u at hm
    subst hm
    have hunit : (n : ℚ) * 10 ^ (u + m) = ((n * 10 ^ m : ℤ) : ℚ) * 10 ^ u := by
      rw [zpow_add₀ hten, zpow_natCast]
      push_cast
      ring
    rw [hunit, mul_div_cancel_right₀ _ (zpow_ne_zero u hten), roundEven_int]

section
variable {s : ℕ} {q : ℚ} {l : List ℚ}

theorem decimalContext_of_atScale (h : AtScale s q) (hq : |q| * 10 ^ s < 10 ^ 28) : decimalContext q = q := by
  obtain ⟨n, hn⟩ := atScale_iff.1 h
  have hsmall : |n| < 10 ^ 28 := by
    have habs : |(n : ℚ)| < 10 ^ 28 := by
      rw [← hn, abs_mul, abs_of_pos (by positivity : (0 : ℚ) < 10 ^ s)]
      exact hq
    exact_mod_cast habs
  have heq : q = (n : ℚ) * 10 ^ (-(s : ℤ)) := by
    rw [← hn, zpow_neg, zpow_natCast]
    field_simp
  rw [heq]
  exact decimalContext_exact hsmall

/-- **Amounts of few decimals are added up exactly.** -/
theorem contextSum_eq (hs : ∀ x ∈ l, AtScale s x) (h0 : ∀ x ∈ l, 0 ≤ x) (hl : l.sum * 10 ^ s < 10 ^ 28) :
    contextSum l = l.sum := by
  have hfold : ∀ {l : List ℚ} {a : ℚ}, AtScale s a → 0 ≤ a → (∀ x ∈ l, AtScale s x) → (∀ x ∈ l, 0 ≤ x) →
      (a + l.sum) * 10 ^ s < 10 ^ 28 → l.foldl (fun a x => decimalContext (a + x)) a = a + l.sum := by
    intro l
    induction l with
    | nil =>
      intro a _ _ _ _ _
      simp
    | cons x l ih =>
      intro a ha ha0 hs h0 hl
      rw [List.sum_cons, ← add_assoc] at hl ⊢
      have hax : 0 ≤ a + x := add_nonneg ha0 (h0 x (by simp))
      have hrest : 0 ≤ l.sum := List.sum_nonneg fun y hy => h0 y (by simp [hy])
      have hscale : AtScale s (a + x) := ha.add (hs x (by simp))
      have hexact : decimalContext (a + x) = a + x := by
        refine decimalContext_of_atScale hscale ?_
        rw [abs_of_nonneg hax]
        exact lt_of_le_of_lt (mul_le_mul_of_nonneg_right (le_add_of_nonneg_right hrest) (by positivity)) hl
      rw [List.foldl_cons, hexact]
      exact ih hscale hax (fun y hy => hs y (by simp [hy])) (fun y hy => h0 y (by simp [hy])) hl
  have := hfold AtScale.zero le_rfl hs h0 (by rwa [zero_add])
  rwa [zero_add] at this

end

end Relational
