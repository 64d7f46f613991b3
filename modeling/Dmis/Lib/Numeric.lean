import Mathlib.Data.Rat.Floor
import Mathlib.Algebra.Order.Floor.Ring
import Mathlib.Algebra.Order.BigOperators.Group.List
import Mathlib.Tactic.Linarith
import Mathlib.Tactic.FieldSimp
import Mathlib.Tactic.Ring
import Mathlib.Tactic.Positivity
import Mathlib.Tactic.NormNum

/-!
# Fixed-scale decimals

A `numeric(p, s)` column stores a decimal with `s` fractional digits; a value with more is rounded
half away from zero when it is written. `AtScale s q` says that `q` is such a value, so that
writing it changes nothing.
-/

namespace Relational

/-- Nearest integer, halves away from zero. -/
def roundHalfAway (q : ℚ) : ℤ := if 0 ≤ q then ⌊q + 1 / 2⌋ else -⌊-q + 1 / 2⌋

/-- The value a `numeric(_, s)` column holds after `q` was written to it. -/
def numeric (s : ℕ) (q : ℚ) : ℚ := roundHalfAway (q * 10 ^ s) / 10 ^ s

/-- `q` fits a column of scale `s` without rounding. -/
def AtScale (s : ℕ) (q : ℚ) : Prop := numeric s q = q

instance (s : ℕ) (q : ℚ) : Decidable (AtScale s q) := inferInstanceAs (Decidable (_ = _))

theorem floor_half (n : ℤ) : ⌊(n : ℚ) + 1 / 2⌋ = n := by
  rw [Int.floor_eq_iff]; constructor <;> linarith

theorem roundHalfAway_int (n : ℤ) : roundHalfAway n = n := by
  unfold roundHalfAway
  split
  · exact floor_half n
  · have h := floor_half (-n)
    push_cast at h
    rw [h, neg_neg]

theorem atScale_iff {s : ℕ} {q : ℚ} : AtScale s q ↔ ∃ n : ℤ, q * 10 ^ s = n := by
  have hs : (10 : ℚ) ^ s ≠ 0 := by positivity
  unfold AtScale numeric
  constructor
  · intro h
    exact ⟨roundHalfAway (q * 10 ^ s), (eq_div_iff hs).1 h.symm⟩
  · rintro ⟨n, hn⟩
    rw [hn, roundHalfAway_int, ← hn]; field_simp

theorem numeric_atScale (s : ℕ) (q : ℚ) : AtScale s (numeric s q) := by
  have hs : (10 : ℚ) ^ s ≠ 0 := by positivity
  exact atScale_iff.2 ⟨roundHalfAway (q * 10 ^ s), by unfold numeric; field_simp⟩

/-- What is in a column fits it. -/
theorem numeric_numeric (s : ℕ) (q : ℚ) : numeric s (numeric s q) = numeric s q := numeric_atScale s q

namespace AtScale

variable {s : ℕ} {a b : ℚ}

theorem zero : AtScale s 0 := atScale_iff.2 ⟨0, by simp⟩

theorem add (ha : AtScale s a) (hb : AtScale s b) : AtScale s (a + b) := by
  obtain ⟨m, hm⟩ := atScale_iff.1 ha
  obtain ⟨n, hn⟩ := atScale_iff.1 hb
  exact atScale_iff.2 ⟨m + n, by rw [add_mul, hm, hn]; push_cast; rfl⟩

theorem sub (ha : AtScale s a) (hb : AtScale s b) : AtScale s (a - b) := by
  obtain ⟨m, hm⟩ := atScale_iff.1 ha
  obtain ⟨n, hn⟩ := atScale_iff.1 hb
  exact atScale_iff.2 ⟨m - n, by rw [sub_mul, hm, hn]; push_cast; rfl⟩

theorem min (ha : AtScale s a) (hb : AtScale s b) : AtScale s (min a b) := by
  rcases min_choice a b with h | h <;> rw [h] <;> assumption

theorem max (ha : AtScale s a) (hb : AtScale s b) : AtScale s (max a b) := by
  rcases max_choice a b with h | h <;> rw [h] <;> assumption

theorem mul {s' : ℕ} (ha : AtScale s a) (hb : AtScale s' b) : AtScale (s + s') (a * b) := by
  obtain ⟨m, hm⟩ := atScale_iff.1 ha
  obtain ⟨n, hn⟩ := atScale_iff.1 hb
  refine atScale_iff.2 ⟨m * n, ?_⟩
  push_cast
  rw [← hm, ← hn, pow_add]
  ring

theorem sum {l : List ℚ} (h : ∀ q ∈ l, AtScale s q) : AtScale s l.sum := by
  induction l with
  | nil => exact zero
  | cons q l ih =>
    rw [List.sum_cons]
    exact (h q (by simp)).add (ih fun r hr => h r (by simp [hr]))

/-- A decimal with fewer digits fits a column with more. -/
theorem mono {s' : ℕ} (hs : s ≤ s') (ha : AtScale s a) : AtScale s' a := by
  obtain ⟨m, hm⟩ := atScale_iff.1 ha
  obtain ⟨d, rfl⟩ := Nat.exists_eq_add_of_le hs
  exact atScale_iff.2 ⟨m * 10 ^ d, by rw [pow_add, ← mul_assoc, hm]; push_cast; rfl⟩

end AtScale

theorem roundHalfAway_mono {q r : ℚ} (h : q ≤ r) : roundHalfAway q ≤ roundHalfAway r := by
  unfold roundHalfAway
  split_ifs with hq hr hr
  · exact Int.floor_le_floor (by linarith)
  · linarith
  · have h1 : (0 : ℤ) ≤ ⌊-q + 1 / 2⌋ := Int.floor_nonneg.2 (by linarith)
    have h2 : (0 : ℤ) ≤ ⌊r + 1 / 2⌋ := Int.floor_nonneg.2 (by linarith)
    omega
  · have := Int.floor_le_floor (show -r + 1 / 2 ≤ -q + 1 / 2 by linarith)
    omega

theorem numeric_mono {s : ℕ} {q r : ℚ} (h : q ≤ r) : numeric s q ≤ numeric s r := by
  unfold numeric
  have hs : (0 : ℚ) < 10 ^ s := by positivity
  have := roundHalfAway_mono (mul_le_mul_of_nonneg_right h hs.le)
  gcongr

theorem numeric_zero (s : ℕ) : numeric s 0 = 0 := AtScale.zero

theorem roundHalfAway_near (q : ℚ) : |(roundHalfAway q : ℚ) - q| ≤ 1 / 2 := by
  unfold roundHalfAway
  split_ifs
  · have hle := Int.floor_le (q + 1 / 2)
    have hlt := Int.lt_floor_add_one (q + 1 / 2)
    rw [abs_le]
    constructor <;> linarith
  · have hle := Int.floor_le (-q + 1 / 2)
    have hlt := Int.lt_floor_add_one (-q + 1 / 2)
    push_cast
    rw [abs_le]
    constructor <;> linarith

/-- Rounding moves a value by at most half a unit. -/
theorem numeric_near (s : ℕ) (q : ℚ) : |numeric s q - q| * 10 ^ s ≤ 1 / 2 := by
  have hs : (0 : ℚ) < 10 ^ s := by positivity
  have hscaled : numeric s q * 10 ^ s = roundHalfAway (q * 10 ^ s) := div_mul_cancel₀ _ hs.ne'
  calc |numeric s q - q| * 10 ^ s = |(numeric s q - q) * 10 ^ s| := by rw [abs_mul, abs_of_pos hs]
    _ = |(roundHalfAway (q * 10 ^ s) : ℚ) - q * 10 ^ s| := by rw [sub_mul, hscaled]
    _ ≤ 1 / 2 := roundHalfAway_near _

/-- Values of a scale that are less than a unit apart are the same. -/
theorem AtScale.eq_of_near {s : ℕ} {a b : ℚ} (ha : AtScale s a) (hb : AtScale s b) (h : |a - b| * 10 ^ s < 1) :
    a = b := by
  have hs : (0 : ℚ) < 10 ^ s := by positivity
  obtain ⟨m, hm⟩ := atScale_iff.1 ha
  obtain ⟨n, hn⟩ := atScale_iff.1 hb
  rw [← abs_of_pos hs, ← abs_mul, sub_mul, hm, hn] at h
  have hint : |m - n| < 1 := by exact_mod_cast h
  have hmn : m = n := by
    have := abs_lt.1 hint
    omega
  exact mul_right_cancel₀ hs.ne' (hm.trans (hmn ▸ hn.symm))

/-- Two columns hold the same of a value exactly when the finer one needs no more decimals than the coarser. -/
theorem numeric_eq_iff {s s' : ℕ} (hs : s < s') (q : ℚ) : numeric s q = numeric s' q ↔ AtScale s (numeric s' q) := by
  refine ⟨fun h => h ▸ numeric_atScale s q, fun h => (numeric_atScale s q).eq_of_near h ?_⟩
  have hcoarse := numeric_near s q
  have hfine := numeric_near s' q
  have hpow : (10 : ℚ) ^ s * 10 ≤ 10 ^ s' := by
    rw [← pow_succ]
    exact pow_le_pow_right₀ (by norm_num) hs
  have hpos : (0 : ℚ) < 10 ^ s := by positivity
  have hnonneg := abs_nonneg (numeric s' q - q)
  have hfine' : |numeric s' q - q| * 10 ^ s ≤ 1 / 20 := by
    have := mul_le_mul_of_nonneg_left hpow hnonneg
    linarith
  have htri := mul_le_mul_of_nonneg_right (abs_sub_le (numeric s q) q (numeric s' q)) hpos.le
  rw [add_mul, abs_sub_comm q] at htri
  linarith

theorem numeric_nonneg {s : ℕ} {q : ℚ} (h : 0 ≤ q) : 0 ≤ numeric s q := by
  have := numeric_mono (s := s) h
  rwa [numeric_zero] at this

theorem pos_of_numeric_pos {s : ℕ} {x : ℚ} (h : 0 < numeric s x) : 0 < x := by
  by_contra hn
  have := numeric_mono (s := s) (not_lt.1 hn)
  rw [numeric_zero] at this
  exact absurd h (not_lt.2 this)

/-- Adding a value that is at scale commutes with rounding, on non-negative values. -/
theorem numeric_add {s : ℕ} {a q : ℚ} (ha : AtScale s a) (h0 : 0 ≤ a) (hq : 0 ≤ q) :
    numeric s (a + q) = a + numeric s q := by
  obtain ⟨m, hm⟩ := atScale_iff.1 ha
  have hs : (0 : ℚ) < 10 ^ s := by positivity
  have hq' : 0 ≤ q * 10 ^ s := by positivity
  have ha' : 0 ≤ a * 10 ^ s := by positivity
  have hfl : roundHalfAway ((a + q) * 10 ^ s) = m + roundHalfAway (q * 10 ^ s) := by
    unfold roundHalfAway
    rw [if_pos (by rw [add_mul]; linarith), if_pos hq', add_mul, hm, add_assoc, Int.floor_intCast_add]
  unfold numeric
  rw [hfl]
  push_cast
  rw [add_div, ← hm]
  field_simp

end Relational
