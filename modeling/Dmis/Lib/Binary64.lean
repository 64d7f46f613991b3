import Dmis.Lib.Numeric
import Mathlib.Data.Int.Log
import Mathlib.Data.Rat.Floor
import Mathlib.Tactic.Linarith
import Mathlib.Tactic.Positivity
import Mathlib.Tactic.Ring

/-!
# Binary64 values as rationals

`toBinary64 q` is the double nearest to `q`, ties to even, as a rational: a multiple of the unit in the last
place `2 ^ ulp q`. The exponent is not bounded above, so there is no overflow; below, the unit stops at the
subnormal `2 ^ -1074`. `shortest x` is the decimal that is printed for a double `x`: the fewest significant
digits that read back as `x`, and of those the nearest.

`toBinary64_idem` says that a double is its own nearest double, `toBinary64_shortest` that the printed decimal
reads back, and `shortest_toBinary64` that a decimal of 15 digits is printed as it was; so a column stores what was
read from one (`numeric_shortest`), unless it is too large.
-/

namespace Relational

/-- Nearest integer, ties to even. -/
def roundEven (q : ℚ) : ℤ :=
  if q - ⌊q⌋ < 1 / 2 then ⌊q⌋
  else if 1 / 2 < q - ⌊q⌋ then ⌊q⌋ + 1
  else if ⌊q⌋ % 2 = 0 then ⌊q⌋ else ⌊q⌋ + 1

/-- The exponent of the unit in the last place: 53 significant bits, at least `2 ^ -1074`. -/
def ulp (q : ℚ) : ℤ := max (Int.log 2 |q| - 52) (-1074)

def toBinary64 (q : ℚ) : ℚ := roundEven (q / 2 ^ ulp q) * 2 ^ ulp q

/-- The neighbours of `x` with `digits + 1` significant digits, the nearest first. -/
def neighbours (x : ℚ) (digits : ℕ) : List ℚ :=
  let unit : ℚ := 10 ^ (Int.log 10 |x| - digits)
  [roundEven (x / unit) * unit, ⌊x / unit⌋ * unit, ⌈x / unit⌉ * unit]

/-- The shortest decimal that reads back as the double `x`; 17 digits are always enough. -/
def shortest (x : ℚ) : ℚ := (((List.range 17).flatMap (neighbours x)).find? (toBinary64 · = x)).getD x

theorem roundEven_int (n : ℤ) : roundEven n = n := by
  unfold roundEven
  rw [Int.floor_intCast, if_pos (by simp)]

theorem roundEven_cases (q : ℚ) : roundEven q = ⌊q⌋ ∨ (roundEven q = ⌊q⌋ + 1 ∧ (⌊q⌋ : ℚ) < q) := by
  unfold roundEven
  split
  · exact .inl rfl
  · rename_i hlow
    have hlt : (⌊q⌋ : ℚ) < q := by linarith [not_lt.1 hlow]
    split
    · exact .inr ⟨rfl, hlt⟩
    · split
      · exact .inl rfl
      · exact .inr ⟨rfl, hlt⟩

theorem roundEven_le {q : ℚ} {n : ℤ} (h : q ≤ n) : roundEven q ≤ n := by
  have hfloor : ⌊q⌋ ≤ n := by
    have := (Int.floor_le q).trans h
    exact_mod_cast this
  rcases roundEven_cases q with hr | ⟨hr, hlt⟩
  · omega
  · have : ⌊q⌋ < n := by exact_mod_cast hlt.trans_le h
    omega

theorem le_roundEven {q : ℚ} {n : ℤ} (h : n ≤ q) : n ≤ roundEven q := by
  have hfloor : n ≤ ⌊q⌋ := Int.le_floor.2 h
  rcases roundEven_cases q with hr | ⟨hr, -⟩
  · omega
  · omega

theorem abs_roundEven_le {q : ℚ} {n : ℤ} (h : |q| ≤ n) : |roundEven q| ≤ n := by
  obtain ⟨hlo, hhi⟩ := abs_le.1 h
  refine abs_le.2 ⟨le_roundEven ?_, roundEven_le hhi⟩
  push_cast
  exact hlo

theorem two_zpow_ne_zero (e : ℤ) : (2 : ℚ) ^ e ≠ 0 := zpow_ne_zero e two_ne_zero

/-- An integral multiple of its own unit in the last place is a double. -/
theorem toBinary64_of_int {x : ℚ} {n : ℤ} (h : x = n * 2 ^ ulp x) : toBinary64 x = x := by
  have hn : x / 2 ^ ulp x = n := by
    rw [div_eq_iff (two_zpow_ne_zero _)]
    exact h
  unfold toBinary64
  rw [hn, roundEven_int]
  exact h.symm

theorem toBinary64_zero : toBinary64 0 = 0 := toBinary64_of_int (n := 0) (by simp)

/-- So is a multiple of a larger unit. -/
theorem toBinary64_of_le {x : ℚ} {n e : ℤ} (h : x = n * 2 ^ e) (he : ulp x ≤ e) : toBinary64 x = x := by
  refine toBinary64_of_int (n := n * 2 ^ (e - ulp x).toNat) ?_
  have hsplit : e = ((e - ulp x).toNat : ℤ) + ulp x := by omega
  calc x = n * 2 ^ e := h
    _ = n * (2 ^ ((e - ulp x).toNat : ℤ) * 2 ^ ulp x) := by rw [← zpow_add₀ two_ne_zero, ← hsplit]
    _ = ((n * 2 ^ (e - ulp x).toNat : ℤ) : ℚ) * 2 ^ ulp x := by push_cast; rw [zpow_natCast]; ring

theorem abs_lt_ulp (q : ℚ) : |q| < 2 ^ (ulp q + 53) := by
  have hlog : |q| < ((2 : ℕ) : ℚ) ^ (Int.log 2 |q| + 1) := Int.lt_zpow_succ_log_self one_lt_two |q|
  have hle : Int.log 2 |q| + 1 ≤ ulp q + 53 := by
    have : Int.log 2 |q| - 52 ≤ ulp q := le_max_left _ _
    omega
  calc |q| < 2 ^ (Int.log 2 |q| + 1) := by exact_mod_cast hlog
    _ ≤ 2 ^ (ulp q + 53) := zpow_le_zpow_right₀ one_le_two hle

theorem ulp_le {x : ℚ} {e : ℤ} (he : -1074 ≤ e) (h0 : x ≠ 0) (hx : |x| < 2 ^ (e + 53)) : ulp x ≤ e := by
  refine max_le ?_ he
  have hlog : Int.log 2 |x| < e + 53 :=
    (Int.lt_zpow_iff_log_lt one_lt_two (abs_pos.2 h0)).1 (by exact_mod_cast hx)
  omega

/-- 53 significant bits and an exponent in range make a double. -/
theorem toBinary64_of_bits {n e : ℤ} (hn : |n| < 2 ^ 53) (he : -1074 ≤ e) :
    toBinary64 (n * 2 ^ e) = n * 2 ^ e := by
  rcases eq_or_ne ((n : ℚ) * 2 ^ e) 0 with h0 | h0
  · rw [h0, toBinary64_zero]
  · refine toBinary64_of_le rfl (ulp_le he h0 ?_)
    have hn' : |(n : ℚ)| < 2 ^ (53 : ℤ) := by exact_mod_cast hn
    have hpos : (0 : ℚ) < 2 ^ e := zpow_pos two_pos e
    rw [abs_mul, abs_of_pos hpos, add_comm, zpow_add₀ two_ne_zero]
    exact mul_lt_mul_of_pos_right hn' hpos

/-- **A double is its own nearest double.** -/
theorem toBinary64_idem (q : ℚ) : toBinary64 (toBinary64 q) = toBinary64 q := by
  have he : -1074 ≤ ulp q := le_max_right _ _
  have hpos : (0 : ℚ) < 2 ^ ulp q := zpow_pos two_pos _
  have hle : |roundEven (q / 2 ^ ulp q)| ≤ 2 ^ 53 := by
    refine abs_roundEven_le ?_
    have h := abs_lt_ulp q
    rw [add_comm, zpow_add₀ two_ne_zero] at h
    rw [abs_div, abs_of_pos hpos, div_le_iff₀ hpos]
    exact_mod_cast h.le
  change toBinary64 (roundEven (q / 2 ^ ulp q) * 2 ^ ulp q) = roundEven (q / 2 ^ ulp q) * 2 ^ ulp q
  generalize roundEven (q / 2 ^ ulp q) = n at hle
  rcases hle.lt_or_eq with hlt | heq
  · exact toBinary64_of_bits hlt he
  · -- rounded up to a power of two: one bit fewer, the exponent one higher
    obtain ⟨m, hm, rfl⟩ : ∃ m : ℤ, |m| < 2 ^ 53 ∧ n = m * 2 := by
      rcases abs_eq (by norm_num) |>.1 heq with h | h
      · exact ⟨2 ^ 52, by norm_num, by omega⟩
      · exact ⟨-2 ^ 52, by norm_num, by omega⟩
    have hsucc : ((m * 2 : ℤ) : ℚ) * 2 ^ ulp q = m * 2 ^ (ulp q + 1) := by
      rw [zpow_add_one₀ two_ne_zero]
      push_cast
      ring
    rw [hsucc]
    exact toBinary64_of_bits hm (by omega)

/-- In the normal range a value is rounded to no less than the power of two below it. -/
theorem log_le_toBinary64 {c : ℚ} (hc : 0 < c) (hn : -1074 ≤ Int.log 2 |c| - 52) :
    (2 : ℚ) ^ Int.log 2 |c| ≤ toBinary64 c := by
  have hu : ulp c = Int.log 2 |c| - 52 := max_eq_left hn
  have hpos : (0 : ℚ) < 2 ^ ulp c := zpow_pos two_pos _
  have hsplit : (2 : ℚ) ^ Int.log 2 |c| = ((2 ^ 52 : ℤ) : ℚ) * 2 ^ ulp c := by
    rw [hu, show ((2 ^ 52 : ℤ) : ℚ) = 2 ^ (52 : ℤ) by norm_cast, ← zpow_add₀ two_ne_zero, add_sub_cancel]
  have hlog : (2 : ℚ) ^ Int.log 2 |c| ≤ c := by
    have := Int.zpow_log_le_self (b := 2) one_lt_two (abs_pos.2 hc.ne')
    rw [abs_of_pos hc] at this ⊢
    exact_mod_cast this
  have hbits : ((2 ^ 52 : ℤ) : ℚ) ≤ c / 2 ^ ulp c := by rwa [le_div_iff₀ hpos, ← hsplit]
  have hround : ((2 ^ 52 : ℤ) : ℚ) ≤ roundEven (c / 2 ^ ulp c) := by exact_mod_cast le_roundEven hbits
  rw [hsplit]
  exact mul_le_mul_of_nonneg_right hround hpos.le

theorem roundEven_mono {x y : ℚ} (h : x ≤ y) : roundEven x ≤ roundEven y := by
  rcases (Int.floor_le_floor h).lt_or_eq with hlt | heq
  · rcases roundEven_cases x with hx | ⟨hx, -⟩ <;> rcases roundEven_cases y with hy | ⟨hy, -⟩ <;> omega
  · have hfract : x - ⌊x⌋ ≤ y - ⌊y⌋ := by
      rw [heq]
      linarith
    unfold roundEven
    rw [heq] at hfract ⊢
    split_ifs <;> first | omega | (exfalso; linarith)

/-- **Rounding is monotone.** -/
theorem toBinary64_mono {x y : ℚ} (hx : 0 ≤ x) (h : x ≤ y) : toBinary64 x ≤ toBinary64 y := by
  have hpos : ∀ q, (0 : ℚ) < 2 ^ ulp q := fun q => zpow_pos two_pos _
  rcases hx.eq_or_lt with rfl | hx
  · rw [toBinary64_zero]
    refine mul_nonneg ?_ (hpos y).le
    exact_mod_cast le_roundEven (n := 0) (by exact_mod_cast div_nonneg h (hpos y).le)
  · have hlog : Int.log 2 |x| ≤ Int.log 2 |y| := by
      rw [abs_of_pos hx, abs_of_pos (hx.trans_le h)]
      exact Int.log_mono_right hx h
    have hulp : ulp x ≤ ulp y := max_le_max (by omega) le_rfl
    rcases hulp.eq_or_lt with heq | hlt
    · unfold toBinary64
      rw [heq]
      refine mul_le_mul_of_nonneg_right ?_ (hpos y).le
      exact_mod_cast roundEven_mono (div_le_div_of_nonneg_right h (hpos y).le)
    · -- the power of two between the two units separates them
      have hbits : roundEven (x / 2 ^ ulp x) ≤ 2 ^ 53 := by
        refine roundEven_le ?_
        have hx' := abs_lt_ulp x
        rw [abs_of_pos hx, add_comm, zpow_add₀ two_ne_zero] at hx'
        rw [div_le_iff₀ (hpos x)]
        exact_mod_cast hx'.le
      have hnormal : -1074 ≤ Int.log 2 |y| - 52 := by
        have : -1074 ≤ ulp x := le_max_right _ _
        by_contra hsub
        rw [ulp, ulp, max_eq_right (not_le.1 hsub).le] at hlt
        exact absurd (le_max_right _ _) hlt.not_ge
      have hy : ulp y = Int.log 2 |y| - 52 := max_eq_left hnormal
      calc toBinary64 x ≤ ((2 ^ 53 : ℤ) : ℚ) * 2 ^ ulp x :=
            mul_le_mul_of_nonneg_right (by exact_mod_cast hbits) (hpos x).le
        _ = 2 ^ (53 + ulp x) := by
            rw [zpow_add₀ two_ne_zero]
            norm_cast
        _ ≤ 2 ^ Int.log 2 |y| := zpow_le_zpow_right₀ one_le_two (by omega)
        _ ≤ toBinary64 y := log_le_toBinary64 (hx.trans_le h) hnormal

/-- **The printed decimal reads back.** -/
theorem toBinary64_shortest {x : ℚ} (h : toBinary64 x = x) : toBinary64 (shortest x) = x := by
  unfold shortest
  cases hf : ((List.range 17).flatMap (neighbours x)).find? (toBinary64 · = x) with
  | none => exact h
  | some d =>
    have hd := List.find?_some hf
    exact of_decide_eq_true hd

theorem neighbours_nonneg {x c : ℚ} {digits : ℕ} (hx : 0 ≤ x) (h : c ∈ neighbours x digits) : 0 ≤ c := by
  have hunit : (0 : ℚ) < 10 ^ (Int.log 10 |x| - digits) := zpow_pos (by norm_num) _
  have hquot : 0 ≤ x / 10 ^ (Int.log 10 |x| - digits) := div_nonneg hx hunit.le
  simp only [neighbours, List.mem_cons, List.not_mem_nil, or_false] at h
  rcases h with rfl | rfl | rfl
  · exact mul_nonneg (by exact_mod_cast le_roundEven (n := 0) (by exact_mod_cast hquot)) hunit.le
  · exact mul_nonneg (by exact_mod_cast Int.floor_nonneg.2 hquot) hunit.le
  · exact mul_nonneg (by exact_mod_cast Int.ceil_nonneg hquot) hunit.le

theorem shortest_nonneg {x : ℚ} (hx : 0 ≤ x) : 0 ≤ shortest x := by
  unfold shortest
  cases hf : ((List.range 17).flatMap (neighbours x)).find? (toBinary64 · = x) with
  | none => exact hx
  | some d =>
    obtain ⟨_, -, hd⟩ := List.mem_flatMap.1 (List.mem_of_find?_eq_some hf)
    exact neighbours_nonneg hx hd

/-! ## Fifteen digits -/

/-- A decimal with at most 15 significant digits, the last of them not below `10 ^ -307`. -/
def FifteenDigits (q : ℚ) : Prop := ∃ n s : ℤ, |n| < 10 ^ 15 ∧ -307 ≤ s ∧ q = n * 10 ^ s

theorem roundEven_near (q : ℚ) : |roundEven q - q| ≤ 1 / 2 := by
  have hlo := Int.floor_le q
  have hhi := Int.lt_floor_add_one q
  unfold roundEven
  split_ifs with h1 h2 h3 <;> push_cast <;> rw [abs_le] <;> constructor <;> linarith

theorem roundEven_eq {q : ℚ} {n : ℤ} (h : |q - n| < 1 / 2) : roundEven q = n := by
  have hlt : |(roundEven q : ℚ) - n| < 1 := by
    have htri := abs_add_le ((roundEven q : ℚ) - q) (q - n)
    have hnear := roundEven_near q
    rw [sub_add_sub_cancel] at htri
    linarith
  have hint : |roundEven q - n| < 1 := by exact_mod_cast hlt
  have := abs_lt.1 hint
  omega

/-- A double in the normal range is close to what it is nearest to. -/
theorem toBinary64_near {c x : ℚ} (hc : 0 < c) (hx : toBinary64 c = x) (hmin : (2 : ℚ) ^ (-1022 : ℤ) ≤ x) :
    |x - c| ≤ x / 2 ^ 53 := by
  have hpos : (0 : ℚ) < 2 ^ ulp c := zpow_pos two_pos _
  have hhalf : |x - c| ≤ 2 ^ (ulp c - 1) := by
    have heq : x - c = (roundEven (c / 2 ^ ulp c) - c / 2 ^ ulp c) * 2 ^ ulp c := by
      rw [sub_mul, div_mul_cancel₀ _ hpos.ne', ← hx]
      rfl
    rw [heq, abs_mul, abs_of_pos hpos, zpow_sub_one₀ two_ne_zero]
    have := mul_le_mul_of_nonneg_right (roundEven_near (c / 2 ^ ulp c)) hpos.le
    linarith
  have hle : (2 : ℚ) ^ (ulp c + 52) ≤ x := by
    rcases le_total (Int.log 2 |c| - 52) (-1074) with hsub | hnorm
    · rw [ulp, max_eq_right hsub]
      exact hmin
    · rw [ulp, max_eq_left hnorm, sub_add_cancel, ← hx]
      exact log_le_toBinary64 hc hnorm
  calc |x - c| ≤ 2 ^ (ulp c - 1) := hhalf
    _ = 2 ^ (ulp c + 52) / 2 ^ (53 : ℤ) := by rw [← zpow_sub₀ two_ne_zero]; ring_nf
    _ ≤ x / 2 ^ (53 : ℤ) := div_le_div_of_nonneg_right hle (by norm_num)
    _ = x / 2 ^ 53 := by norm_cast

/-- A positive decimal of 15 digits is in the normal range. -/
theorem FifteenDigits.normal {q : ℚ} (hq : 0 < q) (h : FifteenDigits q) : (2 : ℚ) ^ (-1022 : ℤ) ≤ toBinary64 q := by
  have hmin : (2 : ℚ) ^ (-1022 : ℤ) ≤ q := by
    obtain ⟨n, s, -, hs, rfl⟩ := h
    have hten : (0 : ℚ) < 10 ^ s := zpow_pos (by norm_num) s
    have hn : 0 < n := by exact_mod_cast pos_of_mul_pos_left hq hten.le
    have hrange : (10 : ℚ) ^ (307 : ℤ) ≤ 2 ^ (1022 : ℤ) := by
      have : 10 ^ 307 ≤ 2 ^ 1022 := by decide +kernel
      exact_mod_cast this
    calc (2 : ℚ) ^ (-1022 : ℤ) ≤ 10 ^ (-307 : ℤ) := by
          rw [zpow_neg, zpow_neg]
          exact inv_anti₀ (zpow_pos (by norm_num) _) hrange
      _ ≤ 10 ^ s := zpow_le_zpow_right₀ (by norm_num) hs
      _ ≤ n * 10 ^ s := le_mul_of_one_le_left hten.le (by exact_mod_cast hn)
  have hlog : -1022 ≤ Int.log 2 |q| := by
    rw [abs_of_pos hq]
    exact (Int.zpow_le_iff_le_log one_lt_two hq).1 (by exact_mod_cast hmin)
  exact (zpow_le_zpow_right₀ one_le_two hlog).trans (log_le_toBinary64 hq (by omega))

/-- What is printed with at most 15 digits is a multiple of the unit of the fifteenth. -/
theorem neighbours_multiple {x c : ℚ} {digits : ℕ} (hd : digits < 15) (hx : 0 < x) (h : c ∈ neighbours x digits) :
    0 ≤ c ∧ ∃ m : ℤ, c = m * 10 ^ (Int.log 10 |x| - 14) := by
  have hunit : (0 : ℚ) < 10 ^ (Int.log 10 |x| - digits) := zpow_pos (by norm_num) _
  have hquot : 0 ≤ x / 10 ^ (Int.log 10 |x| - digits) := (div_pos hx hunit).le
  have hsplit : (10 : ℚ) ^ (Int.log 10 |x| - digits) = ((10 ^ (14 - digits) : ℤ) : ℚ) * 10 ^ (Int.log 10 |x| - 14) := by
    push_cast
    rw [← zpow_natCast, ← zpow_add₀ (by norm_num)]
    congr 1
    omega
  obtain ⟨k, hk, rfl⟩ : ∃ k : ℤ, 0 ≤ k ∧ c = k * 10 ^ (Int.log 10 |x| - digits) := by
    simp only [neighbours, List.mem_cons, List.not_mem_nil, or_false] at h
    rcases h with rfl | rfl | rfl
    · exact ⟨_, le_roundEven (by exact_mod_cast hquot), rfl⟩
    · exact ⟨_, Int.floor_nonneg.2 hquot, rfl⟩
    · exact ⟨_, Int.ceil_nonneg hquot, rfl⟩
  refine ⟨mul_nonneg (by exact_mod_cast hk) hunit.le, k * 10 ^ (14 - digits), ?_⟩
  rw [hsplit]
  push_cast
  ring

/-- So is a decimal of 15 digits near `x`. -/
theorem FifteenDigits.multiple {q x : ℚ} (hq : 0 < q) (h : FifteenDigits q) (hx : 0 < x)
    (hnear : |x - q| ≤ x / 2 ^ 53) : ∃ m : ℤ, q = m * 10 ^ (Int.log 10 |x| - 14) := by
  obtain ⟨n, s, hn, -, rfl⟩ := h
  have hlog : (10 : ℚ) ^ Int.log 10 |x| ≤ x := by
    have := Int.zpow_log_le_self (b := 10) (by norm_num) (abs_pos.2 hx.ne')
    rw [abs_of_pos hx] at this ⊢
    exact_mod_cast this
  rcases le_or_gt (Int.log 10 |x| - 14) s with hs | hs
  · refine ⟨n * 10 ^ (s - (Int.log 10 |x| - 14)).toNat, ?_⟩
    push_cast
    rw [← zpow_natCast, Int.toNat_of_nonneg (by omega), mul_assoc, ← zpow_add₀ (by norm_num), sub_add_cancel]
  · -- a power of ten lies between the two, and fifteen nines are further from it than that
    exfalso
    have hle : (n : ℚ) * 10 ^ s ≤ (10 ^ 15 - 1) * 10 ^ (Int.log 10 |x| - 15) := by
      have hn' : (n : ℚ) ≤ 10 ^ 15 - 1 := by
        have : n ≤ 10 ^ 15 - 1 := by have := (abs_lt.1 hn).2; omega
        exact_mod_cast this
      have hs' : (10 : ℚ) ^ s ≤ 10 ^ (Int.log 10 |x| - 15) := zpow_le_zpow_right₀ (by norm_num) (by omega)
      exact mul_le_mul hn' hs' (zpow_pos (by norm_num) _).le (by norm_num)
    have hnines : (10 ^ 15 - 1) * (10 : ℚ) ^ (Int.log 10 |x| - 15) = (1 - 1 / 10 ^ 15) * 10 ^ Int.log 10 |x| := by
      rw [zpow_sub₀ (by norm_num), show (10 : ℚ) ^ (15 : ℤ) = 10 ^ 15 by norm_cast]
      field_simp
    have hlow := (abs_le.1 hnear).2
    have hpow := mul_le_mul_of_nonneg_left hlog (show (0 : ℚ) ≤ 1 - 1 / 10 ^ 15 by norm_num)
    rw [hnines] at hle
    linarith

/-- **A decimal of 15 digits is printed as it was.** -/
theorem shortest_toBinary64 {q : ℚ} (hq : 0 < q) (h : FifteenDigits q) : shortest (toBinary64 q) = q := by
  have hmin := h.normal hq
  have hx : 0 < toBinary64 q := (zpow_pos two_pos _).trans_le hmin
  have hnear := toBinary64_near hq rfl hmin
  obtain ⟨m, hm⟩ := h.multiple hq hx hnear
  have hself : toBinary64 (toBinary64 q) = toBinary64 q := toBinary64_idem q
  generalize hxq : toBinary64 q = x at hmin hx hnear hm hself ⊢
  set u : ℚ := 10 ^ (Int.log 10 |x| - 14) with hu
  have hupos : 0 < u := zpow_pos (by norm_num) _
  have hxu : 2 * (x / 2 ^ 53) < u := by
    have hlt : x < 10 ^ (Int.log 10 |x| + 1) := by
      have := Int.lt_zpow_succ_log_self (b := 10) (by norm_num) |x|
      rw [abs_of_pos hx] at this ⊢
      exact_mod_cast this
    have hten : (10 : ℚ) ^ (Int.log 10 |x| + 1) = u * 10 ^ 15 := by
      rw [hu, ← zpow_natCast, ← zpow_add₀ (by norm_num)]
      congr 1
      push_cast
      ring
    rw [hten] at hlt
    linarith
  -- two multiples of the unit that close to `x` are the same
  have hsame : ∀ c, 0 ≤ c → toBinary64 c = x → (∃ k : ℤ, c = k * u) → c = q := by
    rintro c hc hcx ⟨k, rfl⟩
    have hcpos : 0 < k * u := by
      refine hc.lt_of_ne fun h0 => ?_
      rw [← h0, toBinary64_zero] at hcx
      exact hx.ne hcx
    have hclose := toBinary64_near hcpos hcx hmin
    have hlt : |(k * u) - q| < u := by
      have htri := abs_sub_le (k * u) x q
      rw [abs_sub_comm (k * u : ℚ) x] at htri
      linarith
    rw [hm, ← sub_mul, abs_mul, abs_of_pos hupos, mul_lt_iff_lt_one_left hupos] at hlt
    have hint : |k - m| < 1 := by exact_mod_cast hlt
    have := abs_lt.1 hint
    rw [hm, show k = m by omega]
  have hmem : q ∈ neighbours x 14 := by
    have hround : roundEven (x / u) = m := by
      refine roundEven_eq ?_
      rw [show x / u - m = (x - q) / u by rw [hm]; field_simp, abs_div, abs_of_pos hupos, div_lt_iff₀ hupos]
      linarith
    simp only [neighbours, Nat.cast_ofNat, ← hu, hround, ← hm, List.mem_cons, true_or]
  have hfirst : ∃ c, ((List.range 15).flatMap (neighbours x)).find? (toBinary64 · = x) = some c := by
    refine Option.isSome_iff_exists.1 (List.find?_isSome.2 ⟨q, ?_, by simpa using hxq⟩)
    exact List.mem_flatMap.2 ⟨14, by simp, hmem⟩
  obtain ⟨c, hc⟩ := hfirst
  have hcx : toBinary64 c = x := by simpa using List.find?_some hc
  obtain ⟨d, hd, hcd⟩ := List.mem_flatMap.1 (List.mem_of_find?_eq_some hc)
  obtain ⟨hc0, hk⟩ := neighbours_multiple (List.mem_range.1 hd) hx hcd
  have hsplit : List.range 17 = List.range 15 ++ [15, 16] := rfl
  rw [shortest, hsplit, List.flatMap_append, List.find?_append, hc]
  exact hsame c hc0 hcx hk

/-! ## Columns -/

/-- A decimal with few enough digits, at the scale of a column. -/
theorem fifteenDigits_of_scale {s : ℕ} {q : ℚ} (hs : s ≤ 307) (h : AtScale s q) (h0 : 0 ≤ q)
    (hlt : q * 10 ^ s < 10 ^ 15) : FifteenDigits q := by
  obtain ⟨n, hn⟩ := atScale_iff.1 h
  refine ⟨n, -(s : ℤ), abs_lt.2 ⟨?_, ?_⟩, by omega, ?_⟩
  · have : (0 : ℚ) ≤ n := hn ▸ mul_nonneg h0 (by positivity)
    have : 0 ≤ n := by exact_mod_cast this
    omega
  · have : (n : ℚ) < 10 ^ 15 := hn ▸ hlt
    exact_mod_cast this
  · rw [← hn, zpow_neg, zpow_natCast]
    field_simp

theorem toBinary64_nonpos {q : ℚ} (h : q ≤ 0) : toBinary64 q ≤ 0 := by
  have hpos : (0 : ℚ) < 2 ^ ulp q := zpow_pos two_pos _
  refine mul_nonpos_of_nonpos_of_nonneg ?_ hpos.le
  have hround : roundEven (q / 2 ^ ulp q) ≤ 0 :=
    roundEven_le (by exact_mod_cast div_nonpos_of_nonpos_of_nonneg h hpos.le)
  exact_mod_cast hround

/-- No positive value of a column is rounded to zero. -/
theorem toBinary64_pos_of_scale {s : ℕ} {q : ℚ} (hs : s ≤ 307) (h : AtScale s q) (hq : 0 < q) : 0 < toBinary64 q := by
  obtain ⟨n, hn⟩ := atScale_iff.1 h
  have hten : (0 : ℚ) < 10 ^ s := by positivity
  have hone : 1 ≤ n := by
    have : (0 : ℚ) < n := hn ▸ mul_pos hq hten
    exact_mod_cast this
  have hunit : (0 : ℚ) < 10 ^ (-(s : ℤ)) := zpow_pos (by norm_num) _
  have hle : (10 : ℚ) ^ (-(s : ℤ)) ≤ q := by
    have hone' : (1 : ℚ) ≤ q * 10 ^ s := hn ▸ (by exact_mod_cast hone)
    rw [zpow_neg, zpow_natCast]
    exact inv_le_of_inv_le₀ hq (by rwa [inv_le_iff_one_le_mul₀ hq, mul_comm])
  have hdigits : FifteenDigits (10 ^ (-(s : ℤ))) := ⟨1, -(s : ℤ), by norm_num, by omega, by simp⟩
  exact ((zpow_pos two_pos _).trans_le (hdigits.normal hunit)).trans_le (toBinary64_mono hunit.le hle)

/-- What is printed for a double is no less than a double of 15 digits below it. -/
theorem le_shortest {x d : ℚ} (hx : toBinary64 x = x) (hd : toBinary64 d = d) (h0 : 0 < d) (hdigits : FifteenDigits d)
    (h : d ≤ x) : d ≤ shortest x := by
  by_contra hlt
  have hle := toBinary64_mono (shortest_nonneg (h0.le.trans h)) (not_le.1 hlt).le
  rw [toBinary64_shortest hx, hd] at hle
  have hsame : x = toBinary64 d := (le_antisymm hle h).trans hd.symm
  rw [hsame, shortest_toBinary64 h0 hdigits] at hlt
  exact hlt le_rfl

/-- **A column stores the decimal a double was read from**, if what it stores is in range. -/
theorem numeric_shortest {s : ℕ} {q b : ℚ} (hs : s ≤ 307) (h : AtScale s q) (hq : 0 < q) (hb : AtScale s b)
    (hb0 : 0 < b) (hdouble : toBinary64 b = b) (hdigits : FifteenDigits b) (hrange : b * 10 ^ s ≤ 10 ^ 15)
    (hfits : numeric s (shortest (toBinary64 q)) < b) : numeric s (shortest (toBinary64 q)) = q := by
  rcases lt_or_ge q b with hlt | hge
  · have hsmall : q * 10 ^ s < 10 ^ 15 := (mul_lt_mul_of_pos_right hlt (by positivity)).trans_le hrange
    rw [shortest_toBinary64 hq (fifteenDigits_of_scale hs h hq.le hsmall)]
    exact h
  · have hle : b ≤ toBinary64 q := hdouble ▸ toBinary64_mono hb0.le hge
    have hprinted := numeric_mono (s := s) (le_shortest (toBinary64_idem q) hdouble hb0 hdigits hle)
    rw [hb] at hprinted
    exact absurd hfits (not_lt.2 hprinted)

end Relational
