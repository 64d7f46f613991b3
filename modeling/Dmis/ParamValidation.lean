import Dmis.Donations
import Dmis.Lib.PythonText

/-!
# Numbers in forms

Every quantity and cost a form posts is read by `safe_decimal` or one of its two applications
(`app/security/param_validation.py`). The conversion is guarded, the comparison with the bounds is not.

| here | there |
| --- | --- |
| `decimal?` | `Decimal(text)` |
| `PyDecimal.lt` | `<` between decimals, under the default context |
| `safeDecimal` | `safe_decimal` (`:85-112`) |
| `safeQuantity`, `safeAmount` | `safe_quantity`, `safe_amount` (`:227-258`) |

Main theorem `numeric_input_tamed`: what the three return is finite, within the bounds and the number typed
exactly when the text is no NaN, names no infinity that is itself a bound, and no number within the bounds that
the conversion refuses for its exponent.
-/

namespace Dmis

open Relational Python

/-! ## Decimals -/

namespace PyDecimal

/-- A comparison with a NaN raises. -/
def lt : PyDecimal → PyDecimal → Except Err Bool
  | .nan, _ | _, .nan => .error .notANumber
  | .finite a, .finite b => .ok (a < b)
  | .finite _, .infinity negative => .ok !negative
  | .infinity negative, .finite _ => .ok negative
  | .infinity a, .infinity b => .ok (a && !b)

/-- `a <= b`, which a NaN never is. -/
def Le (a b : PyDecimal) : Prop := b.lt a = .ok false

instance (a b : PyDecimal) : Decidable (a.Le b) := by unfold Le; infer_instance

theorem not_le_nan (a : PyDecimal) : ¬ a.Le .nan := by cases a <;> rintro ⟨⟩

theorem not_nan_le (a : PyDecimal) : ¬ PyDecimal.nan.Le a := by cases a <;> rintro ⟨⟩

@[simp] theorem finite_le_finite {a b : ℚ} : (PyDecimal.finite a).Le (.finite b) ↔ a ≤ b := by
  simp [Le, lt]

theorem Le.refl {a : PyDecimal} (h : a ≠ .nan) : a.Le a := by
  rcases a with a | a | _ <;> simp_all [Le, lt]

theorem Le.trans {a b c : PyDecimal} (hab : a.Le b) (hbc : b.Le c) : a.Le c := by
  rcases a with a | a | _ <;> rcases b with b | b | _ <;> rcases c with c | c | _ <;> simp_all [Le, lt]
  exact hab.trans hbc

/-- Two decimals that are no NaN compare one way or the other. -/
theorem lt_or_le {a b : PyDecimal} (ha : a ≠ .nan) (hb : b ≠ .nan) : a.lt b = .ok true ∨ b.Le a := by
  rcases a with a | a | _ <;> rcases b with b | b | _ <;> simp_all [Le, lt]
  · exact lt_or_ge a b

/-- A decimal below another lies under everything from there on. -/
theorem Le.of_lt {a b : PyDecimal} (h : a.lt b = .ok true) : a.Le b := by
  rcases a with a | a | _ <;> rcases b with b | b | _ <;> simp_all [Le, lt]
  exact h.le

theorem not_le_of_lt {a b : PyDecimal} (h : a.lt b = .ok true) : ¬ b.Le a := by
  unfold Le
  rw [h]
  simp

end PyDecimal

/-- The number lies within the bounds. -/
def InBounds (lo hi : PyDecimal) (q : ℚ) : Prop := lo.Le (.finite q) ∧ (PyDecimal.finite q).Le hi

namespace ParamValidation

/-- `Decimal(text)`; `none` where it raises. -/
def decimal? (s : List Char) : Option PyDecimal :=
  match literal? s with
  | some (.numeral n) => if n.Exact then some (.finite n.value) else none
  | some (.infinity negative) => some (.infinity negative)
  | some .nan => some .nan
  | none => none

/-- `Decimal(default)`, unguarded. -/
def fallback (default : List Char) : Except Err PyDecimal :=
  match decimal? default with
  | some d => .ok d
  | none => .error .notANumber

def atLeast (minVal : Option PyDecimal) (result : PyDecimal) : Except Err PyDecimal :=
  match minVal with
  | none => .ok result
  | some m => do if ← result.lt m then pure m else pure result

def atMost (maxVal : Option PyDecimal) (result : PyDecimal) : Except Err PyDecimal :=
  match maxVal with
  | none => .ok result
  | some m => do if ← m.lt result then pure m else pure result

def safeDecimal (value : Option (List Char)) (default : List Char) (minVal maxVal : Option PyDecimal) :
    Except Err PyDecimal :=
  match value with
  | none => fallback default
  | some s =>
    if strip s = [] then fallback default
    else
      match decimal? (strip s) with
      | none => fallback default
      | some result => do
        let result ← atLeast minVal result
        atMost maxVal result

/-- With its defaults, as every form calls it. -/
def safeQuantity (value : Option (List Char)) : Except Err PyDecimal :=
  safeDecimal value "0".toList (some (.finite 0)) (some (.finite maxQty))

def safeAmount (value : Option (List Char)) : Except Err PyDecimal :=
  safeDecimal value "0.00".toList (some (.finite 0)) (some (.finite maxAmount))

/-! ## What the text denotes -/

theorem decimal?_strip (s : List Char) : decimal? (strip s) = decimal? s := by
  unfold decimal?
  rw [literal?_strip]

theorem decimal?_finite {s : List Char} {q : ℚ} :
    decimal? s = some (.finite q) ↔ ∃ n, literal? s = some (.numeral n) ∧ n.Exact ∧ n.value = q := by
  unfold decimal?
  split
  · rename_i n h
    by_cases hn : n.Exact <;> simp [h, hn]
  all_goals simp_all

theorem decimal?_infinity {s : List Char} {negative : Bool} :
    decimal? s = some (.infinity negative) ↔ literal? s = some (.infinity negative) := by
  unfold decimal?
  split
  · split <;> simp_all
  all_goals simp_all

theorem decimal?_nan {s : List Char} : decimal? s = some .nan ↔ literal? s = some .nan := by
  unfold decimal?
  split
  · split <;> simp_all
  all_goals simp_all

theorem decimal?_blank {s : List Char} (h : strip s = []) : decimal? s = none := by
  rw [← decimal?_strip, h]
  rfl

theorem decimal?_zero : decimal? "0".toList = some (.finite 0) := by decide +kernel

theorem decimal?_zeroAmount : decimal? "0.00".toList = some (.finite 0) := by decide +kernel

/-- With a default that is a decimal, only the comparisons can raise. -/
theorem safeDecimal_eq {default : List Char} {d : PyDecimal} (hd : decimal? default = some d) (lo hi : PyDecimal)
    (s : List Char) :
    safeDecimal (some s) default (some lo) (some hi) =
      match decimal? s with
      | none => .ok d
      | some r => (atLeast (some lo) r).bind (atMost (some hi)) := by
  have hf : fallback default = .ok d := by rw [fallback, hd]
  simp only [safeDecimal, hf, decimal?_strip]
  by_cases hs : strip s = []
  · rw [if_pos hs, decimal?_blank hs]
  · rw [if_neg hs]
    cases decimal? s <;> rfl

theorem numeral_of_decimal? {s : List Char} {r : PyDecimal} {n : Numeral} (hr : decimal? s = some r)
    (hn : literal? s = some (.numeral n)) : n.Exact ∧ r = .finite n.value := by
  unfold decimal? at hr
  rw [hn] at hr
  dsimp only at hr
  split at hr
  · exact ⟨‹_›, (Option.some.inj hr).symm⟩
  · cases hr

/-! ## The comparison with the bounds -/

section Clamp

variable {lo hi r : PyDecimal}

/-- The two comparisons of `safe_decimal`. -/
def clamped (lo hi r : PyDecimal) : Except Err PyDecimal := (atLeast (some lo) r).bind (atMost (some hi))

theorem atLeast_of_le (h : lo.Le r) : atLeast (some lo) r = .ok r := by
  simp only [atLeast, show r.lt lo = .ok false from h]
  rfl

theorem atMost_of_le (h : r.Le hi) : atMost (some hi) r = .ok r := by
  simp only [atMost, show hi.lt r = .ok false from h]
  rfl

theorem clamped_within (hlo : lo.Le r) (hhi : r.Le hi) : clamped lo hi r = .ok r := by
  rw [clamped, atLeast_of_le hlo]
  exact atMost_of_le hhi

theorem clamped_below (hle : lo.Le hi) (h : r.lt lo = .ok true) : clamped lo hi r = .ok lo := by
  have hraise : atLeast (some lo) r = .ok lo := by
    simp only [atLeast, h]
    rfl
  rw [clamped, hraise]
  exact atMost_of_le hle

theorem clamped_above (hle : lo.Le hi) (h : hi.lt r = .ok true) : clamped lo hi r = .ok hi := by
  rw [clamped, atLeast_of_le (hle.trans (.of_lt h))]
  show atMost (some hi) r = .ok hi
  simp only [atMost, h]
  rfl

/-- **The comparison outside the guard**: a NaN gets through the conversion and raises here. -/
theorem clamped_nan : clamped lo hi .nan = .error .notANumber := rfl

/-- A bound that a decimal falls short of is a number as soon as there is a number within the bounds. -/
theorem lo_finite_of_below (h : r.lt lo = .ok true) {x : ℚ} (hx : InBounds lo hi x) : ∃ q, lo = .finite q := by
  rcases lo with q | neg | _
  · exact ⟨q, rfl⟩
  · cases neg with
    | true => rcases r with q | neg | _ <;> simp [PyDecimal.lt] at h
    | false => cases hx.1
  · exact absurd hx.1 (PyDecimal.not_nan_le _)

theorem hi_finite_of_above (h : hi.lt r = .ok true) {x : ℚ} (hx : InBounds lo hi x) : ∃ q, hi = .finite q := by
  rcases hi with q | neg | _
  · exact ⟨q, rfl⟩
  · cases neg with
    | true => cases hx.2
    | false => rcases r with q | neg | _ <;> simp [PyDecimal.lt] at h
  · exact absurd hx.2 (PyDecimal.not_le_nan _)

end Clamp

/-! ## Tamed input -/

/-- What the readers of numbers promise: a number within the bounds, the one typed if that lies within them. -/
structure Tamed (lo hi : PyDecimal) (s : List Char) (r : Except Err PyDecimal) : Prop where
  bounded : ∃ q, r = .ok (.finite q) ∧ InBounds lo hi q
  exact : ∀ q, denotes s = some q → InBounds lo hi q → r = .ok (.finite q)

/-- The texts the promise is kept for, with the default `d`. -/
structure Tameable (d lo hi : PyDecimal) (s : List Char) : Prop where
  notNan : literal? s ≠ some .nan
  room : ∃ q, InBounds lo hi q
  default : decimal? s = none → ∃ q, d = .finite q
  infinity : ∀ negative, literal? s = some (.infinity negative) →
    ¬ (lo.Le (.infinity negative) ∧ (PyDecimal.infinity negative).Le hi)
  exponent : ∀ n, literal? s = some (.numeral n) → InBounds lo hi n.value → n.Exact ∨ d = .finite n.value

section

variable {d lo hi r : PyDecimal} {s : List Char}

/-- A text that is no decimal, or one whose exponent the conversion refuses: the default. -/
theorem tamed_default_iff (hlo : lo.Le d) (hhi : d.Le hi) (hr : decimal? s = none) :
    Tamed lo hi s (.ok d) ↔ Tameable d lo hi s := by
  constructor
  · rintro ⟨⟨q, hq, hw⟩, hexact⟩
    cases hq
    refine ⟨fun h => ?_, ⟨q, hw⟩, fun _ => ⟨q, rfl⟩, fun neg h => ?_, fun n hn hw' => .inr ?_⟩
    · rw [decimal?_nan.2 h] at hr
      cases hr
    · rw [decimal?_infinity.2 h] at hr
      cases hr
    · exact Except.ok.inj (hexact _ (denotes_eq_some_iff.2 ⟨n, hn, rfl⟩) hw')
  · intro h
    obtain ⟨q, rfl⟩ := h.default hr
    refine ⟨⟨q, rfl, hlo, hhi⟩, fun x hx hw => ?_⟩
    obtain ⟨n, hn, rfl⟩ := denotes_eq_some_iff.1 hx
    rcases h.exponent n hn hw with he | he
    · rw [decimal?_finite.2 ⟨n, hn, he, rfl⟩] at hr
      cases hr
    · rw [he]

/-- A decimal outside the bounds: the bound it passes, which has to be a number. -/
theorem tamed_bound_iff {m : PyDecimal} (hr : decimal? s = some r) (hnan : r ≠ .nan) (hlo : lo.Le m) (hhi : m.Le hi)
    (hout : ¬ (lo.Le r ∧ r.Le hi)) (hm : ∀ x, InBounds lo hi x → ∃ q, m = .finite q) :
    Tamed lo hi s (.ok m) ↔ Tameable d lo hi s := by
  constructor
  · rintro ⟨⟨q, hq, hw⟩, -⟩
    refine ⟨fun h => ?_, ⟨q, hw⟩, fun h => ?_, fun neg h => ?_, fun n hn _ => .inl (numeral_of_decimal? hr hn).1⟩
    · rw [decimal?_nan.2 h] at hr
      exact hnan (Option.some.inj hr).symm
    · rw [h] at hr
      cases hr
    · rw [decimal?_infinity.2 h] at hr
      rwa [Option.some.inj hr]
  · intro h
    obtain ⟨x, hx⟩ := h.room
    obtain ⟨q, rfl⟩ := hm x hx
    refine ⟨⟨q, rfl, hlo, hhi⟩, fun y hy hw => absurd ?_ hout⟩
    obtain ⟨n, hn, rfl⟩ := denotes_eq_some_iff.1 hy
    rw [(numeral_of_decimal? hr hn).2]
    exact hw

/-- A decimal within the bounds, which has to be a number. -/
theorem tamed_within_iff (hr : decimal? s = some r) (hlo : lo.Le r) (hhi : r.Le hi) :
    Tamed lo hi s (.ok r) ↔ Tameable d lo hi s := by
  constructor
  · rintro ⟨⟨q, hq, hw⟩, -⟩
    cases hq
    refine ⟨fun h => ?_, ⟨q, hw⟩, fun h => ?_, fun neg h => ?_, fun n hn _ => .inl (numeral_of_decimal? hr hn).1⟩
    · rw [decimal?_nan.2 h] at hr
      cases hr
    · rw [h] at hr
      cases hr
    · rw [decimal?_infinity.2 h] at hr
      cases hr
  · intro h
    rcases r with q | neg | _
    · refine ⟨⟨q, rfl, hlo, hhi⟩, fun y hy _ => ?_⟩
      obtain ⟨n, hn, rfl⟩ := denotes_eq_some_iff.1 hy
      rw [(numeral_of_decimal? hr hn).2]
    · exact absurd ⟨hlo, hhi⟩ (h.infinity neg (decimal?_infinity.1 hr))
    · exact absurd hlo (PyDecimal.not_le_nan _)

theorem safeDecimal_tamed_iff {default : List Char} (hd : decimal? default = some d) (hlo : lo.Le d) (hhi : d.Le hi) :
    Tamed lo hi s (safeDecimal (some s) default (some lo) (some hi)) ↔ Tameable d lo hi s := by
  have hle : lo.Le hi := hlo.trans hhi
  have hlonan : lo ≠ .nan := fun h => PyDecimal.not_nan_le d (h ▸ hlo)
  have hhinan : hi ≠ .nan := fun h => PyDecimal.not_le_nan d (h ▸ hhi)
  rw [safeDecimal_eq hd]
  cases hr : decimal? s with
  | none => exact tamed_default_iff hlo hhi hr
  | some r =>
    show Tamed lo hi s (clamped lo hi r) ↔ _
    by_cases hnan : r = .nan
    · subst hnan
      rw [clamped_nan]
      constructor
      · rintro ⟨⟨q, ⟨⟩, -⟩, -⟩
      · exact fun h => absurd (decimal?_nan.1 hr) h.notNan
    rcases PyDecimal.lt_or_le hnan hlonan with hbelow | habove
    · rw [clamped_below hle hbelow]
      exact tamed_bound_iff hr hnan (PyDecimal.Le.refl hlonan) hle (fun h => PyDecimal.not_le_of_lt hbelow h.1)
        fun x => lo_finite_of_below hbelow
    rcases PyDecimal.lt_or_le hhinan hnan with hpast | hin
    · rw [clamped_above hle hpast]
      exact tamed_bound_iff hr hnan hle (PyDecimal.Le.refl hhinan) (fun h => PyDecimal.not_le_of_lt hpast h.2)
        fun x => hi_finite_of_above hpast
    · rw [clamped_within habove hin]
      exact tamed_within_iff hr habove hin

end

/-- From zero up to a number: no NaN, and no number in that range is refused unless it is the default. -/
theorem tameable_zero_iff {M : ℚ} (hM : 0 ≤ M) {s : List Char} :
    Tameable (.finite 0) (.finite 0) (.finite M) s ↔ literal? s ≠ some .nan ∧
      ∀ n, literal? s = some (.numeral n) → 0 ≤ n.value → n.value ≤ M → n.Exact ∨ n.value = 0 := by
  have hwithin : ∀ q, InBounds (.finite 0) (.finite M) q ↔ 0 ≤ q ∧ q ≤ M := fun q => by simp [InBounds]
  constructor
  · intro h
    refine ⟨h.notNan, fun n hn h0 h1 => (h.exponent n hn ((hwithin _).2 ⟨h0, h1⟩)).imp_right fun he => ?_⟩
    exact (PyDecimal.finite.inj he).symm
  · rintro ⟨hnan, hexact⟩
    refine ⟨hnan, ⟨0, (hwithin 0).2 ⟨le_rfl, hM⟩⟩, fun _ => ⟨0, rfl⟩, fun neg _ h => ?_, fun n hn hw => ?_⟩
    · cases neg with
      | true => cases h.1
      | false => cases h.2
    · obtain ⟨h0, h1⟩ := (hwithin _).1 hw
      exact (hexact n hn h0 h1).imp_right fun h => by rw [h]

theorem maxQty_nonneg : 0 ≤ maxQty := by
  unfold maxQty
  norm_num

theorem maxAmount_nonneg : 0 ≤ maxAmount := by
  unfold maxAmount
  norm_num

/-- **Which texts are tamed.** -/
theorem numeric_input_tamed (s : List Char) {default : List Char} {d lo hi : PyDecimal} (hd : decimal? default = some d)
    (hlo : lo.Le d) (hhi : d.Le hi) :
    (Tamed lo hi s (safeDecimal (some s) default (some lo) (some hi)) ↔ Tameable d lo hi s) ∧
    (Tamed (.finite 0) (.finite maxQty) s (safeQuantity (some s)) ↔ literal? s ≠ some .nan ∧
      ∀ n, literal? s = some (.numeral n) → 0 ≤ n.value → n.value ≤ maxQty → n.Exact ∨ n.value = 0) ∧
    (Tamed (.finite 0) (.finite maxAmount) s (safeAmount (some s)) ↔ literal? s ≠ some .nan ∧
      ∀ n, literal? s = some (.numeral n) → 0 ≤ n.value → n.value ≤ maxAmount → n.Exact ∨ n.value = 0) := by
  have h0 : (PyDecimal.finite 0).Le (.finite 0) := PyDecimal.Le.refl (by simp)
  refine ⟨safeDecimal_tamed_iff hd hlo hhi, ?_, ?_⟩
  · rw [← tameable_zero_iff maxQty_nonneg]
    exact safeDecimal_tamed_iff decimal?_zero h0 (by simpa using maxQty_nonneg)
  · rw [← tameable_zero_iff maxAmount_nonneg]
    exact safeDecimal_tamed_iff decimal?_zeroAmount h0 (by simpa using maxAmount_nonneg)

theorem numeric_input_tamed_site :
    Tamed (.finite (-5)) (.infinity false) " ٣.5e1 ".toList
      (safeDecimal (some " ٣.5e1 ".toList) "0".toList (some (.finite (-5))) (some (.infinity false))) :=
  (@numeric_input_tamed " ٣.5e1 ".toList "0".toList (.finite 0) (.finite (-5)) (.infinity false) decimal?_zero
    (by decide) (by decide)).1.2
    { notNan := by decide +kernel
      room := ⟨0, by decide, by decide⟩
      default := fun _ => ⟨0, rfl⟩
      infinity := fun neg h => absurd h (by cases neg <;> decide +kernel)
      exponent := fun n hn _ => .inl (by
        have hlit : literal? " ٣.5e1 ".toList = some (.numeral ⟨false, 35, 0⟩) := by decide +kernel
        cases hlit.symm.trans hn
        decide) }

/-- **A NaN is typed where a number should be**: the comparison raises. -/
theorem nan_quantity_raises :
    safeQuantity (some "NaN".toList) = .error .notANumber ∧
    ¬ ∀ s, Tamed (.finite 0) (.finite maxQty) s (safeQuantity (some s)) := by
  have hraise : safeQuantity (some "NaN".toList) = .error .notANumber := by decide +kernel
  refine ⟨hraise, fun h => ?_⟩
  obtain ⟨q, hq, -⟩ := (h "NaN".toList).bounded
  rw [hraise] at hq
  cases hq

/-! ## The numbers of the other forms

The models of the forms start from what `Decimal` makes of a field; these are the same readers. -/

theorem clamped_number (M q : ℚ) (hM : 0 ≤ M) :
    clamped (.finite 0) (.finite M) (.finite q) = .ok (.finite (if q < 0 then 0 else if M < q then M else q)) := by
  have hle : (PyDecimal.finite 0).Le (.finite M) := PyDecimal.finite_le_finite.2 hM
  split_ifs with h0 h1
  · exact clamped_below hle (by simp [PyDecimal.lt, h0])
  · exact clamped_above hle (by simp [PyDecimal.lt, h1])
  · exact clamped_within (PyDecimal.finite_le_finite.2 (not_lt.1 h0)) (PyDecimal.finite_le_finite.2 (not_lt.1 h1))

theorem safeQuantity_eq (s : List Char) :
    safeQuantity (some s) = (Dmis.safeQuantity (decimal? s)).map .finite := by
  show safeDecimal _ _ _ _ = _
  rw [safeDecimal_eq decimal?_zero]
  rcases decimal? s with _ | (q | neg | _)
  · rfl
  · exact clamped_number maxQty q maxQty_nonneg
  · cases neg with
    | true => exact clamped_below (PyDecimal.finite_le_finite.2 maxQty_nonneg) rfl
    | false => rfl
  · rfl

theorem safeAmount_eq (s : List Char) :
    safeAmount (some s) = (Dmis.safeAmount (decimal? s)).map .finite := by
  show safeDecimal _ _ _ _ = _
  rw [safeDecimal_eq decimal?_zeroAmount]
  rcases decimal? s with _ | (q | neg | _)
  · rfl
  · exact clamped_number maxAmount q maxAmount_nonneg
  · cases neg with
    | true => exact clamped_below (PyDecimal.finite_le_finite.2 maxAmount_nonneg) rfl
    | false => rfl
  · rfl

end ParamValidation

end Dmis
