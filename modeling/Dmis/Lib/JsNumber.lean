import Dmis.Lib.Binary64
import Dmis.Lib.PythonText

/-!
# Numbers in the text of a page

`parseFloat` reads the longest decimal literal at the beginning of a text; `toFixed` prints a double with a fixed number
of decimals. Both go through `toBinary64`. A decimal of 15 digits survives them: `parseFloat_fixedText` reads what was
printed, and `toFixed_toBinary64` prints what was read.
-/

namespace Js

open Relational Python

/-- White space of `\s`. -/
def isSpace (c : Char) : Bool :=
  (9 ≤ c.toNat && c.toNat ≤ 13) || (0x2000 ≤ c.toNat && c.toNat ≤ 0x200a) ||
    c.toNat ∈ [0x20, 0xa0, 0x1680, 0x2028, 0x2029, 0x202f, 0x205f, 0x3000, 0xfeff]

/-- A number that is no `NaN`. -/
inductive Number where
  | finite (x : ℚ)
  | infinity (negative : Bool)
  deriving DecidableEq

def Number.negative : Number → Bool
  | .finite x => x < 0
  | .infinity negative => negative

/-! ## Reading -/

/-- `e`, a sign and digits, where they follow; without a digit the `e` is not part of the literal. -/
def exponentPart : List Char → ℤ
  | [] => 0
  | c :: s =>
    if c = 'e' ∨ c = 'E' then
      let (negative, t) := splitSign s
      let n : ℤ := digitsValue (t.takeWhile Char.isDigit)
      if negative then -n else n
    else 0

/-- The digits before and after the point, and what follows them. -/
def mantissa (s : List Char) : List Char × List Char × List Char :=
  let whole := s.takeWhile Char.isDigit
  match s.dropWhile Char.isDigit with
  | '.' :: t => (whole, t.takeWhile Char.isDigit, t.dropWhile Char.isDigit)
  | t => (whole, [], t)

/-- The double nearest to a decimal; beyond the largest one it is infinite. -/
def ofDecimal (negative : Bool) (q : ℚ) : Number :=
  let x := toBinary64 q
  if 2 ^ 1024 ≤ x then .infinity negative else .finite (if negative then -x else x)

/-- `parseFloat(text)`; `none` for `NaN`. -/
def parseFloat (s : List Char) : Option Number :=
  let (negative, t) := splitSign (s.dropWhile isSpace)
  if "Infinity".toList.isPrefixOf t then some (.infinity negative)
  else
    let (whole, fraction, rest) := mantissa t
    if whole ++ fraction = [] then none
    else some (ofDecimal negative (digitsValue (whole ++ fraction) * 10 ^ (exponentPart rest - fraction.length)))

/-! ## Printing -/

/-- A number with leading zeros. -/
def zeroPadded (width n : ℕ) : List Char := List.replicate (width - (Nat.toDigits 10 n).length) '0' ++ Nat.toDigits 10 n

/-- `n` units of the last of some decimals. -/
def fixedText (decimals n : ℕ) : List Char :=
  Nat.toDigits 10 (n / 10 ^ decimals) ++ if decimals = 0 then [] else '.' :: zeroPadded decimals (n % 10 ^ decimals)

/-- How a double from `10 ^ 21` on is printed: its shortest digits and an exponent. -/
def largeText (x : ℚ) : List Char :=
  let q := shortest x
  let e := Int.log 10 q
  let digits := (Nat.toDigits 10 ⌊q * 10 ^ (16 - e)⌋.toNat).rdropWhile (· = '0')
  digits.take 1 ++ (if digits.length ≤ 1 then [] else '.' :: digits.drop 1) ++ 'e' :: '+' :: Nat.toDigits 10 e.toNat

/-- `x.toFixed(decimals)` of the absolute value; of two nearest decimals the larger. -/
def fixedAbs (decimals : ℕ) : Number → List Char
  | .infinity _ => "Infinity".toList
  | .finite x =>
    if (10 : ℚ) ^ 21 ≤ |x| then largeText |x| else fixedText decimals ⌊|x| * 10 ^ decimals + 1 / 2⌋.toNat

def toFixed (decimals : ℕ) (x : Number) : List Char := (if x.negative then ['-'] else []) ++ fixedAbs decimals x

/-! ## Digits -/

/-- Digits and nothing else. -/
def Digits (s : List Char) : Prop := ∀ c ∈ s, c.isDigit = true

theorem digits_toDigits (n : ℕ) : Digits (Nat.toDigits 10 n) := fun _ hc =>
  Nat.isDigit_of_mem_toDigits (by decide) (by decide) hc

theorem digits_zeroPadded (width n : ℕ) : Digits (zeroPadded width n) := by
  intro c hc
  rcases List.mem_append.1 hc with h | h
  · rw [List.eq_of_mem_replicate h]
    rfl
  · exact digits_toDigits n c h

theorem Digits.append {s t : List Char} (hs : Digits s) (ht : Digits t) : Digits (s ++ t) := fun c hc =>
  (List.mem_append.1 hc).elim (hs c) (ht c)

theorem digitsValue_eq (s : List Char) : digitsValue s = Nat.ofDigitChars 10 s 0 := Nat.ofDigitChars_eq_foldl.symm

theorem digitsValue_append (s t : List Char) : digitsValue (s ++ t) = digitsValue s * 10 ^ t.length + digitsValue t := by
  rw [digitsValue_eq, digitsValue_eq, digitsValue_eq, Nat.ofDigitChars_append, Nat.ofDigitChars_eq_ofDigitChars_zero,
    Nat.mul_comm]

@[simp] theorem digitsValue_toDigits (n : ℕ) : digitsValue (Nat.toDigits 10 n) = n := by
  rw [digitsValue_eq, Nat.ofDigitChars_ten_toDigits]

@[simp] theorem digitsValue_zeroPadded (width n : ℕ) : digitsValue (zeroPadded width n) = n := by
  rw [zeroPadded, digitsValue_append, digitsValue_toDigits, digitsValue_eq, Nat.ofDigitChars_replicate_zero]
  omega

theorem length_zeroPadded {width n : ℕ} (hw : 0 < width) (h : n < 10 ^ width) : (zeroPadded width n).length = width := by
  have hlen := (Nat.length_toDigits_le_iff (by decide) hw).2 h
  rw [zeroPadded, List.length_append, List.length_replicate]
  omega

theorem takeWhile_digits {s t : List Char} (hs : Digits s) (ht : ∀ c ∈ t.head?, c.isDigit = false) :
    (s ++ t).takeWhile Char.isDigit = s ∧ (s ++ t).dropWhile Char.isDigit = t := by
  induction s with
  | nil =>
    cases t with
    | nil => exact ⟨rfl, rfl⟩
    | cons c t =>
      have hc := ht c rfl
      simp [hc]
  | cons c s ih =>
    have hc := hs c (by simp)
    obtain ⟨htake, hdrop⟩ := ih fun d hd => hs d (by simp [hd])
    constructor
    · rw [List.cons_append, List.takeWhile_cons_of_pos hc, htake]
    · rw [List.cons_append, List.dropWhile_cons_of_pos hc, hdrop]

/-! ## A plain decimal -/

/-- Digits, and maybe a point and more digits. -/
structure Plain (s whole fraction : List Char) : Prop where
  text : s = whole ++ '.' :: fraction ∨ s = whole ∧ fraction = []
  before : Digits whole
  behind : Digits fraction
  nonempty : whole ++ fraction ≠ []

/-- What the text of a plain decimal says. -/
def plainValue (whole fraction : List Char) : ℚ := digitsValue (whole ++ fraction) / 10 ^ fraction.length

theorem Plain.mantissa {s whole fraction : List Char} (h : Plain s whole fraction) :
    mantissa s = (whole, fraction, []) := by
  unfold Js.mantissa
  rcases h.text with rfl | ⟨rfl, rfl⟩
  · obtain ⟨htake, hdrop⟩ := takeWhile_digits h.before (t := '.' :: fraction) (by simp)
    obtain ⟨htake', hdrop'⟩ := takeWhile_digits h.behind (t := []) (by simp)
    rw [List.append_nil] at htake' hdrop'
    rw [htake, hdrop]
    simp only [htake', hdrop']
  · obtain ⟨htake, hdrop⟩ := takeWhile_digits h.before (t := []) (by simp)
    rw [List.append_nil] at htake hdrop
    rw [htake, hdrop]

theorem Plain.chars {s whole fraction : List Char} (h : Plain s whole fraction) :
    ∀ c ∈ s, c.isDigit = true ∨ c = '.' := by
  intro c hc
  rcases h.text with rfl | ⟨rfl, -⟩
  · rcases List.mem_append.1 hc with h' | h'
    · exact .inl (h.before c h')
    · exact (List.mem_cons.1 h').elim .inr fun h' => .inl (h.behind c h')
  · exact .inl (h.before c hc)

/-- What the parts of a mantissa without anything behind it say. -/
theorem plain_of_mantissa {s whole fraction : List Char} (h : mantissa s = (whole, fraction, []))
    (hne : whole ++ fraction ≠ []) : Plain s whole fraction := by
  have hsplit := List.takeWhile_append_dropWhile (p := Char.isDigit) (l := s)
  unfold mantissa at h
  dsimp only at h
  split at h
  · rename_i t ht
    simp only [Prod.mk.injEq] at h
    obtain ⟨rfl, rfl, hrest⟩ := h
    have ht' := List.takeWhile_append_dropWhile (p := Char.isDigit) (l := t)
    rw [hrest, List.append_nil] at ht'
    refine ⟨.inl ?_, fun c hc => List.mem_takeWhile_imp hc, fun c hc => List.mem_takeWhile_imp hc, hne⟩
    rw [ht', ← ht, hsplit]
  · simp only [Prod.mk.injEq] at h
    obtain ⟨rfl, rfl, hrest⟩ := h
    rw [hrest, List.append_nil] at hsplit
    exact ⟨.inr ⟨hsplit.symm, rfl⟩, fun c hc => List.mem_takeWhile_imp hc, by simp [Digits], hne⟩

/-- The first character of a plain decimal. -/
theorem Plain.head {s whole fraction : List Char} (h : Plain s whole fraction) :
    ∃ c t, s = c :: t ∧ (c.isDigit = true ∨ c = '.') := by
  rcases h.text with rfl | ⟨rfl, rfl⟩
  · cases whole with
    | nil => exact ⟨'.', fraction, rfl, .inr rfl⟩
    | cons c t => exact ⟨c, t ++ '.' :: fraction, rfl, .inl (h.before c (by simp))⟩
  · cases s with
    | nil => exact absurd rfl h.nonempty
    | cons c t => exact ⟨c, t, rfl, .inl (h.before c (by simp))⟩

theorem code_of_digit {c : Char} (h : c.isDigit = true ∨ c = '.') : 46 ≤ c.toNat ∧ c.toNat ≤ 57 := by
  rcases h with h | rfl
  · rw [Char.isDigit_iff_toNat] at h
    have : '0'.toNat = 48 := rfl
    have : '9'.toNat = 57 := rfl
    omega
  · decide

theorem not_space_of_digit {c : Char} (h : c.isDigit = true ∨ c = '.') :
    isSpace c = false ∧ c ≠ '-' ∧ c ≠ '+' ∧ c ≠ 'I' := by
  have hcode := code_of_digit h
  refine ⟨?_, ?_, ?_, ?_⟩
  · simp only [isSpace, Bool.or_eq_false_iff, Bool.and_eq_false_iff, decide_eq_false_iff_not, List.mem_cons,
      List.not_mem_nil, or_false]
    omega
  all_goals
    rintro rfl
    revert hcode
    decide

theorem splitSign_of_ne {c : Char} {s : List Char} (h : c ≠ '-') (h' : c ≠ '+') : splitSign (c :: s) = (false, c :: s) := by
  unfold splitSign
  split
  · simp_all
  · simp_all
  · rfl

/-- **A plain decimal is read as the double nearest to it.** -/
theorem parseFloat_plain {s whole fraction : List Char} (h : Plain s whole fraction) :
    parseFloat s = some (ofDecimal false (plainValue whole fraction)) := by
  obtain ⟨c, t, hs, hc⟩ := h.head
  obtain ⟨hspace, hminus, hplus, hI⟩ := not_space_of_digit hc
  have htext : s.dropWhile isSpace = s := by rw [hs, List.dropWhile_cons_of_neg (by simp [hspace])]
  have hsign : splitSign s = (false, s) := by rw [hs, splitSign_of_ne hminus hplus]
  have hinfinity : "Infinity".toList.isPrefixOf s = false := by
    rw [hs]
    exact Bool.and_eq_false_imp.2 fun he => absurd (beq_iff_eq.1 he).symm hI
  unfold parseFloat
  rw [htext, hsign]
  simp only [hinfinity, h.mantissa, h.nonempty, if_false, Bool.false_eq_true, exponentPart, zero_sub, zpow_neg, zpow_natCast]
  rw [plainValue, div_eq_mul_inv]

/-- **Python reads a plain decimal as it is written.** -/
theorem literal?_plain {s whole fraction : List Char} (h : Plain s whole fraction) :
    literal? s = some (.numeral ⟨false, digitsValue (whole ++ fraction), -fraction.length⟩) := by
  have hdense : ∀ c ∈ s, Python.isSpace c = false ∧ c ≠ '_' ∧ asciiChar c = some c ∧ c ≠ 'e' ∧ c ≠ 'E' := by
    intro c hc
    have hcode : 46 ≤ c.toNat ∧ c.toNat ≤ 57 := code_of_digit (h.chars c hc)
    refine ⟨?_, ?_, if_pos (by omega), ?_, ?_⟩
    · simp only [Python.isSpace, Bool.or_eq_false_iff, Bool.and_eq_false_iff, decide_eq_false_iff_not, List.mem_cons,
        List.not_mem_nil, or_false]
      omega
    all_goals
      rintro rfl
      revert hcode
      decide
  have hstrip : strip s = s := by
    have hdrop : s.dropWhile Python.isSpace = s := by
      obtain ⟨c, t, hs, -⟩ := h.head
      rw [hs, List.dropWhile_cons_of_neg (by simp [(hdense c (by simp [hs])).1])]
    rw [strip, hdrop, List.rdropWhile_eq_self_iff]
    intro hne
    simp [(hdense _ (List.getLast_mem hne)).1]
  have hfilter : s.filter (· ≠ '_') = s := List.filter_eq_self.2 fun c hc => decide_eq_true (hdense c hc).2.1
  have hmap : s.mapM asciiChar = some s := by
    have hall : ∀ t : List Char, (∀ c ∈ t, asciiChar c = some c) → t.mapM asciiChar = some t := by
      intro t
      induction t with
      | nil => exact fun _ => rfl
      | cons c t ih => exact fun ht => by simp [List.mapM_cons, ht c (by simp), ih fun d hd => ht d (by simp [hd])]
    exact hall s fun c hc => (hdense c hc).2.2.1
  have hmantissa : s.takeWhile (fun c => c ≠ 'e' && c ≠ 'E') = s :=
    List.takeWhile_eq_self_iff.2 fun c hc => by simp [(hdense c hc).2.2.2]
  have hparts : s.takeWhile (· ≠ '.') = whole ∧ (s.drop whole.length).drop 1 = fraction := by
    have hpoint : ∀ c ∈ whole, (decide (c ≠ '.')) = true := by
      intro c hc
      refine decide_eq_true ?_
      rintro rfl
      exact absurd (h.before '.' hc) (by decide)
    rcases h.text with rfl | ⟨rfl, rfl⟩
    · rw [List.takeWhile_append_of_pos hpoint]
      simp
    · exact ⟨List.takeWhile_eq_self_iff.2 hpoint, by simp⟩
  obtain ⟨c, t, hs, hc⟩ := h.head
  obtain ⟨-, hminus, hplus, -⟩ := not_space_of_digit hc
  have hlower : c.toLower = c := by
    refine dif_neg fun hupper => ?_
    have hle : 65 ≤ c.toNat := UInt32.le_iff_toNat_le.1 hupper.1
    have := code_of_digit hc
    omega
  have hword : c ≠ 'i' ∧ c ≠ 'n' ∧ c ≠ 's' := by
    refine ⟨?_, ?_, ?_⟩
    all_goals
      rintro rfl
      revert hc
      decide
  have hinf : ¬ (s.map Char.toLower = "inf".toList ∨ s.map Char.toLower = "infinity".toList) := by
    rw [hs, List.map_cons, hlower]
    rintro (he | he) <;> exact hword.1 (List.cons.inj he).1
  have hnan : nanPayload? s = none := by
    unfold nanPayload?
    rw [hs, List.map_cons, hlower]
    split
    · simp_all
    · simp_all
    · rfl
  have hdigits : digits? (whole ++ fraction) = some (digitsValue (whole ++ fraction)) :=
    if_pos ⟨h.nonempty, List.all_eq_true.2 (h.before.append h.behind)⟩
  have hnumeral : numeral? false s = some ⟨false, digitsValue (whole ++ fraction), -fraction.length⟩ := by
    unfold numeral?
    simp only [hmantissa, hparts.1, hparts.2, hdigits, List.drop_length, exponent?, Option.bind_eq_bind, Option.bind_some,
      zero_sub]
    rfl
  unfold literal?
  rw [hstrip, hfilter, hmap, Option.bind_eq_bind, Option.bind_some, hs, splitSign_of_ne hminus hplus, ← hs]
  dsimp only
  unfold unsigned?
  rw [if_neg hinf, hnan, hnumeral]
  rfl

theorem fixedText_plain {decimals : ℕ} (h0 : 0 < decimals) (n : ℕ) :
    Plain (fixedText decimals n) (Nat.toDigits 10 (n / 10 ^ decimals)) (zeroPadded decimals (n % 10 ^ decimals)) where
  text := by
    rw [fixedText, if_neg h0.ne']
    exact .inl rfl
  before := digits_toDigits _
  behind := digits_zeroPadded _ _
  nonempty := by simp

theorem plainValue_fixedText {decimals : ℕ} (h0 : 0 < decimals) (n : ℕ) :
    plainValue (Nat.toDigits 10 (n / 10 ^ decimals)) (zeroPadded decimals (n % 10 ^ decimals)) = n / 10 ^ decimals := by
  have hlt : n % 10 ^ decimals < 10 ^ decimals := Nat.mod_lt n (by positivity)
  rw [plainValue, digitsValue_append, digitsValue_toDigits, digitsValue_zeroPadded, length_zeroPadded h0 hlt,
    Nat.mul_comm, Nat.div_add_mod]

/-- **What is printed with decimals reads back.** -/
theorem parseFloat_fixedText {decimals : ℕ} (h0 : 0 < decimals) (n : ℕ) :
    parseFloat (fixedText decimals n) = some (ofDecimal false (n / 10 ^ decimals)) := by
  rw [parseFloat_plain (fixedText_plain h0 n), plainValue_fixedText h0]

/-! ## A decimal of 15 digits -/

/-- The double of a decimal below `10 ^ 15` units is less than half a unit away. -/
theorem toBinary64_units {decimals n : ℕ} (hd : decimals ≤ 307) (hn : n < 10 ^ 15) :
    |toBinary64 (n / 10 ^ decimals) * 10 ^ decimals - n| < 1 / 2 := by
  have hten : (0 : ℚ) < 10 ^ decimals := by positivity
  rcases Nat.eq_zero_or_pos n with rfl | hpos
  · norm_num [toBinary64_zero]
  · have hq : (0 : ℚ) < n / 10 ^ decimals := by positivity
    have hscale : (n / 10 ^ decimals : ℚ) * 10 ^ decimals = n := div_mul_cancel₀ _ hten.ne'
    have hdigits : FifteenDigits (n / 10 ^ decimals : ℚ) := by
      refine fifteenDigits_of_scale hd (atScale_iff.2 ⟨n, hscale⟩) hq.le ?_
      rw [hscale]
      exact_mod_cast hn
    have hnear := toBinary64_near hq rfl (hdigits.normal hq)
    generalize toBinary64 ((n : ℚ) / 10 ^ decimals) = x at hnear ⊢
    have hunits : |x * 10 ^ decimals - n| = |x - n / 10 ^ decimals| * 10 ^ decimals := by
      rw [← abs_of_pos hten, ← abs_mul, sub_mul, abs_of_pos hten, hscale]
    have hbound : x * 10 ^ decimals ≤ n + |x * 10 ^ decimals - n| := by
      have := le_abs_self (x * 10 ^ decimals - n)
      linarith
    have hsmall : |x * 10 ^ decimals - n| ≤ x * 10 ^ decimals / 2 ^ 53 := by
      rw [hunits, mul_div_right_comm]
      exact mul_le_mul_of_nonneg_right hnear hten.le
    have hn' : (n : ℚ) < 10 ^ 15 := by exact_mod_cast hn
    by_contra hge
    have hlarge : |x * 10 ^ decimals - n| * 2 ^ 53 ≤ n + |x * 10 ^ decimals - n| := by
      rw [le_div_iff₀ (by norm_num)] at hsmall
      exact hsmall.trans hbound
    linarith

theorem fixedAbs_finite {decimals : ℕ} {x : ℚ} (h0 : 0 ≤ x) (h : x < 10 ^ 21) :
    fixedAbs decimals (.finite x) = fixedText decimals ⌊x * 10 ^ decimals + 1 / 2⌋.toNat := by
  have hsmall : ¬ (10 : ℚ) ^ 21 ≤ |x| := by
    rw [abs_of_nonneg h0]
    exact not_le.2 h
  have habs : fixedAbs decimals (.finite x) = fixedText decimals ⌊|x| * 10 ^ decimals + 1 / 2⌋.toNat := if_neg hsmall
  rwa [abs_of_nonneg h0] at habs

theorem toFixed_of_nonneg (decimals : ℕ) {x : ℚ} (h0 : 0 ≤ x) :
    toFixed decimals (.finite x) = fixedAbs decimals (.finite x) := by
  have hsign : Number.negative (.finite x) = false := decide_eq_false (not_lt.2 h0)
  rw [toFixed, hsign]
  exact List.nil_append _

theorem toBinary64_nonneg {q : ℚ} (h : 0 ≤ q) : 0 ≤ toBinary64 q := by
  have hmono := toBinary64_mono le_rfl h
  rwa [toBinary64_zero] at hmono

/-- **A decimal of 15 digits is printed as it was.** -/
theorem fixedAbs_toBinary64 {decimals n : ℕ} (hd : decimals ≤ 307) (hn : n < 10 ^ 15) :
    fixedAbs decimals (.finite (toBinary64 (n / 10 ^ decimals))) = fixedText decimals n := by
  have hunits := abs_lt.1 (toBinary64_units hd hn)
  have hten : (1 : ℚ) ≤ 10 ^ decimals := one_le_pow₀ (by norm_num)
  have hnonneg := toBinary64_nonneg (show (0 : ℚ) ≤ n / 10 ^ decimals by positivity)
  have hn' : (n : ℚ) < 10 ^ 15 := by exact_mod_cast hn
  generalize toBinary64 ((n : ℚ) / 10 ^ decimals) = x at hunits hnonneg ⊢
  have hsmall : x < 10 ^ 21 := by
    have := le_mul_of_one_le_right hnonneg hten
    linarith
  have hfloor : ⌊x * 10 ^ decimals + 1 / 2⌋ = (n : ℤ) := by
    rw [Int.floor_eq_iff]
    push_cast
    constructor <;> linarith
  rw [fixedAbs_finite hnonneg hsmall, hfloor, Int.toNat_natCast]

theorem toFixed_toBinary64 {decimals n : ℕ} (hd : decimals ≤ 307) (hn : n < 10 ^ 15) :
    toFixed decimals (.finite (toBinary64 (n / 10 ^ decimals))) = fixedText decimals n := by
  rw [toFixed_of_nonneg decimals (toBinary64_nonneg (by positivity)), fixedAbs_toBinary64 hd hn]

/-- No overflow below `10 ^ 15`. -/
theorem ofDecimal_small {decimals n : ℕ} (hd : decimals ≤ 307) (hn : n < 10 ^ 15) :
    ofDecimal false (n / 10 ^ decimals) = .finite (toBinary64 (n / 10 ^ decimals)) := by
  have hunits := abs_lt.1 (toBinary64_units hd hn)
  have hten : (1 : ℚ) ≤ 10 ^ decimals := one_le_pow₀ (by norm_num)
  have hn' : (n : ℚ) < 10 ^ 15 := by exact_mod_cast hn
  have hsmall : ¬ (2 : ℚ) ^ 1024 ≤ toBinary64 (n / 10 ^ decimals) := by
    intro hle
    generalize toBinary64 ((n : ℚ) / 10 ^ decimals) = x at hunits hle
    have hlarge : (10 : ℚ) ^ 16 ≤ x := by
      refine le_trans ?_ ((pow_le_pow_right₀ (by norm_num) (by norm_num)).trans hle : (2 : ℚ) ^ 60 ≤ x)
      norm_num
    clear hle
    have hx : x ≤ x * 10 ^ decimals := le_mul_of_one_le_right (by linarith) hten
    linarith
  simp only [ofDecimal, if_neg hsmall, Bool.false_eq_true, if_false]

/-! ## Sums of decimals -/

/-- A double that is no tiny number is close to what it is nearest to. -/
theorem toBinary64_close {c : ℚ} (h : 1 / 1000 ≤ c) : |toBinary64 c - c| ≤ c / 2 ^ 52 := by
  have hc : 0 < c := lt_of_lt_of_le (by norm_num) h
  have htiny : (2 : ℚ) ^ (-1022 : ℤ) ≤ c := by
    refine le_trans ?_ h
    calc (2 : ℚ) ^ (-1022 : ℤ) ≤ 2 ^ (-10 : ℤ) := zpow_le_zpow_right₀ one_le_two (by norm_num)
      _ ≤ 1 / 1000 := by norm_num
  have hdouble : toBinary64 ((2 : ℚ) ^ (-1022 : ℤ)) = 2 ^ (-1022 : ℤ) := by
    have hbits := toBinary64_of_bits (n := 1) (e := -1022) (by norm_num) (by norm_num)
    rwa [Int.cast_one, one_mul] at hbits
  have hmin : (2 : ℚ) ^ (-1022 : ℤ) ≤ toBinary64 c := by
    rw [← hdouble]
    exact toBinary64_mono (zpow_pos two_pos _).le htiny
  have hnear := toBinary64_near hc rfl hmin
  generalize toBinary64 c = x at hnear hmin
  have hx : 0 ≤ x := le_trans (zpow_pos two_pos _).le hmin
  have hself := le_abs_self (x - c)
  have hhalf : x / 2 ^ 53 ≤ x / 2 := div_le_div_of_nonneg_left hx (by norm_num) (by norm_num)
  have htwice : x ≤ 2 * c := by linarith
  calc |x - c| ≤ x / 2 ^ 53 := hnear
    _ ≤ 2 * c / 2 ^ 53 := div_le_div_of_nonneg_right htwice (by positivity)
    _ = c / 2 ^ 52 := by ring

/-- An intermediate result near an amount of cents that is not zero. -/
theorem toBinary64_step {x c : ℚ} (hx : 1 / 1000 ≤ x) (hsmall : x ≤ 10 ^ 11) {e : ℚ} (h : |x - c| ≤ e) :
    |toBinary64 x - c| ≤ e + 1 / 10 ^ 4 := by
  have hclose := toBinary64_close hx
  have htri := abs_add_le (toBinary64 x - x) (x - c)
  rw [sub_add_sub_cancel] at htri
  have hbound : x / 2 ^ 52 ≤ 1 / 10 ^ 4 := by
    rw [div_le_iff₀ (by norm_num)]
    refine hsmall.trans ?_
    norm_num
  linarith

/-- The double of an amount of cents. -/
theorem toBinary64_cents {n : ℕ} (hn : n < 10 ^ 13) : |toBinary64 (n / 10 ^ 2) - n / 10 ^ 2| ≤ 1 / 10 ^ 4 := by
  rcases Nat.eq_zero_or_pos n with rfl | hpos
  · norm_num [toBinary64_zero]
  · have hone : (1 : ℚ) ≤ n := by exact_mod_cast hpos
    have hlt : (n : ℚ) ≤ 10 ^ 13 := by exact_mod_cast hn.le
    have hstep := toBinary64_step (x := (n : ℚ) / 10 ^ 2) (c := (n : ℚ) / 10 ^ 2) (e := 0) ?_ ?_ (by simp)
    · rwa [zero_add] at hstep
    · rw [le_div_iff₀ (by norm_num)]
      linarith
    · rw [div_le_iff₀ (by norm_num)]
      linarith

end Js
