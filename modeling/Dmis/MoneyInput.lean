import Dmis.Lib.JsNumber
import Dmis.Lib.Run
import Dmis.ParamValidation

/-!
# Money fields

A money field of a form shows `$1,234.50` and posts a hidden `1234.50` (`static/js/money-format.js`). Every blur reads
what is shown, as a double, and writes both texts anew; the server reads the hidden one as a decimal.

| here | there |
| --- | --- |
| `parseMoneyValue`, `formatMoney` | `parseMoneyValue`, `formatMoney` (`:16-66`) |
| `initMoneyInput` | the hidden input of `initMoneyInput` (`:82-109`) |
| `fieldStep` | its listeners for `focus`, input and `blur` (`:111-135`) |
| `Entry`, `entryStep` | what the field is for: exact amounts, posted when the field is left |

Main theorem `money_input_exact`: through any sequence of visits the field shows and posts the amounts of `Entry`, while
every typed text is an amount of cents below ten million million. What is typed and not left, as when the form is sent
with the Enter key, is not posted.
-/

namespace Dmis

open Relational Js Python

/-! ## The page -/

/-- A money text without its symbol, separators and white space. -/
def cleaned (value : List Char) : List Char := value.filter fun c => !(c = '$' || c = ',' || Js.isSpace c)

def parseMoneyValue (value : List Char) : Option Number :=
  if cleaned value = [] ∨ cleaned value = ['-'] then none else parseFloat (cleaned value)

/-- `\w`. -/
def isWord (c : Char) : Bool := c.isAlphanum || c = '_'

/-- `(?=(\d{3})+(?!\d))`: the digits from here on are whole groups of three. -/
def wholeGroups (s : List Char) : Bool :=
  let n := (s.takeWhile Char.isDigit).length
  n ≠ 0 && n % 3 = 0

/-- `replace(/\B(?=(\d{3})+(?!\d))/g, ',')`. -/
def thousands : List Char → List Char
  | c :: d :: s =>
    c :: (if isWord c = isWord d && wholeGroups (d :: s) then ',' :: thousands (d :: s) else thousands (d :: s))
  | s => s

/-- A number reads back from its own text, so it is formatted as it is. -/
def formatMoney (num : Number) : List Char :=
  let fixed := fixedAbs 2 num
  let intPart := fixed.takeWhile (· ≠ '.')
  let decPart :=
    match fixed.dropWhile (· ≠ '.') with
    | [] => "undefined".toList
    | _ :: s => s.takeWhile (· ≠ '.')
  '$' :: (if num.negative then ['-'] else []) ++ thousands intPart ++ '.' :: decPart

/-- The visible field and the hidden one that is posted. -/
structure MoneyField where
  shown : List Char
  hidden : List Char
  deriving DecidableEq

def initMoneyInput (value : List Char) : MoneyField :=
  match parseMoneyValue value with
  | some num => ⟨formatMoney num, toFixed 2 num⟩
  | none => ⟨value, []⟩

/-- `edit` leaves any text in the field: keys are filtered, pasted text is not. -/
inductive FieldEvent where
  | focus
  | edit (value : List Char)
  | blur

def fieldStep (f : MoneyField) : FieldEvent → MoneyField
  | .focus =>
    match parseMoneyValue f.shown with
    | some num => { f with shown := if num = .finite 0 then [] else toFixed 2 num }
    | none => { f with shown := [] }
  | .edit value => { f with shown := value }
  | .blur =>
    match parseMoneyValue f.shown with
    | some num => ⟨formatMoney num, toFixed 2 num⟩
    | none => ⟨[], []⟩

/-! ## What it is for -/

/-- The amount of a plain decimal; a blank text is no money. -/
def plainAmount? (s : List Char) : Option ℚ :=
  if s = [] then some 0
  else
    let (whole, fraction, rest) := mantissa s
    if rest = [] ∧ whole ++ fraction ≠ [] then some (plainValue whole fraction) else none

/-- The amount a money text says. -/
def moneyValue (value : List Char) : ℚ := (plainAmount? (cleaned value)).getD 0

/-- A text that says an amount of cents, of at most 15 digits. -/
def CentsText (value : List Char) : Prop := ∃ n : ℕ, n < 10 ^ 15 ∧ plainAmount? (cleaned value) = some ((n : ℚ) / 10 ^ 2)

/-- What is in the field, and what was in it when it was last left. -/
structure Entry where
  typed : ℚ
  posted : ℚ

def entryStep (e : Entry) : FieldEvent → Entry
  | .focus => e
  | .edit value => { e with typed := moneyValue value }
  | .blur => { e with posted := e.typed }

section
variable {s whole fraction : List Char} {value : List Char} {n : ℕ} {q : ℚ}

/-! ## Texts of amounts -/

theorem kept_iff {c : Char} : (!(c = '$' || c = ',' || Js.isSpace c)) = true ↔ c ≠ '$' ∧ c ≠ ',' ∧ Js.isSpace c = false := by
  simp [and_assoc]

theorem digit_kept {c : Char} (h : c.isDigit = true ∨ c = '.') : c ≠ '$' ∧ c ≠ ',' ∧ Js.isSpace c = false := by
  refine ⟨?_, ?_, (not_space_of_digit h).1⟩
  all_goals
    rintro rfl
    revert h
    decide

theorem cleaned_append (s t : List Char) : cleaned (s ++ t) = cleaned s ++ cleaned t := List.filter_append ..

theorem cleaned_digits (h : ∀ c ∈ s, c.isDigit = true ∨ c = '.') : cleaned s = s :=
  List.filter_eq_self.2 fun c hc => kept_iff.2 (digit_kept (h c hc))

theorem cleaned_plain (h : Plain s whole fraction) : cleaned s = s := cleaned_digits h.chars

theorem plainAmount?_plain (h : Plain s whole fraction) : plainAmount? s = some (plainValue whole fraction) := by
  have hne : s ≠ [] := by
    obtain ⟨c, t, rfl, -⟩ := h.head
    exact List.cons_ne_nil c t
  unfold plainAmount?
  rw [if_neg hne, h.mantissa]
  exact if_pos ⟨rfl, h.nonempty⟩

/-- A text that says an amount is blank, or a plain decimal. -/
theorem plainAmount?_eq_some (h : plainAmount? s = some q) :
    s = [] ∧ q = 0 ∨ ∃ whole fraction, Plain s whole fraction ∧ q = plainValue whole fraction := by
  unfold plainAmount? at h
  split_ifs at h with hs
  · exact .inl ⟨hs, (Option.some.inj h).symm⟩
  · obtain ⟨⟨whole, fraction, rest⟩, hm⟩ : ∃ m, mantissa s = m := ⟨_, rfl⟩
    rw [hm] at h
    dsimp only at h
    split_ifs at h with hrest
    obtain ⟨rfl, hne⟩ := hrest
    exact .inr ⟨whole, fraction, plain_of_mantissa hm hne, (Option.some.inj h).symm⟩

theorem moneyValue_of_cents (h : plainAmount? (cleaned value) = some q) : moneyValue value = q := by
  rw [moneyValue, h]
  rfl

/-- **The page reads an amount of cents** as the double nearest to it, and a blank text as no number. -/
theorem parseMoneyValue_cents (hn : n < 10 ^ 15) (h : plainAmount? (cleaned value) = some ((n : ℚ) / 10 ^ 2)) :
    parseMoneyValue value = some (.finite (toBinary64 (n / 10 ^ 2))) ∨ parseMoneyValue value = none ∧ n = 0 := by
  unfold parseMoneyValue
  rcases plainAmount?_eq_some h with ⟨hs, hq⟩ | ⟨whole, fraction, hplain, hq⟩
  · refine .inr ⟨if_pos (.inl hs), ?_⟩
    have hzero : (n : ℚ) = 0 := by simpa using hq
    exact_mod_cast hzero
  · obtain ⟨c, t, hs, hc⟩ := hplain.head
    have hnot : ¬ (cleaned value = [] ∨ cleaned value = ['-']) := by
      rw [hs]
      rintro (h | h)
      · cases h
      · cases h
        revert hc
        decide
    rw [if_neg hnot, parseFloat_plain hplain, ← hq, ofDecimal_small (by decide) hn]
    exact .inl rfl

/-! ## Texts the page writes -/

theorem cents_fixedText (n : ℕ) : plainAmount? (cleaned (fixedText 2 n)) = some ((n : ℚ) / 10 ^ 2) := by
  have hplain := fixedText_plain Nat.zero_lt_two n
  rw [cleaned_plain hplain, plainAmount?_plain hplain, plainValue_fixedText (by decide)]

theorem cleaned_thousands (h : Digits s) : cleaned (thousands s) = s := by
  induction s using thousands.induct with
  | case1 c d s ih =>
    have hc : cleaned (c :: thousands (d :: s)) = c :: d :: s := by
      rw [← List.singleton_append, cleaned_append, cleaned_digits fun x hx => .inl (h x (by simp [List.mem_singleton.1 hx])),
        ih fun x hx => h x (by simp [hx])]
      rfl
    unfold thousands
    split_ifs
    · exact hc
    · exact hc
  | case2 s hs =>
    have hsame : thousands s = s := by
      unfold thousands
      split
      · exact absurd rfl (hs _ _ _)
      · rfl
    rw [hsame, cleaned_digits fun c hc => .inl (h c hc)]

theorem formatMoney_cents (hn : n < 10 ^ 15) :
    cleaned (formatMoney (.finite (toBinary64 (n / 10 ^ 2)))) = fixedText 2 n := by
  have hnonneg : (0 : ℚ) ≤ toBinary64 (n / 10 ^ 2) := toBinary64_nonneg (by positivity)
  have hsign : Number.negative (.finite (toBinary64 (n / 10 ^ 2))) = false := decide_eq_false (not_lt.2 hnonneg)
  have hwhole := digits_toDigits (n / 10 ^ 2)
  have hcents := digits_zeroPadded 2 (n % 10 ^ 2)
  have hpoint : ∀ {s : List Char}, Digits s → ∀ c ∈ s, (decide (c ≠ '.')) = true := by
    intro s hs c hc
    refine decide_eq_true ?_
    rintro rfl
    exact absurd (hs '.' hc) (by decide)
  have hint : (fixedText 2 n).takeWhile (· ≠ '.') = Nat.toDigits 10 (n / 10 ^ 2) := by
    show (Nat.toDigits 10 (n / 10 ^ 2) ++ '.' :: zeroPadded 2 (n % 10 ^ 2)).takeWhile _ = _
    rw [List.takeWhile_append_of_pos (hpoint hwhole)]
    simp
  have hdec : (fixedText 2 n).dropWhile (· ≠ '.') = '.' :: zeroPadded 2 (n % 10 ^ 2) := by
    show (Nat.toDigits 10 (n / 10 ^ 2) ++ '.' :: zeroPadded 2 (n % 10 ^ 2)).dropWhile _ = _
    rw [List.dropWhile_append_of_pos (hpoint hwhole)]
    simp
  have hrest : (zeroPadded 2 (n % 10 ^ 2)).takeWhile (· ≠ '.') = zeroPadded 2 (n % 10 ^ 2) :=
    List.takeWhile_eq_self_iff.2 (hpoint hcents)
  have hformat : formatMoney (.finite (toBinary64 (n / 10 ^ 2))) =
      '$' :: (thousands (Nat.toDigits 10 (n / 10 ^ 2)) ++ '.' :: zeroPadded 2 (n % 10 ^ 2)) := by
    unfold formatMoney
    rw [fixedAbs_toBinary64 (by decide) hn]
    dsimp only
    rw [hint, hdec, hsign]
    dsimp only
    rw [hrest]
    rfl
  rw [hformat, ← List.singleton_append, cleaned_append, cleaned_append, cleaned_thousands hwhole,
    cleaned_digits (s := '.' :: _) fun c hc => (List.mem_cons.1 hc).symm.imp (hcents c) id]
  rfl

/-! ## Texts the server reads -/

/-- What a field may post for an amount of cents. -/
def HiddenAmount (hidden : List Char) (n : ℕ) : Prop := hidden = fixedText 2 n ∨ hidden = [] ∧ n = 0

theorem decimal?_fixedText (hn : n < 10 ^ 15) :
    ParamValidation.decimal? (fixedText 2 n) = some (.finite ((n : ℚ) / 10 ^ 2)) := by
  have hplain := fixedText_plain Nat.zero_lt_two n
  have hlen : (zeroPadded 2 (n % 10 ^ 2)).length = 2 := length_zeroPadded (by decide) (Nat.mod_lt n (by decide))
  have hvalue := plainValue_fixedText Nat.zero_lt_two n
  unfold plainValue at hvalue
  rw [hlen] at hvalue
  have hcoefficient : digitsValue (Nat.toDigits 10 (n / 10 ^ 2) ++ zeroPadded 2 (n % 10 ^ 2)) = n := by
    have hcast := (div_left_inj' (by norm_num)).1 hvalue
    exact_mod_cast hcast
  refine ParamValidation.decimal?_finite.2 ⟨_, literal?_plain hplain, ?_, ?_⟩
  · rw [hlen, hcoefficient]
    have hlog : Nat.log 10 n < 15 := Nat.log_lt_of_lt_pow' (by decide) hn
    constructor
    · show (-1999999999999999997 : ℤ) ≤ -((2 : ℕ) : ℤ)
      norm_num
    · dsimp only
      omega
  · rw [hlen, hcoefficient]
    simp only [Numeral.value, Bool.false_eq_true, if_false, zpow_neg, zpow_natCast]
    rw [div_eq_mul_inv]

/-- **The server reads what is posted**: as a decimal where there is one, and with `safe_amount` up to its bound. -/
theorem HiddenAmount.read {hidden : List Char} (h : HiddenAmount hidden n) (hn : n < 10 ^ 15) :
    (hidden ≠ [] → ParamValidation.decimal? hidden = some (.finite ((n : ℚ) / 10 ^ 2))) ∧
    ParamValidation.safeAmount (some hidden) = .ok (.finite (min ((n : ℚ) / 10 ^ 2) maxAmount)) := by
  rcases h with rfl | ⟨rfl, rfl⟩
  · refine ⟨fun _ => decimal?_fixedText hn, ?_⟩
    have hnot : ¬ (n : ℚ) / 10 ^ 2 < 0 := not_lt.2 (by positivity)
    rw [ParamValidation.safeAmount_eq, decimal?_fixedText hn, Dmis.safeAmount, if_neg hnot]
    split_ifs with hmax
    · rw [min_eq_right hmax.le]
      rfl
    · rw [min_eq_left (not_lt.1 hmax)]
      rfl
  · refine ⟨fun h => absurd rfl h, ?_⟩
    have hmin : min (((0 : ℕ) : ℚ) / 10 ^ 2) maxAmount = 0 := by norm_num [maxAmount]
    rw [hmin, ParamValidation.safeAmount_eq, ParamValidation.decimal?_blank rfl]
    rfl

/-! ## The page does what it is for -/

/-- The field shows and posts the amounts of the entry. -/
structure Shows (f : MoneyField) (e : Entry) : Prop where
  typed : ∃ n : ℕ, n < 10 ^ 15 ∧ e.typed = (n : ℚ) / 10 ^ 2 ∧ plainAmount? (cleaned f.shown) = some ((n : ℚ) / 10 ^ 2)
  posted : ∃ n : ℕ, n < 10 ^ 15 ∧ e.posted = (n : ℚ) / 10 ^ 2 ∧ HiddenAmount f.hidden n

theorem init_shows (h : CentsText value) : Shows (initMoneyInput value) ⟨moneyValue value, moneyValue value⟩ := by
  obtain ⟨n, hn, ht⟩ := h
  have hvalue := moneyValue_of_cents ht
  unfold initMoneyInput
  rcases parseMoneyValue_cents hn ht with hp | ⟨hp, rfl⟩
  · rw [hp]
    refine ⟨⟨n, hn, hvalue, ?_⟩, ⟨n, hn, hvalue, .inl (toFixed_toBinary64 (by decide) hn)⟩⟩
    have hshown := cents_fixedText n
    rwa [cleaned_plain (fixedText_plain (by decide) n), ← formatMoney_cents hn] at hshown
  · rw [hp]
    exact ⟨⟨0, hn, hvalue, ht⟩, ⟨0, hn, hvalue, .inr ⟨rfl, rfl⟩⟩⟩

/-- **A visit step by step.** -/
theorem fieldStep_shows {f : MoneyField} {e : Entry} (h : Shows f e) (event : FieldEvent)
    (ht : ∀ value, event = .edit value → CentsText value) : Shows (fieldStep f event) (entryStep e event) := by
  obtain ⟨⟨n, hn, htyped, hshown⟩, hposted⟩ := h
  have hread := parseMoneyValue_cents hn hshown
  cases event with
  | focus =>
    refine ⟨⟨n, hn, htyped, ?_⟩, ?_⟩
    · unfold fieldStep
      rcases hread with hp | ⟨hp, rfl⟩
      · rw [hp]
        dsimp only
        split_ifs with hz
        · have hzero : n = 0 := by
            by_contra hne
            have hpos : (0 : ℚ) < n / 10 ^ 2 := by positivity
            have hscale : AtScale 2 ((n : ℚ) / 10 ^ 2) := atScale_iff.2 ⟨n, by norm_num⟩
            have hlt := toBinary64_pos_of_scale (by decide) hscale hpos
            rw [Number.finite.inj hz] at hlt
            exact lt_irrefl _ hlt
          subst hzero
          simp [cleaned, plainAmount?]
        · rw [toFixed_toBinary64 (by decide) hn]
          exact cents_fixedText n
      · rw [hp]
        simp [cleaned, plainAmount?]
    · unfold fieldStep
      rcases hread with hp | ⟨hp, -⟩ <;> rw [hp] <;> exact hposted
  | edit value =>
    obtain ⟨m, hm, hvalue⟩ := ht value rfl
    exact ⟨⟨m, hm, moneyValue_of_cents hvalue, hvalue⟩, hposted⟩
  | blur =>
    unfold fieldStep
    rcases hread with hp | ⟨hp, rfl⟩
    · rw [hp]
      refine ⟨⟨n, hn, htyped, ?_⟩, ⟨n, hn, htyped, .inl (toFixed_toBinary64 (by decide) hn)⟩⟩
      have htext := cents_fixedText n
      rwa [cleaned_plain (fixedText_plain (by decide) n), ← formatMoney_cents hn] at htext
    · rw [hp]
      refine ⟨⟨0, hn, htyped, by simp [cleaned, plainAmount?]⟩, ⟨0, hn, htyped, .inr ⟨rfl, rfl⟩⟩⟩

/-- The run. -/
theorem run_shows : ∀ (events : List FieldEvent) {f : MoneyField} {e : Entry}, Shows f e →
    (∀ text, .edit text ∈ events → CentsText text) → Shows (run fieldStep f events) (run entryStep e events)
  | [], _, _, h, _ => h
  | event :: events, _, _, h, ht => by
    refine run_shows events (fieldStep_shows h event fun text hevent => ?_) fun text hm => ht text (by simp [hm])
    exact ht text (by simp [hevent])

end

/-- **Every sequence of visits posts the amounts that were left in the field.** -/
theorem money_input_exact (value : List Char) (events : List FieldEvent) (hv : CentsText value)
    (he : ∀ text, .edit text ∈ events → CentsText text) :
    let f := run fieldStep (initMoneyInput value) events
    let e := run entryStep ⟨moneyValue value, moneyValue value⟩ events
    moneyValue f.shown = e.typed ∧
    (f.hidden ≠ [] → ParamValidation.decimal? f.hidden = some (.finite e.posted)) ∧ (f.hidden = [] → e.posted = 0) ∧
    ParamValidation.safeAmount (some f.hidden) = .ok (.finite (min e.posted maxAmount)) := by
  intro f e
  have hshows : Shows f e := run_shows events (init_shows hv) he
  obtain ⟨⟨m, hm, htyped, hshown⟩, ⟨n, hn, hposted, hposts⟩⟩ := hshows
  obtain ⟨hdecimal, hsafe⟩ := hposts.read hn
  refine ⟨(moneyValue_of_cents hshown).trans htyped.symm, ?_, fun hempty => ?_, ?_⟩
  · rwa [hposted]
  · rcases hposts with hp | ⟨-, rfl⟩
    · rw [hp] at hempty
      simp [fixedText] at hempty
    · rw [hposted]
      norm_num
  · rwa [hposted]

/-- A stored cost is replaced, and the field visited once more. -/
def Site.costVisits : List FieldEvent := [.focus, .edit "$2,000.5".toList, .blur, .focus, .blur]

theorem money_input_exact_visits :
    let f := run fieldStep (initMoneyInput "1500.00".toList) Site.costVisits
    moneyValue f.shown = 4001 / 2 ∧ ParamValidation.safeAmount (some f.hidden) = .ok (.finite (4001 / 2)) := by
  have hv : CentsText "1500.00".toList := ⟨150000, by norm_num, by decide +kernel⟩
  have ht : CentsText "$2,000.5".toList := ⟨200050, by norm_num, by decide +kernel⟩
  have he : ∀ text, .edit text ∈ Site.costVisits → CentsText text := by
    intro text hm
    simp only [Site.costVisits, List.mem_cons, List.not_mem_nil, FieldEvent.edit.injEq, reduceCtorEq, false_or,
      or_false] at hm
    exact hm ▸ ht
  obtain ⟨hshown, -, -, hread⟩ := money_input_exact "1500.00".toList Site.costVisits hv he
  have htyped : (run entryStep ⟨moneyValue "1500.00".toList, moneyValue "1500.00".toList⟩ Site.costVisits).typed = 4001 / 2 := by
    decide +kernel
  have hposted : min (run entryStep ⟨moneyValue "1500.00".toList, moneyValue "1500.00".toList⟩ Site.costVisits).posted
      maxAmount = 4001 / 2 := by decide +kernel
  rw [htyped] at hshown
  rw [hposted] at hread
  exact ⟨hshown, hread⟩

end Dmis
