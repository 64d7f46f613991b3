import Dmis.Lib.PythonText

/-!
# Phone numbers

`normalize_phone_number` (`app/core/phone_utils.py:39-81`) brings a number to the form `+1 (XXX) XXX-XXXX` that
`validate_phone_format` (`:24-36`) demands. Digits are those of any script, as `\d` and `\D` have it.

| here | there |
| --- | --- |
| `phoneRegex`, `matchPhone` | `PHONE_REGEX` and `re.match`; `$` also stands before a last newline |
| `withoutCountryCode` | the two branches on `cleaned.startswith` (`:65-70`) |
| `subscriber` | the digits a number has behind its country code; not in the source |

The one of a leading `+1` is dropped only from more than ten digits. So `+1` and nine digits pass as a number of ten,
its area code begun by the country code; `phone_faithful_iff` says that nothing else goes wrong.
-/

namespace Dmis

namespace PhoneNumbers

open Python

abbrev Text := List Char

/-- `\d`. -/
def isDigit (c : Char) : Bool := (decimalDigit? c).isSome

/-! ## The format -/

/-- `^\+1 \(\d{3}\) \d{3}-\d{4}$`, a condition for each character. -/
def phoneRegex : List (Char → Bool) :=
  [(· = '+'), (· = '1'), (· = ' '), (· = '('), isDigit, isDigit, isDigit, (· = ')'), (· = ' '),
    isDigit, isDigit, isDigit, (· = '-'), isDigit, isDigit, isDigit, isDigit]

/-- What is left behind a match at the beginning. -/
def matchPhone : List (Char → Bool) → Text → Option Text
  | [], s => some s
  | p :: ps, c :: s => if p c then matchPhone ps s else none
  | _ :: _, [] => none

def validatePhoneFormat (phoneNo : Text) : Bool :=
  phoneNo ≠ [] && (matchPhone phoneRegex (strip phoneNo)).any fun rest => rest = [] || rest = ['\n']

/-! ## Normalising -/

def digits (s : Text) : Text := s.filter isDigit

def withoutCountryCode (cleaned ds : Text) : Text :=
  if ['+', '1'] <+: cleaned then (if 10 < ds.length then ds.drop 1 else ds)
  else if ['1'] <+: cleaned ∧ ds.length = 11 then ds.drop 1
  else ds

/-- The format around ten digits. -/
def formatted (ds : Text) : Text :=
  ['+', '1', ' ', '('] ++ ds.take 3 ++ [')', ' '] ++ (ds.drop 3).take 3 ++ '-' :: (ds.drop 6).take 4

def normalizePhoneNumber (phoneNo : Text) : Option Text :=
  let cleaned := strip phoneNo
  let ds := withoutCountryCode cleaned (digits cleaned)
  if phoneNo = [] then none else if ds.length ≠ 10 then none else some (formatted ds)

/-! ## What a number means -/

/-- The digits without the one of a leading `+1`, or without the leading one of eleven digits. -/
def subscriber (s : Text) : Text :=
  let ds := digits (strip s)
  if ['+', '1'] <+: strip s ∨ (ds.length = 11 ∧ ds.head? = some '1') then ds.tail else ds

structure Faithful (s : Text) : Prop where
  valid : ∀ v, normalizePhoneNumber s = some v → validatePhoneFormat v = true
  again : ∀ v, normalizePhoneNumber s = some v → normalizePhoneNumber v = some v
  same : ∀ v, normalizePhoneNumber s = some v → subscriber v = subscriber s
  refused : (subscriber s).length ≠ 10 → normalizePhoneNumber s = none

/-! ## The formatted number -/

theorem exists_ten {ds : Text} (h : ds.length = 10) :
    ∃ a b c d e f g i j k, ds = [a, b, c, d, e, f, g, i, j, k] := by
  match ds, h with
  | [a, b, c, d, e, f, g, i, j, k], _ => exact ⟨a, b, c, d, e, f, g, i, j, k, rfl⟩

theorem normalizePhoneNumber_some {s v : Text} : normalizePhoneNumber s = some v ↔
    s ≠ [] ∧ (withoutCountryCode (strip s) (digits (strip s))).length = 10 ∧
      v = formatted (withoutCountryCode (strip s) (digits (strip s))) := by
  unfold normalizePhoneNumber
  by_cases hs : s = []
  · simp [hs]
  · by_cases hlen : (withoutCountryCode (strip s) (digits (strip s))).length = 10
    · simp [hs, hlen, eq_comm]
    · simp [hs, hlen]

theorem matchPhone_eq {ps : List (Char → Bool)} {s : Text} (h : List.Forall₂ (fun p c => p c = true) ps s) :
    matchPhone ps s = some [] := by
  induction h with
  | nil => rfl
  | cons hc _ ih => rw [matchPhone, if_pos hc, ih]

theorem plusOne_formatted (ds : Text) : ['+', '1'] <+: formatted ds := by
  simp [formatted]

section
variable {ds : Text} (hlen : ds.length = 10) (hds : ∀ c ∈ ds, isDigit c = true)
include hlen hds

theorem strip_formatted : strip (formatted ds) = formatted ds := by
  obtain ⟨a, b, c, d, e, f, g, i, j, k, rfl⟩ := exists_ten hlen
  have hk : isSpace k = false := isSpace_of_decimalDigit (hds k (by simp))
  exact strip_eq_self (s := ['1', ' ', '(', a, b, c, ')', ' ', d, e, f, '-', g, i, j]) (by decide) hk

theorem digits_formatted : digits (formatted ds) = '1' :: ds := by
  have hpart : ∀ m n, ((ds.drop m).take n).filter isDigit = (ds.drop m).take n := by
    intro m n
    rw [List.filter_eq_self]
    exact fun c hc => hds c (List.mem_of_mem_drop (List.mem_of_mem_take hc))
  have hopen : ['+', '1', ' ', '('].filter isDigit = ['1'] := by decide
  have hclose : [')', ' '].filter isDigit = [] := by decide
  have hdash : isDigit '-' = false := by decide
  have hfirst : (ds.take 3).filter isDigit = ds.take 3 := hpart 0 3
  rw [digits, formatted, List.filter_append, List.filter_append, List.filter_append, List.filter_append, hopen, hclose,
    hfirst, hpart, List.filter_cons_of_neg (by simp [hdash]), hpart]
  obtain ⟨a, b, c, d, e, f, g, i, j, k, rfl⟩ := exists_ten hlen
  rfl

theorem validate_formatted : validatePhoneFormat (formatted ds) = true := by
  rw [validatePhoneFormat, strip_formatted hlen hds]
  obtain ⟨a, b, c, d, e, f, g, i, j, k, rfl⟩ := exists_ten hlen
  simp only [List.mem_cons, List.not_mem_nil, or_false, forall_eq_or_imp, forall_eq] at hds
  obtain ⟨ha, hb, hc, hd, he, hf, hg, hi, hj, hk⟩ := hds
  have hmatch : matchPhone phoneRegex (formatted [a, b, c, d, e, f, g, i, j, k]) = some [] :=
    matchPhone_eq (.cons rfl (.cons rfl (.cons rfl (.cons rfl (.cons ha (.cons hb (.cons hc (.cons rfl (.cons rfl
      (.cons hd (.cons he (.cons hf (.cons rfl (.cons hg (.cons hi (.cons hj (.cons hk .nil)))))))))))))))))
  rw [hmatch]
  rfl

theorem normalize_formatted : normalizePhoneNumber (formatted ds) = some (formatted ds) := by
  have hplus := plusOne_formatted ds
  have hne : formatted ds ≠ [] := by simp [formatted]
  have hcode : withoutCountryCode (formatted ds) ('1' :: ds) = ds := by
    rw [withoutCountryCode, if_pos hplus, if_pos (by simp [hlen])]
    rfl
  have hkept : withoutCountryCode (strip (formatted ds)) (digits (strip (formatted ds))) = ds := by
    rw [strip_formatted hlen hds, digits_formatted hlen hds, hcode]
  exact normalizePhoneNumber_some.2 ⟨hne, by rw [hkept, hlen], by rw [hkept]⟩

theorem subscriber_formatted : subscriber (formatted ds) = ds := by
  have hplus := plusOne_formatted ds
  simp only [subscriber, strip_formatted hlen hds, digits_formatted hlen hds, hplus, true_or, if_true, List.tail_cons]

end

/-! ## The country code -/

theorem isDigit_digits (s : Text) : ∀ c ∈ digits s, isDigit c = true := fun _ hc => (List.mem_filter.1 hc).2

theorem mem_withoutCountryCode {cleaned ds : Text} {c : Char} (h : c ∈ withoutCountryCode cleaned ds) : c ∈ ds := by
  unfold withoutCountryCode at h
  split_ifs at h
  · exact List.mem_of_mem_drop h
  · exact h
  · exact List.mem_of_mem_drop h
  · exact h

theorem head?_digits {cleaned : Text} (h : ['1'] <+: cleaned) : (digits cleaned).head? = some '1' := by
  obtain ⟨t, rfl⟩ := h
  rfl

/-- `+1` in front of nine digits. -/
def NineDigits (s : Text) : Prop := ['+', '1'] <+: strip s ∧ (digits (strip s)).length = 10

/-- But for nine digits, ten are left exactly if they are the subscriber's. -/
theorem withoutCountryCode_eq {s : Text} (h : ¬ NineDigits s)
    (hlen : (withoutCountryCode (strip s) (digits (strip s))).length = 10) :
    withoutCountryCode (strip s) (digits (strip s)) = subscriber s := by
  unfold withoutCountryCode subscriber at *
  by_cases hplus : ['+', '1'] <+: strip s
  · have hten : (digits (strip s)).length ≠ 10 := fun he => h ⟨hplus, he⟩
    simp only [hplus, true_or, if_true] at hlen ⊢
    by_cases hmore : 10 < (digits (strip s)).length
    · rw [if_pos hmore, List.drop_one]
    · rw [if_neg hmore] at hlen
      omega
  · simp only [hplus, false_or, if_false] at hlen ⊢
    by_cases hone : ['1'] <+: strip s ∧ (digits (strip s)).length = 11
    · rw [if_pos hone, if_pos ⟨hone.2, head?_digits hone.1⟩, List.drop_one]
    · rw [if_neg hone] at hlen ⊢
      rw [if_neg (by omega)]

/-- **A phone number keeps its digits** unless it is `+1` and nine digits. -/
theorem phone_faithful_iff (s : Text) : Faithful s ↔ ¬ NineDigits s := by
  constructor
  · rintro h ⟨hplus, hten⟩
    have hsub : (subscriber s).length ≠ 10 := by
      simp only [subscriber, hplus, true_or, if_true, List.length_tail]
      omega
    have hkept : withoutCountryCode (strip s) (digits (strip s)) = digits (strip s) := by
      rw [withoutCountryCode, if_pos hplus, if_neg (by omega)]
    have hne : s ≠ [] := by
      rintro rfl
      exact absurd hten (by decide)
    have hsome := normalizePhoneNumber_some.2 ⟨hne, by rw [hkept, hten], rfl⟩
    rw [h.refused hsub] at hsome
    cases hsome
  · intro h
    have hdigits : ∀ c ∈ withoutCountryCode (strip s) (digits (strip s)), isDigit c = true :=
      fun c hc => isDigit_digits _ c (mem_withoutCountryCode hc)
    refine ⟨fun v hv => ?_, fun v hv => ?_, fun v hv => ?_, fun hsub => ?_⟩
    · obtain ⟨-, hlen, rfl⟩ := normalizePhoneNumber_some.1 hv
      exact validate_formatted hlen hdigits
    · obtain ⟨-, hlen, rfl⟩ := normalizePhoneNumber_some.1 hv
      exact normalize_formatted hlen hdigits
    · obtain ⟨-, hlen, rfl⟩ := normalizePhoneNumber_some.1 hv
      rw [subscriber_formatted hlen hdigits, withoutCountryCode_eq h hlen]
    · cases hv : normalizePhoneNumber s with
      | none => rfl
      | some v =>
        obtain ⟨-, hlen, -⟩ := normalizePhoneNumber_some.1 hv
        rw [← withoutCountryCode_eq h hlen] at hsub
        exact absurd hlen hsub

/-- `+1 876 555 123` lacks a digit and passes with the area code 187. -/
theorem nine_digits_pass :
    normalizePhoneNumber "+1 876 555 123".toList = some "+1 (187) 655-5123".toList ∧
      subscriber "+1 876 555 123".toList = "876555123".toList ∧ ¬ Faithful "+1 876 555 123".toList := by
  refine ⟨by decide +kernel, by decide +kernel, fun h => ?_⟩
  have hnone := h.refused (by decide +kernel)
  revert hnone
  decide +kernel

end PhoneNumbers

end Dmis
