import Mathlib.Data.List.DropRight
import Mathlib.Data.Nat.Log
import Mathlib.Data.Rat.Lemmas

/-!
# Numbers in Python text

`literal?` reads what `Decimal(text)` accepts: a sign, then `inf`, `infinity`, `nan` or `snan` with a payload in
any case, or digits with at most one point and an exponent; white space around the number and underscores in it
are dropped, and a digit of any script counts as the digit it is. `Numeral.Exact` are the limits of the exact
conversion: beyond them `Decimal(text)` raises. `intOf?` is `int(text)`.
-/

namespace Python

/-! ## Characters -/

/-- `str.isspace` of one character. -/
def isSpace (c : Char) : Bool :=
  (9 ≤ c.toNat && c.toNat ≤ 13) || (28 ≤ c.toNat && c.toNat ≤ 32) || (0x2000 ≤ c.toNat && c.toNat ≤ 0x200a) ||
    c.toNat ∈ [0x85, 0xa0, 0x1680, 0x2028, 0x2029, 0x202f, 0x205f, 0x3000]

/-- The zeros of Unicode 14; the other nine digits of a script follow its zero. -/
def digitZeros : List ℕ :=
  [0x30, 0x660, 0x6f0, 0x7c0, 0x966, 0x9e6, 0xa66, 0xae6, 0xb66, 0xbe6, 0xc66, 0xce6, 0xd66, 0xde6, 0xe50, 0xed0,
   0xf20, 0x1040, 0x1090, 0x17e0, 0x1810, 0x1946, 0x19d0, 0x1a80, 0x1a90, 0x1b50, 0x1bb0, 0x1c40, 0x1c50, 0xa620,
   0xa8d0, 0xa900, 0xa9d0, 0xa9f0, 0xaa50, 0xabf0, 0xff10, 0x104a0, 0x10d30, 0x11066, 0x110f0, 0x11136, 0x111d0,
   0x112f0, 0x11450, 0x114d0, 0x11650, 0x116c0, 0x11730, 0x118e0, 0x11950, 0x11c50, 0x11d50, 0x11da0, 0x16a60,
   0x16ac0, 0x16b50, 0x1d7ce, 0x1d7d8, 0x1d7e2, 0x1d7ec, 0x1d7f6, 0x1e140, 0x1e2f0, 0x1e950, 0x1fbf0]

/-- The decimal digit a character is, in whatever script. -/
def decimalDigit? (c : Char) : Option ℕ :=
  (digitZeros.find? fun z => z ≤ c.toNat && c.toNat < z + 10).map fun z => c.toNat - z

/-- `text.strip()`. -/
def strip (s : List Char) : List Char := (s.dropWhile isSpace).rdropWhile isSpace

/-- `strip` of a string. -/
def stripped (s : String) : String := String.ofList (strip s.toList)

/-- White space becomes a blank and a digit its ASCII digit; `none` for a character with no ASCII reading. -/
def asciiChar (c : Char) : Option Char :=
  if 0 < c.toNat ∧ c.toNat < 128 then some c
  else if isSpace c then some ' '
  else (decimalDigit? c).map fun d => Char.ofNat (48 + d)

/-- The value of a list of ASCII digits. -/
def digitsValue (s : List Char) : ℕ := s.foldl (fun n c => 10 * n + (c.toNat - 48)) 0

/-- The digits, if there is one and nothing else. -/
def digits? (s : List Char) : Option ℕ := if s ≠ [] ∧ s.all Char.isDigit then some (digitsValue s) else none

/-- The sign and what follows it; true for a minus. -/
def splitSign : List Char → Bool × List Char
  | '-' :: s => (true, s)
  | '+' :: s => (false, s)
  | s => (false, s)

/-! ## Decimal literals -/

/-- A finite literal, `±coefficient · 10 ^ exponent`. -/
structure Numeral where
  negative : Bool
  coefficient : ℕ
  exponent : ℤ
  deriving DecidableEq, Repr

inductive Literal where
  | numeral (n : Numeral)
  | infinity (negative : Bool)
  | nan
  deriving DecidableEq, Repr

def Numeral.value (n : Numeral) : ℚ := (if n.negative then -(n.coefficient : ℚ) else n.coefficient) * 10 ^ n.exponent

/-- The conversion neither rounds nor clamps: the exponents of `libmpdec` reach. -/
def Numeral.Exact (n : Numeral) : Prop :=
  -1999999999999999997 ≤ n.exponent ∧ n.exponent + Nat.log 10 n.coefficient ≤ 999999999999999999

instance (n : Numeral) : Decidable n.Exact := by unfold Numeral.Exact; infer_instance

/-- `e` or `E`, a sign and digits. -/
def exponent? : List Char → Option ℤ
  | [] => some 0
  | _ :: s =>
    let (negative, ds) := splitSign s
    (digits? ds).map fun n => if negative then -(n : ℤ) else n

def numeral? (negative : Bool) (s : List Char) : Option Numeral := do
  let mantissa := s.takeWhile fun c => c ≠ 'e' && c ≠ 'E'
  let whole := mantissa.takeWhile (· ≠ '.')
  let fraction := (mantissa.drop whole.length).drop 1
  let coefficient ← digits? (whole ++ fraction)
  let exponent ← exponent? (s.drop mantissa.length)
  pure { negative := negative, coefficient := coefficient, exponent := exponent - fraction.length }

/-- The payload of a NaN: digits, or nothing. -/
def nanPayload? (s : List Char) : Option (List Char) :=
  match s.map Char.toLower with
  | 'n' :: 'a' :: 'n' :: p => some p
  | 's' :: 'n' :: 'a' :: 'n' :: p => some p
  | _ => none

/-- The literal after its sign. -/
def unsigned? (negative : Bool) (s : List Char) : Option Literal :=
  if s.map Char.toLower = "inf".toList ∨ s.map Char.toLower = "infinity".toList then some (.infinity negative)
  else
    match nanPayload? s with
    | some p => if p.all Char.isDigit then some .nan else none
    | none => (numeral? negative s).map .numeral

/-- **What a text denotes as a decimal literal**, of any size. -/
def literal? (s : List Char) : Option Literal := do
  let t ← ((strip s).filter (· ≠ '_')).mapM asciiChar
  let (negative, u) := splitSign t
  unsigned? negative u

/-- The number a text denotes. -/
def denotes (s : List Char) : Option ℚ :=
  match literal? s with
  | some (.numeral n) => some n.value
  | _ => none

/-! ## `int(text)` -/

/-- The digits between single underscores. -/
def grouped : List Char → Option (List Char)
  | [] => none
  | [c] => if c.isDigit then some [c] else none
  | c :: '_' :: s => if c.isDigit then (grouped s).map (c :: ·) else none
  | c :: s => if c.isDigit then (grouped s).map (c :: ·) else none

/-- The white space `int` drops from its converted text. -/
def isAsciiSpace (c : Char) : Bool := c = ' ' || (9 ≤ c.toNat && c.toNat ≤ 13)

def toIntChar (c : Char) : Option Char :=
  if c.toNat < 128 then some c
  else if isSpace c then some ' '
  else (decimalDigit? c).map fun d => Char.ofNat (48 + d)

/-- `int(text)`; `none` where it raises, also for a text of more than 4300 digits. -/
def intOf? (s : List Char) : Option ℤ := do
  let t ← s.mapM toIntChar
  let (negative, u) := splitSign ((t.dropWhile isAsciiSpace).rdropWhile isAsciiSpace)
  let ds ← grouped u
  if ds.length ≤ 4300 then pure (if negative then -(digitsValue ds : ℤ) else digitsValue ds) else none

/-! ## Stripped texts -/

theorem strip_strip (s : List Char) : strip (strip s) = strip s := by
  have hleft : (strip s).dropWhile isSpace = strip s := by
    rw [List.dropWhile_eq_self_iff]
    intro hl
    have hp : strip s <+: s.dropWhile isSpace := List.rdropWhile_prefix _ _
    rw [hp.getElem hl]
    exact List.dropWhile_get_zero_not _ _ _
  rw [strip, hleft, strip, List.rdropWhile_idempotent]

/-- What is stripped is white space on both sides. -/
theorem exists_strip (s : List Char) : ∃ before after, s = before ++ strip s ++ after ∧
    (∀ c ∈ before, isSpace c = true) ∧ ∀ c ∈ after, isSpace c = true := by
  refine ⟨s.takeWhile isSpace, (s.dropWhile isSpace).rtakeWhile isSpace, ?_, fun c hc => ?_, fun c hc => ?_⟩
  · rw [List.append_assoc, strip, List.rdropWhile_append_rtakeWhile, List.takeWhile_append_dropWhile]
  · exact List.mem_takeWhile_imp hc
  · exact List.mem_rtakeWhile_imp hc

/-- A text without white space has nothing to strip. -/
theorem strip_of_no_space {s : List Char} (h : ∀ c ∈ s, isSpace c = false) : strip s = s := by
  have hdrop : s.dropWhile isSpace = s := by
    cases s with
    | nil => rfl
    | cons c s => exact List.dropWhile_cons_of_neg (by simp [h c List.mem_cons_self])
  rw [strip, hdrop, List.rdropWhile_eq_self_iff]
  intro hne
  simp [h _ (List.getLast_mem hne)]

/-- Nothing is stripped between characters that are no white space. -/
theorem strip_eq_self {c d : Char} {s : List Char} (hc : isSpace c = false) (hd : isSpace d = false) :
    strip (c :: (s ++ [d])) = c :: (s ++ [d]) := by
  rw [strip, List.dropWhile_cons_of_neg (by simp [hc]), ← List.cons_append,
    List.rdropWhile_concat_neg _ _ _ (by simp [hd])]

/-- A digit of any script is no white space. -/
theorem isSpace_of_decimalDigit {c : Char} (h : (decimalDigit? c).isSome = true) : isSpace c = false := by
  by_contra hspace
  rw [Bool.not_eq_false] at hspace
  have hcode : c.toNat ∈ List.range' 9 5 ++ List.range' 28 5 ++ List.range' 0x2000 11 ++
      [0x85, 0xa0, 0x1680, 0x2028, 0x2029, 0x202f, 0x205f, 0x3000] := by
    simp only [isSpace, Bool.or_eq_true, Bool.and_eq_true, decide_eq_true_eq, List.mem_cons, List.not_mem_nil,
      or_false] at hspace
    simp only [List.mem_append, List.mem_range'_1, List.mem_cons, List.not_mem_nil, or_false]
    omega
  have hnone : ∀ n ∈ List.range' 9 5 ++ List.range' 28 5 ++ List.range' 0x2000 11 ++
      [0x85, 0xa0, 0x1680, 0x2028, 0x2029, 0x202f, 0x205f, 0x3000],
      (digitZeros.find? fun z => z ≤ n && n < z + 10) = none := by decide +kernel
  rw [decimalDigit?, hnone _ hcode] at h
  cases h

theorem literal?_strip (s : List Char) : literal? (strip s) = literal? s := by
  unfold literal?
  rw [strip_strip]

theorem denotes_eq_some_iff {s : List Char} {q : ℚ} :
    denotes s = some q ↔ ∃ n, literal? s = some (.numeral n) ∧ n.value = q := by
  unfold denotes
  split
  · rename_i n h
    simp [h]
  · rename_i h
    constructor
    · rintro ⟨⟩
    · rintro ⟨n, hn, -⟩
      exact absurd hn (h n)

end Python
