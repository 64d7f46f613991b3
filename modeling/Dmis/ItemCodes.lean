import Dmis.Staging
import Mathlib.Data.Finset.Card
import Mathlib.Order.Interval.Finset.Nat

/-!
# Item codes

`generate_item_code` (`scripts/populate_upc_inventory.py:30-44`) makes a code of a description: its first twelve letters
and digits, or these with a counter behind them, cut so that the whole has 16 characters.

| here | there |
| --- | --- |
| `stem` | `clean` |
| `candidate` | `clean[:16-len(suffix)] + suffix` |
| `probe` | the loop; a unit of fuel is one look into `existing_codes` |
| `generateItemCode` | the function, with `existing_codes` after the call |

The candidates of two counters can be equal, since a stem may end in digits and gets shorter. Those with nine digits all
have the first seven characters of the stem in front, so they are 900000000 codes, and the loop ends before it has gone
through them. Main theorem `item_codes_fresh`.
-/

namespace Dmis

namespace ItemCodes

abbrev Text := List Char

/-- `str.upper`, which leaves no letter from a to z as it is. -/
structure PythonCasing extends Casing where
  changes_lower : ∀ c, c.isLower = true → upper c ≠ [c]

/-- `s[:i]`. -/
def sliceTo (s : Text) (i : ℤ) : Text := s.take (if 0 ≤ i then i.toNat else (s.length + i).toNat)

def stem (up : PythonCasing) (itemDesc : Text) : Text :=
  let clean := ((itemDesc.flatMap up.upper).filter Char.isAlphanum).take 12
  if clean = [] then "ITEM".toList else clean

def candidate (clean : Text) (counter : ℕ) : Text :=
  let suffix := Nat.toDigits 10 counter
  sliceTo clean (16 - suffix.length) ++ suffix

def probe (existingCodes : Finset Text) (clean : Text) : ℕ → Text → ℕ → Option Text
  | 0, _, _ => none
  | fuel + 1, code, counter =>
    if code ∈ existingCodes then probe existingCodes clean fuel (candidate clean counter) (counter + 1) else some code

section
variable (up : PythonCasing)

def generateItemCode (fuel : ℕ) (itemDesc : Text) (existingCodes : Finset Text) : Option (Text × Finset Text) :=
  (probe existingCodes (stem up itemDesc) fuel (stem up itemDesc) 1).map fun code =>
    (code.take 16, insert code existingCodes)

/-- One call after the other. -/
def generateItemCodes (fuel : ℕ) : List Text → Finset Text → Option (List Text × Finset Text)
  | [], existingCodes => some ([], existingCodes)
  | itemDesc :: descs, existingCodes => do
    let (code, existingCodes) ← generateItemCode up fuel itemDesc existingCodes
    let (codes, existingCodes) ← generateItemCodes fuel descs existingCodes
    pure (code :: codes, existingCodes)

end

/-! ## Stems -/

def isCodeChar (c : Char) : Bool := c.isUpper || c.isDigit

/-- One to twelve letters and digits. -/
structure Stem (clean : Text) : Prop where
  pos : 0 < clean.length
  le : clean.length ≤ 12
  chars : ∀ c ∈ clean, isCodeChar c = true

theorem isCodeChar_of_upper (up : PythonCasing) {c d : Char} (hd : d ∈ up.upper c) (h : d.isAlphanum = true) :
    isCodeChar d = true := by
  have hlower : d.isLower = false := by
    by_contra hl
    exact up.changes_lower d (by simpa using hl) (up.upper_upper c d hd)
  unfold Char.isAlphanum Char.isAlpha at h
  unfold isCodeChar
  simpa [hlower] using h

theorem stem_spec (up : PythonCasing) (itemDesc : Text) : Stem (stem up itemDesc) := by
  unfold stem
  by_cases h : ((itemDesc.flatMap up.upper).filter Char.isAlphanum).take 12 = []
  · simp only [h, if_true]
    exact ⟨by decide, by decide, Relational.forall_of_all (by decide)⟩
  · simp only [h, if_false]
    refine ⟨List.length_pos_iff.2 h, List.length_take_le .., fun c hc => ?_⟩
    obtain ⟨hc, halnum⟩ := List.mem_filter.1 (List.mem_of_mem_take hc)
    obtain ⟨d, -, hd⟩ := List.mem_flatMap.1 hc
    exact isCodeChar_of_upper up hd halnum

/-! ## Candidates -/

theorem length_toDigits_le {n k : ℕ} (hk : 0 < k) : (Nat.toDigits 10 n).length ≤ k ↔ n < 10 ^ k :=
  Nat.length_toDigits_le_iff (by decide) hk

theorem candidate_eq (clean : Text) {n : ℕ} (hn : n < 10 ^ 9) :
    candidate clean n = clean.take (16 - (Nat.toDigits 10 n).length) ++ Nat.toDigits 10 n := by
  have hlen := (length_toDigits_le (by decide)).2 hn
  have hcut : sliceTo clean (16 - (Nat.toDigits 10 n).length) = clean.take (16 - (Nat.toDigits 10 n).length) := by
    unfold sliceTo
    rw [if_pos (by omega)]
    congr 1
    omega
  exact congrArg (· ++ Nat.toDigits 10 n) hcut

/-- What a call gives back. -/
structure Code (code : Text) : Prop where
  pos : 1 ≤ code.length
  le : code.length ≤ 16
  chars : ∀ c ∈ code, isCodeChar c = true

theorem Stem.code {clean : Text} (h : Stem clean) : Code clean := ⟨h.pos, h.le.trans (by decide), h.chars⟩

theorem Stem.candidate {clean : Text} (h : Stem clean) {n : ℕ} (hn : n < 10 ^ 9) : Code (candidate clean n) := by
  have hlen := (length_toDigits_le (by decide)).2 hn
  have hpos : 0 < (Nat.toDigits 10 n).length := Nat.length_toDigits_pos
  rw [candidate_eq clean hn]
  refine ⟨?_, ?_, fun c hc => ?_⟩
  · rw [List.length_append]
    omega
  · rw [List.length_append, List.length_take]
    omega
  · rcases List.mem_append.1 hc with hc | hc
    · exact h.chars c (List.mem_of_mem_take hc)
    · have hdigit := Nat.isDigit_of_mem_toDigits (by decide) (by decide) hc
      unfold isCodeChar
      rw [hdigit, Bool.or_true]

/-- All of nine digits. -/
theorem length_toDigits_nine {n : ℕ} (hlo : 10 ^ 8 ≤ n) (hhi : n < 10 ^ 9) : (Nat.toDigits 10 n).length = 9 := by
  have hle := (length_toDigits_le (by decide)).2 hhi
  have hlt : ¬ (Nat.toDigits 10 n).length ≤ 8 := by
    rw [length_toDigits_le (by decide)]
    exact not_lt.2 hlo
  omega

theorem candidate_injOn (clean : Text) : Set.InjOn (candidate clean) (Finset.Ico (10 ^ 8) (10 ^ 9) : Finset ℕ) := by
  intro n hn m hm he
  obtain ⟨hnlo, hnhi⟩ := Finset.mem_Ico.1 (Finset.mem_coe.1 hn)
  obtain ⟨hmlo, hmhi⟩ := Finset.mem_Ico.1 (Finset.mem_coe.1 hm)
  rw [candidate_eq clean hnhi, candidate_eq clean hmhi, length_toDigits_nine hnlo hnhi,
    length_toDigits_nine hmlo hmhi] at he
  have hdigits := List.append_cancel_left he
  rw [← Nat.ofDigitChars_ten_toDigits (n := n), hdigits, Nat.ofDigitChars_ten_toDigits]

/-- Fewer than 900000000 codes leave a counter free. -/
theorem exists_free (clean : Text) {existingCodes : Finset Text} (h : existingCodes.card < 9 * 10 ^ 8) :
    ∃ n, 1 ≤ n ∧ n < 10 ^ 9 ∧ candidate clean n ∉ existingCodes := by
  have hcard : ((Finset.Ico (10 ^ 8) (10 ^ 9)).image (candidate clean)).card = 9 * 10 ^ 8 := by
    rw [Finset.card_image_of_injOn (candidate_injOn clean), Nat.card_Ico]
    norm_num
  have hlt : existingCodes.card < ((Finset.Ico (10 ^ 8) (10 ^ 9)).image (candidate clean)).card := by
    rw [hcard]
    exact h
  obtain ⟨code, hcode, hfree⟩ := Finset.exists_mem_notMem_of_card_lt_card hlt
  obtain ⟨n, hn, rfl⟩ := Finset.mem_image.1 hcode
  obtain ⟨hlo, hhi⟩ := Finset.mem_Ico.1 hn
  exact ⟨n, by omega, hhi, hfree⟩

/-! ## The loop -/

section
variable {existingCodes : Finset Text} {clean code : Text} {counter : ℕ}

theorem probe_free (h : code ∉ existingCodes) {fuel : ℕ} (hfuel : 0 < fuel) :
    probe existingCodes clean fuel code counter = some code := by
  obtain ⟨fuel, rfl⟩ := Nat.exists_eq_add_of_lt hfuel
  exact if_neg h

theorem probe_taken (h : code ∈ existingCodes) (fuel : ℕ) :
    probe existingCodes clean (fuel + 1) code counter =
      probe existingCodes clean fuel (candidate clean counter) (counter + 1) :=
  if_pos h

/-- The loop ends at the latest with a counter whose candidate is free. -/
theorem exists_probe (code : Text) (counter k : ℕ) (hfree : candidate clean (counter + k) ∉ existingCodes) :
    ∃ found, (found = code ∨ ∃ n < counter + k + 1, found = candidate clean n) ∧ found ∉ existingCodes ∧
      ∀ fuel, k + 2 ≤ fuel → probe existingCodes clean fuel code counter = some found := by
  induction k generalizing counter code with
  | zero =>
    by_cases hcode : code ∈ existingCodes
    · refine ⟨candidate clean counter, .inr ⟨counter, by omega, rfl⟩, hfree, fun fuel hfuel => ?_⟩
      obtain ⟨fuel, rfl⟩ := Nat.exists_eq_add_of_le' hfuel
      rw [probe_taken hcode]
      exact probe_free hfree (by omega)
    · exact ⟨code, .inl rfl, hcode, fun fuel hfuel => probe_free hcode (by omega)⟩
  | succ k ih =>
    by_cases hcode : code ∈ existingCodes
    · have hsum : counter + 1 + k = counter + (k + 1) := by omega
      obtain ⟨found, hfound, hnew, hprobe⟩ := ih (candidate clean counter) (counter + 1) (by rwa [hsum])
      refine ⟨found, .inr ?_, hnew, fun fuel hfuel => ?_⟩
      · rcases hfound with rfl | ⟨n, hn, rfl⟩
        · exact ⟨counter, by omega, rfl⟩
        · exact ⟨n, by omega, rfl⟩
      · obtain ⟨fuel, rfl⟩ := Nat.exists_eq_add_of_le' hfuel
        rw [← hprobe (fuel + (k + 2)) (by omega)]
        exact probe_taken hcode (fuel + (k + 2))
    · exact ⟨code, .inl rfl, hcode, fun fuel hfuel => probe_free hcode (by omega)⟩

end

/-- **A call ends**, with a new code. -/
theorem exists_code (up : PythonCasing) (itemDesc : Text) {existingCodes : Finset Text}
    (h : existingCodes.card < 9 * 10 ^ 8) :
    ∃ code, Code code ∧ code ∉ existingCodes ∧
      ∀ fuel, 10 ^ 9 ≤ fuel → generateItemCode up fuel itemDesc existingCodes = some (code, insert code existingCodes) := by
  obtain ⟨n, hlo, hhi, hfree⟩ := exists_free (stem up itemDesc) h
  have hstem := stem_spec up itemDesc
  obtain ⟨k, rfl⟩ := Nat.exists_eq_add_of_le hlo
  obtain ⟨code, hcode, hnew, hprobe⟩ := exists_probe (stem up itemDesc) 1 k hfree
  have hspec : Code code := by
    rcases hcode with rfl | ⟨m, hm, rfl⟩
    · exact hstem.code
    · exact hstem.candidate (by omega)
  refine ⟨code, hspec, hnew, fun fuel hfuel => ?_⟩
  unfold generateItemCode
  rw [hprobe fuel (by omega), Option.map_some, List.take_of_length_le hspec.le]

/-! ## The codes of one run -/

/-- The codes of a run are new and pairwise distinct. -/
theorem exists_codes (up : PythonCasing) (descs : List Text) {existingCodes : Finset Text}
    (h : existingCodes.card + descs.length ≤ 9 * 10 ^ 8) :
    ∃ codes, codes.length = descs.length ∧ codes.Nodup ∧ (∀ code ∈ codes, Code code ∧ code ∉ existingCodes) ∧
      ∀ fuel, 10 ^ 9 ≤ fuel →
        generateItemCodes up fuel descs existingCodes = some (codes, existingCodes ∪ codes.toFinset) := by
  induction descs generalizing existingCodes with
  | nil => exact ⟨[], rfl, List.nodup_nil, by simp, fun fuel _ => by simp [generateItemCodes]⟩
  | cons itemDesc descs ih =>
    rw [List.length_cons] at h
    have hfew : existingCodes.card < 9 * 10 ^ 8 := by omega
    obtain ⟨code, hcode, hnew, hcall⟩ := exists_code up itemDesc hfew
    have hcard : (insert code existingCodes).card = existingCodes.card + 1 := Finset.card_insert_of_notMem hnew
    have hrest : (insert code existingCodes).card + descs.length ≤ 9 * 10 ^ 8 := by omega
    obtain ⟨codes, hlen, hnodup, hcodes, hcalls⟩ := ih hrest
    refine ⟨code :: codes, ?length, ?nodup, ?fresh, fun fuel hfuel => ?run⟩
    case length => rw [List.length_cons, List.length_cons, hlen]
    case nodup =>
      refine List.nodup_cons.2 ⟨fun hin => ?_, hnodup⟩
      exact (hcodes code hin).2 (Finset.mem_insert_self code existingCodes)
    case fresh =>
      intro c hc
      rcases List.mem_cons.1 hc with rfl | hc
      · exact ⟨hcode, hnew⟩
      · obtain ⟨hspec, hout⟩ := hcodes c hc
        exact ⟨hspec, fun hin => hout (Finset.mem_insert_of_mem hin)⟩
    case run =>
      have hunion : insert code existingCodes ∪ codes.toFinset = existingCodes ∪ (code :: codes).toFinset := by
        rw [List.toFinset_cons, Finset.insert_union, Finset.union_insert]
      rw [generateItemCodes, hcall fuel hfuel, ← hunion]
      simp only [Option.bind_eq_bind, Option.bind_some, hcalls fuel hfuel]
      rfl

/-- **Item codes are new**: each call ends with a code that was not there and adds it, and so the codes of a run are
pairwise distinct. -/
theorem item_codes_fresh (up : PythonCasing) :
    (∀ (itemDesc : Text) (existingCodes : Finset Text), existingCodes.card < 10 ^ 8 →
      ∃ code, Code code ∧ code ∉ existingCodes ∧
        ∀ fuel, 10 ^ 9 ≤ fuel → generateItemCode up fuel itemDesc existingCodes = some (code, insert code existingCodes)) ∧
    ∀ (descs : List Text) (existingCodes : Finset Text), existingCodes.card + descs.length ≤ 10 ^ 8 →
      ∃ codes, codes.length = descs.length ∧ codes.Nodup ∧ (∀ code ∈ codes, Code code ∧ code ∉ existingCodes) ∧
        ∀ fuel, 10 ^ 9 ≤ fuel →
          generateItemCodes up fuel descs existingCodes = some (codes, existingCodes ∪ codes.toFinset) := by
  constructor
  · intro itemDesc existingCodes h
    exact exists_code up itemDesc (by omega)
  · intro descs existingCodes h
    exact exists_codes up descs (by omega)

/-- ASCII letters. -/
def asciiCasing : PythonCasing where
  toCasing := Casing.ascii
  changes_lower c h := by
    have hrange : 97 ≤ c.toNat ∧ c.toNat ≤ 122 := by
      unfold Char.isLower at h
      simpa [UInt32.le_iff_toNat_le] using h
    have hvalid : (c.toNat - 32).isValidChar := .inl (by omega)
    have hnat : (Char.ofNat (c.toNat - 32)).toNat = c.toNat - 32 := by
      unfold Char.ofNat
      rw [dif_pos hvalid]
      rfl
    intro he
    have hsame : Char.ofNat (c.toNat - 32) = c := by
      unfold Casing.ascii at he
      simpa [hrange] using he
    rw [hsame] at hnat
    omega

theorem item_codes_fresh_tarpaulins :
    ∃ codes : List Text, codes.length = 2 ∧ codes.Nodup ∧
      (∀ code ∈ codes, Code code ∧ code ∉ ({"TARPAULIN".toList} : Finset Text)) ∧
      ∀ fuel, 10 ^ 9 ≤ fuel → generateItemCodes asciiCasing fuel ["Tarpaulin".toList, "tarpaulin ".toList]
        {"TARPAULIN".toList} = some (codes, {"TARPAULIN".toList} ∪ codes.toFinset) :=
  (item_codes_fresh asciiCasing).2 ["Tarpaulin".toList, "tarpaulin ".toList] {"TARPAULIN".toList} (by
    rw [Finset.card_singleton]
    decide)

end ItemCodes

end Dmis
