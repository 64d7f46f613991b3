import Dmis.Lib.AsOf
import Dmis.Lib.DecimalContext
import Dmis.Lib.PythonText
import Dmis.Lib.Table

/-!
# Currency rates

`CurrencyService` (`app/services/currency_service.py`) keeps one rate for a currency and a date, and asks for the rate
of a date first, then for that of the latest date before it.

| here | there |
| --- | --- |
| `CurrencyRate`, `Fits` | the table `currency_rate`, its checks and the lengths of its columns |
| `getCachedRate` | `get_cached_rate` (`:94-136`) |
| `storeRate`, `storeAll` | `store_rate` (`:138-185`), and a sequence of calls that all return `True` |
| `getOrUpdateRateToJmd`, `convertToJmd` | `get_or_update_rate_to_jmd`, `convert_to_jmd` (`:239-308`) |
| `Casing` | `str.upper`, one character at a time |

Main theorem `rates_as_of`: the answers are those of an as-of lookup (`AsOf`) in the history of the calls. The lookup
is the library's; here stands what the calls leave in the table (`records_storeAll`) and what the queries read of it
(`getCachedRate_asOf`).
-/

namespace Dmis

namespace CurrencyRates

open Relational Python

abbrev Text := List Char

/-- Upper case, of which only that it is settled is used. -/
structure Casing where
  upperChar : Char → Text
  upperChar_upper : ∀ c, ∀ d ∈ upperChar c, upperChar d = [d]

def Casing.upper (k : Casing) (s : Text) : Text := s.flatMap k.upperChar

/-- `currency_code.upper().strip()`. -/
def Casing.normalise (k : Casing) (code : Text) : Text := strip (k.upper code)

def jmd : Text := ['J', 'M', 'D']

structure CurrencyRate (δ : Type) where
  currencyCode : Text
  rateDate : δ
  rateToJmd : ℚ
  source : Text
  createDtime : ℕ
  deriving DecidableEq

instance {δ : Type} : Keyed (CurrencyRate δ) (Text × δ) where
  key r := (r.currencyCode, r.rateDate)

abbrev Rates (δ : Type) := Table (CurrencyRate δ)

section
variable {δ : Type} [LinearOrder δ] (k : Casing) (dbUpper : Text → Text)

/-! ## The service -/

def getCachedRate (t : Rates δ) (code : Text) (date : δ) : Option ℚ :=
  if code = [] then none
  else if k.normalise code = jmd then some 1
  else match t.get? (k.normalise code, date) with
    | some rate => some rate.rateToJmd
    | none =>
      ((t.select fun r => r.currencyCode = k.normalise code ∧ r.rateDate ≤ date).argmax
        CurrencyRate.rateDate).map CurrencyRate.rateToJmd

/-- The arguments of `store_rate` and the time of the call. -/
structure Call (δ : Type) where
  currencyCode : Text
  rateDate : δ
  rateToJmd : ℚ
  source : Text
  utcnow : ℕ

/-- The row as the columns hold it. -/
def Call.row (call : Call δ) : CurrencyRate δ where
  currencyCode := k.normalise call.currencyCode
  rateDate := call.rateDate
  rateToJmd := numeric 8 call.rateToJmd
  source := call.source.take 50
  createDtime := call.utcnow

/-- The checks of the table; `dbUpper` is the database's `upper`. -/
structure Fits (call : Call δ) : Prop where
  length : (k.normalise call.currencyCode).length ≤ 3
  upper : dbUpper (k.normalise call.currencyCode) = k.normalise call.currencyCode
  positive : 0 < numeric 8 call.rateToJmd
  range : numeric 8 call.rateToJmd < 10 ^ 10
  source : ∀ c ∈ call.source.drop 50, c = ' '

instance (call : Call δ) : Decidable (Fits k dbUpper call) :=
  decidable_of_iff ((k.normalise call.currencyCode).length ≤ 3 ∧
      dbUpper (k.normalise call.currencyCode) = k.normalise call.currencyCode ∧ 0 < numeric 8 call.rateToJmd ∧
      numeric 8 call.rateToJmd < 10 ^ 10 ∧ (call.source.drop 50).all fun c => c = ' ')
    (by
      rw [List.all_eq_true]
      simp only [decide_eq_true_eq]
      exact ⟨fun h => ⟨h.1, h.2.1, h.2.2.1, h.2.2.2.1, h.2.2.2.2⟩,
        fun h => ⟨h.length, h.upper, h.positive, h.range, h.source⟩⟩)

/-- A row with the key is updated, otherwise one is added; a failed commit is rolled back. -/
def storeRate (t : Rates δ) (call : Call δ) : Bool × Rates δ :=
  if call.currencyCode = [] ∨ k.upper call.currencyCode = jmd then (false, t)
  else if Fits k dbUpper call then (true, t.upsert (call.row k))
  else (false, t)

/-- The table after calls that all succeed. -/
def storeAll : Rates δ → List (Call δ) → Option (Rates δ)
  | t, [] => some t
  | t, call :: calls => if (storeRate k dbUpper t call).1 then storeAll (storeRate k dbUpper t call).2 calls else none

def getOrUpdateRateToJmd (t : Rates δ) (code : Text) (date : δ) : Option ℚ :=
  if code = [] then none
  else if k.normalise code = jmd then some 1
  else getCachedRate k t (k.normalise code) date

def convertToJmd (today : δ) (t : Rates δ) (amount : Option ℚ) (code : Text) (date : Option δ) : Option ℚ :=
  match amount with
  | none => none
  | some amount =>
    if code = [] then none
    else if k.normalise code = jmd then some amount
    else (getOrUpdateRateToJmd k t (k.normalise code) (date.getD today)).map fun rate => decimalContext (amount * rate)

/-! ## The history -/

/-- The rate that was stored last for a code and a date. -/
def lastStored (calls : List (Call δ)) (code : Text) (date : δ) : Option ℚ :=
  (calls.reverse.find? fun call => k.normalise call.currencyCode = code ∧ call.rateDate = date).map fun call =>
    numeric 8 call.rateToJmd

/-- The table holds what was stored. -/
def Records (calls : List (Call δ)) (t : Rates δ) : Prop :=
  ∀ code date, (t.get? (code, date)).map CurrencyRate.rateToJmd = lastStored k calls code date

/-- A code with something in it. -/
structure Currency where
  code : Text
  visible : k.normalise code ≠ []

variable {k dbUpper}

theorem storeRate_ok {t : Rates δ} {call : Call δ} (h : (storeRate k dbUpper t call).1 = true) :
    (storeRate k dbUpper t call).2 = t.upsert (call.row k) := by
  unfold storeRate at h ⊢
  split_ifs at h ⊢
  rfl

theorem lastStored_snoc (calls : List (Call δ)) (call : Call δ) (code : Text) (date : δ) :
    lastStored k (calls ++ [call]) code date =
      if k.normalise call.currencyCode = code ∧ call.rateDate = date then some (numeric 8 call.rateToJmd)
      else lastStored k calls code date := by
  unfold lastStored
  rw [List.reverse_append, List.reverse_singleton, List.singleton_append, List.find?_cons]
  by_cases hc : k.normalise call.currencyCode = code ∧ call.rateDate = date
  · simp [hc]
  · simp [hc]

/-- One successful call. -/
theorem Records.storeRate {calls : List (Call δ)} {t : Rates δ} {call : Call δ} (h : Records k calls t)
    (hok : (CurrencyRates.storeRate k dbUpper t call).1 = true) :
    Records k (calls ++ [call]) (CurrencyRates.storeRate k dbUpper t call).2 := by
  intro code date
  rw [storeRate_ok hok, lastStored_snoc, Table.get?_upsert]
  by_cases hc : k.normalise call.currencyCode = code ∧ call.rateDate = date
  · have hkey : Keyed.key (call.row k) = (code, date) := Prod.ext hc.1 hc.2
    rw [if_pos hkey, if_pos hc]
    rfl
  · have hkey : Keyed.key (call.row k) ≠ (code, date) := fun he => hc (Prod.ext_iff.1 he)
    rw [if_neg hkey, if_neg hc, h]

/-- **A sequence of successful calls** leaves what was stored last. -/
theorem records_storeAll {calls past : List (Call δ)} {t t' : Rates δ} (hpast : Records k past t)
    (h : storeAll k dbUpper t calls = some t') : Records k (past ++ calls) t' := by
  induction calls generalizing t past with
  | nil =>
    cases h
    rwa [List.append_nil]
  | cons call calls ih =>
    rw [storeAll] at h
    by_cases hok : (CurrencyRates.storeRate k dbUpper t call).1 = true
    · rw [if_pos hok] at h
      rw [List.append_cons]
      exact ih (hpast.storeRate hok) h
    · rw [if_neg hok] at h
      cases h

theorem records_empty : Records k [] (Table.empty : Rates δ) := fun _ _ => rfl

/-! ## The lookup -/

/-- The two queries together. -/
theorem getCachedRate_asOf {calls : List (Call δ)} {t : Rates δ} (h : Records k calls t) {code : Text}
    (hne : code ≠ []) (hjmd : k.normalise code ≠ jmd) (date : δ) :
    AsOf (lastStored k calls (k.normalise code)) date (getCachedRate k t code date) := by
  unfold getCachedRate
  rw [if_neg hne, if_neg hjmd]
  cases hrow : t.get? (k.normalise code, date) with
  | some rate =>
    refine AsOf.at_time ?_
    rw [← h, hrow]
    rfl
  | none =>
    have hrows : ∀ s a, lastStored k calls (k.normalise code) s = some a ↔
        ∃ r ∈ t.select fun r => r.currencyCode = k.normalise code, r.rateDate = s ∧ r.rateToJmd = a := by
      intro s a
      rw [← h]
      constructor
      · intro ha
        obtain ⟨r, hr, rfl⟩ := Option.map_eq_some_iff.1 ha
        obtain ⟨hmem, hkey⟩ := Table.get?_eq_some.1 hr
        obtain ⟨hcode, hdate⟩ := Prod.ext_iff.1 hkey
        exact ⟨r, List.mem_filter.2 ⟨hmem, decide_eq_true hcode⟩, hdate, rfl⟩
      · rintro ⟨r, hr, rfl, rfl⟩
        obtain ⟨hmem, hcode⟩ := List.mem_filter.1 hr
        have hkey : Keyed.key r = (k.normalise code, r.rateDate) := Prod.ext (of_decide_eq_true hcode) rfl
        rw [← hkey, Table.get?_key hmem]
        rfl
    have hfilter : (t.select fun r => r.currencyCode = k.normalise code ∧ r.rateDate ≤ date) =
        (t.select fun r => r.currencyCode = k.normalise code).filter fun r => r.rateDate ≤ date := by
      unfold Table.select
      rw [List.filter_filter]
      refine List.filter_congr fun r _ => ?_
      rw [Bool.decide_and, Bool.and_comm]
    simp only [hfilter]
    exact AsOf.asOf_argmax hrows date

/-! ## Codes -/

theorem upper_of_upper {s u : Text} (h : ∀ d ∈ s, d ∈ k.upper u) : k.upper s = s := by
  have hchar : ∀ d ∈ s, k.upperChar d = [d] := by
    intro d hd
    obtain ⟨c, -, hc⟩ := List.mem_flatMap.1 (h d hd)
    exact k.upperChar_upper c d hc
  unfold Casing.upper
  clear h
  induction s with
  | nil => rfl
  | cons d s ih =>
    rw [List.flatMap_cons, hchar d (by simp), ih fun e he => hchar e (List.mem_cons_of_mem d he)]
    rfl

theorem mem_of_mem_strip {s : Text} {c : Char} (h : c ∈ strip s) : c ∈ s :=
  (List.dropWhile_suffix _).subset ((List.rdropWhile_prefix ..).subset h)

/-- A code is normalised once, however many layers do it. -/
theorem normalise_normalise (code : Text) : k.normalise (k.normalise code) = k.normalise code := by
  have hupper : k.upper (k.normalise code) = k.normalise code :=
    upper_of_upper (u := code) fun d hd => mem_of_mem_strip hd
  rw [Casing.normalise, hupper]
  exact strip_strip _

theorem Currency.ne_nil (c : Currency k) : c.code ≠ [] := by
  intro h
  refine c.visible ?_
  rw [h]
  rfl

theorem getCachedRate_normalise (t : Rates δ) (c : Currency k) (date : δ) :
    getCachedRate k t (k.normalise c.code) date = getCachedRate k t c.code date := by
  unfold getCachedRate
  rw [if_neg c.visible, if_neg c.ne_nil, normalise_normalise]

/-- The layers above ask for the same rate. -/
theorem convertToJmd_eq (today : δ) (t : Rates δ) (amount : ℚ) (c : Currency k) (date : Option δ) :
    convertToJmd k today t (some amount) c.code date =
      if k.normalise c.code = jmd then some amount
      else (getCachedRate k t c.code (date.getD today)).map fun rate => decimalContext (amount * rate) := by
  unfold convertToJmd getOrUpdateRateToJmd
  dsimp only
  rw [if_neg c.ne_nil]
  split_ifs with hjmd hnil hjmd'
  · rfl
  · exact absurd hnil c.visible
  · rw [normalise_normalise] at hjmd'
    exact absurd hjmd' hjmd
  · rw [normalise_normalise, getCachedRate_normalise]

/-! ## Exact products -/

/-- An amount in cents times a stored rate, below a quintillion, is exact. -/
theorem convert_exact {amount rate : ℚ} (ha : AtScale 2 amount) (hr : AtScale 8 rate) (h : |amount * rate| < 10 ^ 18) :
    decimalContext (amount * rate) = amount * rate := by
  refine decimalContext_of_atScale (ha.mul hr) ?_
  calc |amount * rate| * 10 ^ (2 + 8) < 10 ^ 18 * 10 ^ (2 + 8) := mul_lt_mul_of_pos_right h (by positivity)
    _ = 10 ^ 28 := by norm_num

/-! ## As of a date -/

/-- What `get_cached_rate` should answer after the calls. -/
def Answer (calls : List (Call δ)) (c : Currency k) (date : δ) (r : Option ℚ) : Prop :=
  if k.normalise c.code = jmd then r = some 1 else AsOf (lastStored k calls (k.normalise c.code)) date r

theorem Answer.unique {calls : List (Call δ)} {c : Currency k} {date : δ} {r r' : Option ℚ}
    (h : Answer calls c date r) (h' : Answer calls c date r') : r = r' := by
  unfold Answer at h h'
  split_ifs at h h' with hjmd
  · rw [h, h']
  · exact AsOf.unique h h'

theorem getCachedRate_answer {calls : List (Call δ)} {t : Rates δ} (h : Records k calls t) (c : Currency k) (date : δ) :
    Answer calls c date (getCachedRate k t c.code date) := by
  unfold Answer
  split_ifs with hjmd
  · unfold getCachedRate
    rw [if_neg c.ne_nil, if_pos hjmd]
  · exact getCachedRate_asOf h c.ne_nil hjmd date

theorem lastStored_update (calls : List (Call δ)) (call : Call δ) :
    lastStored k (calls ++ [call]) (k.normalise call.currencyCode) =
      Function.update (lastStored k calls (k.normalise call.currencyCode)) call.rateDate
        (some (numeric 8 call.rateToJmd)) := by
  funext date
  rw [lastStored_snoc]
  by_cases hd : call.rateDate = date
  · subst hd
    rw [if_pos ⟨rfl, rfl⟩, Function.update_self]
  · rw [if_neg (fun h => hd h.2), Function.update_of_ne (Ne.symm hd)]

/-- The latest stored date not after `date` becomes that of the call. -/
def Supersedes (calls : List (Call δ)) (call : Call δ) (c : Currency k) (date : δ) : Prop :=
  k.normalise c.code = k.normalise call.currencyCode ∧ call.rateDate ≤ date ∧
    ∀ s, call.rateDate < s → s ≤ date → lastStored k calls (k.normalise c.code) s = none

/-- Any other answer is kept. -/
theorem Answer.snoc {calls : List (Call δ)} {call : Call δ} {c : Currency k} {date : δ} {r : Option ℚ}
    (h : Answer calls c date r) (hother : ¬ Supersedes calls call c date) : Answer (calls ++ [call]) c date r := by
  unfold Answer at h ⊢
  split_ifs at h ⊢ with hjmd
  · exact h
  · by_cases hcode : k.normalise c.code = k.normalise call.currencyCode
    · rw [hcode] at h ⊢
      rw [lastStored_update]
      by_cases hle : call.rateDate ≤ date
      · have hlater : ∃ s, call.rateDate < s ∧ s ≤ date ∧
            lastStored k calls (k.normalise call.currencyCode) s ≠ none := by
          by_contra hnone
          refine hother ⟨hcode, hle, fun s hlt hs => ?_⟩
          by_contra hne
          exact hnone ⟨s, hlt, hs, hcode ▸ hne⟩
        obtain ⟨s, hlt, hs, hne⟩ := hlater
        exact h.update_behind hlt hs hne _
      · exact h.update_before (not_le.1 hle) _
    · refine h.congr fun s _ => ?_
      rw [lastStored_snoc, if_neg fun hc => hcode hc.1.symm]

/-- **Currency rates are an as-of lookup** in the calls that succeeded. -/
theorem rates_as_of {calls : List (Call δ)} {t : Rates δ} (h : storeAll k dbUpper Table.empty calls = some t) :
    (∀ (c : Currency k) date, Answer calls c date (getCachedRate k t c.code date)) ∧
      (∀ call, (storeRate k dbUpper t call).1 = true → ∀ (c : Currency k) date,
        ¬ Supersedes calls call c date →
          getCachedRate k (storeRate k dbUpper t call).2 c.code date = getCachedRate k t c.code date) ∧
      ∀ today amount (c : Currency k) date, convertToJmd k today t (some amount) c.code date =
        if k.normalise c.code = jmd then some amount
        else (getCachedRate k t c.code (date.getD today)).map fun rate => decimalContext (amount * rate) := by
  have hrecords : Records k ([] ++ calls) t := records_storeAll records_empty h
  refine ⟨getCachedRate_answer hrecords, fun call hok c date hother => ?_,
    fun today amount c date => convertToJmd_eq today t amount c date⟩
  have hafter := getCachedRate_answer (hrecords.storeRate hok) c date
  exact hafter.unique ((getCachedRate_answer hrecords c date).snoc hother)

end

theorem toUpper_toUpper (c : Char) : c.toUpper.toUpper = c.toUpper := by
  by_cases h : 'a'.val ≤ c.val ∧ c.val ≤ 'z'.val
  · have hval : c.toUpper.val = c.val + ('A'.val - 'a'.val) := by
      unfold Char.toUpper
      rw [dif_pos h]
    have hd : ¬ ('a'.val ≤ c.toUpper.val ∧ c.toUpper.val ≤ 'z'.val) := by
      rw [hval]
      simp only [UInt32.le_iff_toNat_le, UInt32.toNat_add] at h ⊢
      have ha : 'a'.val.toNat = 97 := rfl
      have hz : 'z'.val.toNat = 122 := rfl
      have hA : ('A'.val - 'a'.val).toNat = 2 ^ 32 - 32 := rfl
      omega
    exact dif_neg hd
  · have hc : c.toUpper = c := dif_neg h
    rw [hc, hc]

/-- ASCII letters. -/
def asciiCasing : Casing where
  upperChar c := [c.toUpper]
  upperChar_upper := by
    intro c d hd
    rw [List.mem_singleton.1 hd, toUpper_toUpper]

/-- Two rates for one currency, the later date first. -/
def usdCalls : List (Call ℕ) :=
  [⟨"usd ".toList, 20, 315 / 2, "MANUAL".toList, 0⟩, ⟨" Usd".toList, 10, 150, "MANUAL".toList, 1⟩]

def usdRates : Rates ℕ := (usdCalls.foldl fun t call => t.upsert (call.row asciiCasing)) Table.empty

def usd : Currency asciiCasing := ⟨"USD".toList, by decide⟩

theorem rates_as_of_usd : Answer usdCalls usd 15 (some 150) := by
  have hcalls : storeAll asciiCasing id Table.empty usdCalls = some usdRates := by decide +kernel
  have hcached : getCachedRate asciiCasing usdRates usd.code 15 = some 150 := by decide +kernel
  rw [← hcached]
  exact (rates_as_of hcalls).1 usd 15

end CurrencyRates

end Dmis
