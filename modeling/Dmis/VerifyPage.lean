import Dmis.IntakePosting
import Dmis.Lib.JsNumber
import Dmis.Lib.Run
import Dmis.PickOrder

/-!
# The page of a verification

`static/js/verify-intake.js` takes what is entered as defective and expired from the intake quantity, in doubles, shows
what is left as usable and holds the form back where nothing could be left. `_process_verification_submission` does the
sums again, in decimals, and does not read what the page shows.

| here | there |
| --- | --- |
| `QtyRow`, `shownRow` | the inputs of an item (`templates/donation_intake/verify_form.html:186-307`) |
| `recalculateUsableQty` | `recalculateUsableQty` (`:2-37`) |
| `qtyStep` | the listeners of `.qty-adjust` (`:41-62`) |
| `blocked` | the listener of `submit` (`:65-87`) |
| `postedForm` | what the browser sends |

Main theorem `verify_page_agrees`. Its amounts are cents, as the browser checks for `step="0.01"` and `min="0"`, and
those of the intake fit their columns.
-/

namespace Dmis

open Relational Js

/-! ## The page -/

/-- The inputs of an item; `intakeTotal` is the double of `data-intake-total`, an input without a number is `none`. -/
structure QtyRow where
  intakeTotal : ℚ
  defective : Option ℚ
  expired : Option ℚ
  usable : List Char
  error : Bool
  deriving DecidableEq

/-- `{{ ii.usable_qty or 0 }}`; a column has two decimals. -/
def columnText (q : ℚ) : List Char := if q = 0 then ['0'] else fixedText 2 ⌊q * 10 ^ 2⌋.toNat

def shownRow (i : DonationIntakeItem) : QtyRow :=
  { intakeTotal := toBinary64 i.qty.total
    defective := some i.qty.defective
    expired := some i.qty.expired
    usable := columnText i.qty.usable
    error := false }

/-- `parseFloat(input.value) || 0`; an input holds no number beyond the doubles. -/
def fieldNumber (q : Option ℚ) : ℚ := toBinary64 (q.getD 0)

def recalculateUsableQty (r : QtyRow) : QtyRow :=
  let defective := fieldNumber r.defective
  let expired := fieldNumber r.expired
  let usable := jsSub (jsSub r.intakeTotal defective) expired
  { r with
    usable := toFixed 2 (.finite usable)
    error := r.intakeTotal < jsAdd defective expired || usable < 0 }

/-- The first item of an id has its inputs. -/
def verifyPage (items : List DonationIntakeItem) (itemId : Nat) : Option QtyRow :=
  (items.find? (·.itemId = itemId)).map shownRow

inductive QtyEvent where
  | defective (itemId : Nat) (value : Option ℚ)
  | expired (itemId : Nat) (value : Option ℚ)

def QtyEvent.itemId : QtyEvent → Nat
  | .defective itemId _ | .expired itemId _ => itemId

def QtyEvent.enter (r : QtyRow) : QtyEvent → QtyRow
  | .defective _ value => { r with defective := value }
  | .expired _ value => { r with expired := value }

def qtyStep (page : Nat → Option QtyRow) (event : QtyEvent) : Nat → Option QtyRow :=
  Function.update page event.itemId ((page event.itemId).map fun r => recalculateUsableQty (event.enter r))

/-- `(parseFloat(input.value) || 0) < 0`. -/
def QtyRow.negative (r : QtyRow) : Bool := (parseFloat r.usable).any Number.negative

def blocked (items : List DonationIntakeItem) (page : Nat → Option QtyRow) : Bool :=
  items.any fun i => (page i.itemId).any fun r => r.error || r.negative

def sentAmount : Option ℚ → AmountField
  | none => .blank
  | some q => .value (.finite q)

/-- The quantities are those of the page; `fields` has the rest of the form. -/
def postedForm (page : Nat → Option QtyRow) (fields : Nat → VerifyField) (itemId : Nat) : VerifyField :=
  { fields itemId with
    defectiveQty := (page itemId).map fun r => sentAmount r.defective
    expiredQty := (page itemId).map fun r => sentAmount r.expired }

/-! ## What it should do -/

/-- An amount of cents; nothing is no cents. -/
def IsCents (q : Option ℚ) : Prop := ∃ n : ℕ, q.getD 0 = n / 10 ^ 2

/-- What is sent is in cents, and the columns of the intake hold ten digits before the point. -/
structure PageCents (items : List DonationIntakeItem) (page : Nat → Option QtyRow) : Prop where
  sent : ∀ i ∈ items, ∀ r ∈ page i.itemId, IsCents r.defective ∧ IsCents r.expired
  column : ∀ i ∈ items, i.qty.total < 3 * 10 ^ 10

/-- The page holds nothing back that is accepted and shows what goes to the total of the warehouse; what it lets through
does not exceed the intake. -/
structure PageAgrees (ctx : IntakeCtx) (donationId : Nat) (today : Day) (inventoryId : Nat) (db : IntakeDb)
    (page : Nat → Option QtyRow) (form : Nat → VerifyField) : Prop where
  accepted : ∀ db', db.exec ctx donationId (.verify today inventoryId form) = .ok db' →
    blocked (db.tables.intakeItems donationId inventoryId) page = false ∧
    ∀ i ∈ db.tables.intakeItems donationId inventoryId, ∃ r ∈ page i.itemId, ∃ n : ℕ, r.usable = fixedText 2 n ∧
      (db'.tables.inStock ⟨i.itemId, inventoryId⟩ - db.tables.inStock ⟨i.itemId, inventoryId⟩).usable = n / 10 ^ 2
  exceeding : blocked (db.tables.intakeItems donationId inventoryId) page = false →
    ∀ i ∈ db.tables.intakeItems donationId inventoryId, ∀ total,
      verifyItem ctx today db.tables form i ≠ .error (.exceedsIntake i.itemId total)

section
variable {d e t : ℕ} {r : QtyRow} {i : DonationIntakeItem} {items : List DonationIntakeItem}
  {page : Nat → Option QtyRow} {event : QtyEvent}

/-! ## Doubles of cents -/

/-- The page notices every excess, however large. -/
theorem jsAdd_exceeds (ht : t < 3 * 10 ^ 12) (h : t < d + e) :
    toBinary64 (t / 10 ^ 2) < jsAdd (toBinary64 (d / 10 ^ 2)) (toBinary64 (e / 10 ^ 2)) := by
  -- less of both is a cent too much
  obtain ⟨d', e', hd, he, hsum⟩ : ∃ d' e', d' ≤ d ∧ e' ≤ e ∧ d' + e' = t + 1 :=
    ⟨min d (t + 1), t + 1 - min d (t + 1), by omega, by omega, by omega⟩
  have hmono : jsAdd (toBinary64 (d' / 10 ^ 2)) (toBinary64 (e' / 10 ^ 2)) ≤
      jsAdd (toBinary64 (d / 10 ^ 2)) (toBinary64 (e / 10 ^ 2)) := by
    have hd' := toBinary64_mono (x := (d' : ℚ) / 10 ^ 2) (y := d / 10 ^ 2) (by positivity) (by gcongr)
    have he' := toBinary64_mono (x := (e' : ℚ) / 10 ^ 2) (y := e / 10 ^ 2) (by positivity) (by gcongr)
    exact toBinary64_mono (add_nonneg (toBinary64_nonneg (by positivity)) (toBinary64_nonneg (by positivity)))
      (add_le_add hd' he')
  refine lt_of_lt_of_le ?_ hmono
  have hT := abs_le.1 (toBinary64_cents (n := t) (by omega))
  have hD := abs_le.1 (toBinary64_cents (n := d') (by omega))
  have hE := abs_le.1 (toBinary64_cents (n := e') (by omega))
  have hcast : (d' : ℚ) + e' = t + 1 := by exact_mod_cast hsum
  have htq : (t : ℚ) < 3 * 10 ^ 12 := by exact_mod_cast ht
  have ht0 : (0 : ℚ) ≤ t := Nat.cast_nonneg t
  unfold jsAdd
  generalize toBinary64 ((d' : ℚ) / 10 ^ 2) = D at *
  generalize toBinary64 ((e' : ℚ) / 10 ^ 2) = E at *
  generalize toBinary64 ((t : ℚ) / 10 ^ 2) = T at *
  have hstep := toBinary64_step (x := D + E) (c := ((t : ℚ) + 1) / 10 ^ 2) (e := 2 / 10 ^ 4) (by linarith) (by linarith)
    (abs_le.2 ⟨by linarith, by linarith⟩)
  have hlow := (abs_le.1 hstep).1
  linarith

/-- Where something is left, the page computes it to the cent. -/
theorem usable_exact (ht : t < 3 * 10 ^ 12) (h : d + e < t) :
    let T := toBinary64 ((t : ℚ) / 10 ^ 2)
    let D := toBinary64 ((d : ℚ) / 10 ^ 2)
    let E := toBinary64 ((e : ℚ) / 10 ^ 2)
    jsAdd D E ≤ T ∧ 0 < jsSub (jsSub T D) E ∧ toFixed 2 (.finite (jsSub (jsSub T D) E)) = fixedText 2 (t - d - e) := by
  intro T D E
  have hT := abs_le.1 (toBinary64_cents (n := t) (by omega))
  have hD := abs_le.1 (toBinary64_cents (n := d) (by omega))
  have hE := abs_le.1 (toBinary64_cents (n := e) (by omega))
  have hD0 : 0 ≤ D := toBinary64_nonneg (by positivity)
  have hE0 : 0 ≤ E := toBinary64_nonneg (by positivity)
  change -(1 / 10 ^ 4) ≤ T - _ ∧ T - _ ≤ _ at hT
  change -(1 / 10 ^ 4) ≤ D - _ ∧ D - _ ≤ _ at hD
  change -(1 / 10 ^ 4) ≤ E - _ ∧ E - _ ≤ _ at hE
  have htq : (t : ℚ) < 3 * 10 ^ 12 := by exact_mod_cast ht
  obtain ⟨u, hu, hu1⟩ : ∃ u, t - d - e = u ∧ 1 ≤ u := ⟨_, rfl, by omega⟩
  have hcast : (t : ℚ) = d + e + u := by
    have hsum : t = d + e + u := by omega
    exact_mod_cast hsum
  have huq : (1 : ℚ) ≤ u := by exact_mod_cast hu1
  have hd0 : (0 : ℚ) ≤ d := Nat.cast_nonneg d
  have he0 : (0 : ℚ) ≤ e := Nat.cast_nonneg e
  have hT0 : 0 ≤ T := toBinary64_nonneg (by positivity)
  have hnone : d + e = 0 → D + E = 0 := by
    intro hz
    obtain ⟨rfl, rfl⟩ : d = 0 ∧ e = 0 := by omega
    simp [D, E, toBinary64_zero]
  clear_value T D E
  have hleft := toBinary64_step (x := T - D) (c := ((e : ℚ) + u) / 10 ^ 2) (e := 2 / 10 ^ 4) (by linarith) (by linarith)
    (abs_le.2 ⟨by linarith, by linarith⟩)
  change |jsSub T D - _| ≤ _ at hleft
  have hleft' := abs_le.1 hleft
  generalize jsSub T D = L at hleft'
  have husable := toBinary64_step (x := L - E) (c := (u : ℚ) / 10 ^ 2) (e := 4 / 10 ^ 4) (by linarith) (by linarith)
    (abs_le.2 ⟨by linarith, by linarith⟩)
  change |jsSub L E - _| ≤ _ at husable
  have husable' := abs_le.1 husable
  generalize jsSub L E = U at husable'
  refine ⟨?_, by linarith, ?_⟩
  · rcases Nat.eq_zero_or_pos (d + e) with hz | hpos
    · rw [jsAdd, hnone hz, toBinary64_zero]
      exact hT0
    · have hone : (1 : ℚ) ≤ d + e := by exact_mod_cast hpos
      have hadd := toBinary64_step (x := D + E) (c := ((d : ℚ) + e) / 10 ^ 2) (e := 2 / 10 ^ 4) (by linarith) (by linarith)
        (abs_le.2 ⟨by linarith, by linarith⟩)
      have hhigh := (abs_le.1 hadd).2
      unfold jsAdd
      linarith
  · have hfloor : ⌊U * 10 ^ 2 + 1 / 2⌋ = (u : ℤ) := by
      rw [Int.floor_eq_iff]
      push_cast
      constructor <;> linarith
    rw [hu, toFixed_of_nonneg 2 (by linarith), fixedAbs_finite (by linarith) (by linarith), hfloor, Int.toNat_natCast]

/-! ## The page step by step -/

/-- The inputs of an item are as they came, or computed from what is in them now. -/
structure Computed (r₀ r : QtyRow) : Prop where
  total : r.intakeTotal = r₀.intakeTotal
  computed : r = r₀ ∨ recalculateUsableQty r = r

theorem Computed.enter {r₀ r : QtyRow} (h : Computed r₀ r) (event : QtyEvent) :
    Computed r₀ (recalculateUsableQty (event.enter r)) := by
  refine ⟨?_, .inr rfl⟩
  rw [← h.total]
  cases event <;> rfl

/-- Every item keeps its inputs. -/
def PageComputed (page₀ page : Nat → Option QtyRow) : Prop := ∀ itemId, Option.Rel Computed (page₀ itemId) (page itemId)

theorem pageComputed_refl (page : Nat → Option QtyRow) : PageComputed page page := by
  intro itemId
  cases page itemId with
  | none => exact .none
  | some r => exact .some ⟨rfl, .inl rfl⟩

theorem qtyStep_computed {page₀ : Nat → Option QtyRow} (h : PageComputed page₀ page) (event : QtyEvent) :
    PageComputed page₀ (qtyStep page event) := by
  intro itemId
  unfold qtyStep
  by_cases he : itemId = event.itemId
  · subst he
    rw [Function.update_self]
    have hrow := h event.itemId
    generalize page₀ event.itemId = o₀, page event.itemId = o at hrow
    cases hrow with
    | none => exact .none
    | some hs => exact .some (hs.enter event)
  · rw [Function.update_of_ne he]
    exact h itemId

/-- The inputs of an item after any edits. -/
theorem row_of_computed (hn : (items.map (·.itemId)).Nodup) (hi : i ∈ items) (h : PageComputed (verifyPage items) page) :
    ∃ r, page i.itemId = some r ∧ Computed (shownRow i) r := by
  have hrow := h i.itemId
  have hfound : verifyPage items i.itemId = some (shownRow i) := by
    unfold verifyPage
    rw [find?_of_nodup_map hn hi]
    rfl
  rw [hfound] at hrow
  generalize page i.itemId = o at hrow
  cases hrow with
  | some hs => exact ⟨_, rfl, hs⟩

/-! ## What is sent and what is shown -/

theorem exists_cents {q : ℚ} (h : AtScale 2 q) (h0 : 0 ≤ q) : ∃ n : ℕ, q = n / 10 ^ 2 := by
  obtain ⟨m, hm⟩ := atScale_iff.1 h
  have hm0 : 0 ≤ m := by
    have hcast : (0 : ℚ) ≤ m := hm ▸ (by positivity)
    exact_mod_cast hcast
  obtain ⟨n, rfl⟩ := Int.eq_ofNat_of_zero_le hm0
  refine ⟨n, ?_⟩
  rw [eq_div_iff (by norm_num), hm]
  rfl

theorem negative_fixedText {n : ℕ} (h : r.usable = fixedText 2 n) : r.negative = false := by
  have hnot : Number.negative (ofDecimal false ((n : ℚ) / 10 ^ 2)) = false := by
    unfold ofDecimal
    dsimp only
    simp only [Bool.false_eq_true, if_false]
    split_ifs
    · rfl
    · exact decide_eq_false (not_lt.2 (toBinary64_nonneg (by positivity)))
  rw [QtyRow.negative, h, parseFloat_fixedText Nat.zero_lt_two]
  exact hnot

theorem columnText_cents {n : ℕ} (h0 : 0 < n) : columnText (n / 10 ^ 2) = fixedText 2 n := by
  have hne : (n : ℚ) / 10 ^ 2 ≠ 0 := by positivity
  have hscaled : (n : ℚ) / 10 ^ 2 * 10 ^ 2 = (n : ℤ) := by
    rw [div_mul_cancel₀ _ (by norm_num)]
    rfl
  rw [columnText, if_neg hne, hscaled, Int.floor_intCast, Int.toNat_natCast]

/-- What the page knows of a row whose amounts are cents: it is in error exactly where too much is taken off, as far as
the server is concerned, and where something is left it shows the amount. -/
theorem row_exact {usable : ℕ} (hr : Computed (shownRow i) r) (hd : r.defective.getD 0 = d / 10 ^ 2)
    (he : r.expired.getD 0 = e / 10 ^ 2) (ht : i.qty.total = t / 10 ^ 2) (hu : i.qty.usable = usable / 10 ^ 2)
    (hsmall : t < 3 * 10 ^ 12) :
    (r.error = false → d + e ≤ t) ∧ (d + e < t → r.error = false ∧ r.usable = fixedText 2 (t - d - e)) := by
  obtain ⟨htotal, hrow | hrow⟩ := hr
  · subst hrow
    have hdef : i.qty.defective = d / 10 ^ 2 := hd
    have hexp : i.qty.expired = e / 10 ^ 2 := he
    have hsum : usable + d + e = t := by
      have hq : (usable : ℚ) / 10 ^ 2 + d / 10 ^ 2 + e / 10 ^ 2 = t / 10 ^ 2 := by
        rw [← hu, ← hdef, ← hexp, ← ht]
        rfl
      have hcast : (usable : ℚ) + d + e = t := by linarith
      exact_mod_cast hcast
    refine ⟨fun _ => by omega, fun hlt => ⟨rfl, ?_⟩⟩
    have hleft : t - d - e = usable := by omega
    show columnText i.qty.usable = _
    rw [hleft, hu, columnText_cents (by omega)]
  · have hD : fieldNumber r.defective = toBinary64 (d / 10 ^ 2) := by rw [fieldNumber, hd]
    have hE : fieldNumber r.expired = toBinary64 (e / 10 ^ 2) := by rw [fieldNumber, he]
    have hT : r.intakeTotal = toBinary64 (t / 10 ^ 2) := by
      rw [htotal, ← ht]
      rfl
    have herror : r.error = (decide (r.intakeTotal < jsAdd (fieldNumber r.defective) (fieldNumber r.expired)) ||
        decide (jsSub (jsSub r.intakeTotal (fieldNumber r.defective)) (fieldNumber r.expired) < 0)) :=
      (congrArg QtyRow.error hrow).symm
    have husable : r.usable =
        toFixed 2 (.finite (jsSub (jsSub r.intakeTotal (fieldNumber r.defective)) (fieldNumber r.expired))) :=
      (congrArg QtyRow.usable hrow).symm
    rw [hD, hE, hT] at herror husable
    constructor
    · intro hno
      by_contra hlt
      have hexceeds := jsAdd_exceeds hsmall (not_le.1 hlt)
      rw [herror, decide_eq_true hexceeds] at hno
      cases hno
    · intro hlt
      obtain ⟨hle, hpos, htext⟩ := usable_exact hsmall hlt
      refine ⟨?_, husable.trans htext⟩
      rw [herror, decide_eq_false (not_lt.2 hle), decide_eq_false (not_lt.2 hpos.le)]
      rfl

theorem deductions_postedForm {fields : Nat → VerifyField} (h : page i.itemId = some r) :
    (postedForm page fields i.itemId).deductions i = some (r.defective.getD 0, r.expired.getD 0) := by
  have horZero : ∀ q : Option ℚ, (sentAmount q).orZero = some (.finite (q.getD 0)) := by
    intro q
    cases q <;> rfl
  simp only [postedForm, VerifyField.deductions, h, Option.map_some, Option.getD_some, horZero]
  rfl

/-! ## What the server finds too much -/

/-- The dates of an item are no reason of this kind. -/
theorem verifyBatchDate_error {today : Day} {field : DateField} {total : ℚ} :
    verifyBatchDate today i field ≠ .error (.exceedsIntake i.itemId total) := by
  intro h
  cases field with
  | blank => cases h
  | malformed => cases h
  | day d =>
    simp only [verifyBatchDate, batchDay] at h
    split at h <;> cases h

theorem verifyExpiry_error {item : StockItem} {today batchDate : Day} {field : DateField} {total : ℚ} :
    verifyExpiry item today i batchDate field ≠ .error (.exceedsIntake i.itemId total) := by
  intro h
  cases field with
  | blank => cases h
  | malformed => cases h
  | day d =>
    simp only [verifyExpiry] at h
    split_ifs at h <;> cases h

theorem not_exceedsIntake {ctx : IntakeCtx} {today : Day} {tables : IntakeTables} {form : Nat → VerifyField} {a b : ℚ}
    (hd : (form i.itemId).deductions i = some (a, b)) (h : a + b ≤ i.qty.total) (total : ℚ) :
    verifyItem ctx today tables form i ≠ .error (.exceedsIntake i.itemId total) := by
  intro herror
  simp only [verifyItem, checkQuantities, bind_error, check_error, require_error, require_ok, check_ok, reduceCtorEq,
    and_false, false_or, exists_and_left, exists_const] at herror
  obtain ⟨x, hx, y, hy, -, -, donated, -, -, -, herror⟩ := herror
  obtain ⟨rfl, rfl⟩ : x = .finite a ∧ y = .finite b := by
    simp only [VerifyField.deductions, hx, hy] at hd
    cases x <;> cases y <;> simp_all [PyDecimal.finite?]
  rcases herror with hd' | ⟨p, hp, ⟨hexceeds, -⟩ | ⟨-, -, -, hdate | ⟨batchDate, -, hdate | ⟨expiryDate, -, hpure⟩⟩⟩⟩
  · cases hd'
  · cases hp
    exact hexceeds h
  · exact verifyBatchDate_error hdate
  · exact verifyExpiry_error hdate
  · cases hpure

/-! ## The amounts of an item -/

/-- What the store holds of an item of an intake is in cents. -/
theorem intakeItem_cents {db : IntakeDb} {donationId inventoryId : Nat}
    (hi : i ∈ db.tables.intakeItems donationId inventoryId) :
    (∃ n : ℕ, i.qty.usable = n / 10 ^ 2) ∧ ∃ n : ℕ, i.qty.total = n / 10 ^ 2 := by
  have hmem := (List.mem_filter.1 hi).1
  obtain ⟨husable, hdefective, hexpired⟩ := (db.consistent.intakeItem i hmem).nonneg
  have hrow : i.stored = i := Table.eq_of_mapRows key_stored_intakeItem
    (congrArg IntakeTables.dnintakeItem db.consistent.stored) i hmem
  have hqty : i.qty.rounded 2 = i.qty := congrArg DonationIntakeItem.qty hrow
  have hscale : AtScale 2 i.qty.usable ∧ AtScale 2 i.qty.total := by
    rw [← hqty]
    exact ⟨numeric_atScale 2 _, ((numeric_atScale 2 _).add (numeric_atScale 2 _)).add (numeric_atScale 2 _)⟩
  exact ⟨exists_cents hscale.1 husable, exists_cents hscale.2 (by unfold Received.total; positivity)⟩

/-- The amounts of an item, as they are sent, and what the page makes of them. -/
theorem item_amounts {db : IntakeDb} {donationId inventoryId : Nat} {fields : Nat → VerifyField}
    (hn : ((db.tables.intakeItems donationId inventoryId).map (·.itemId)).Nodup)
    (hcomputed : PageComputed (verifyPage (db.tables.intakeItems donationId inventoryId)) page)
    (hcents : PageCents (db.tables.intakeItems donationId inventoryId) page)
    (hi : i ∈ db.tables.intakeItems donationId inventoryId) :
    ∃ r, page i.itemId = some r ∧ ∃ d e t : ℕ,
      (postedForm page fields i.itemId).deductions i = some ((d : ℚ) / 10 ^ 2, (e : ℚ) / 10 ^ 2) ∧
      i.qty.total = t / 10 ^ 2 ∧ (r.error = false → d + e ≤ t) ∧
      (d + e < t → r.error = false ∧ r.usable = fixedText 2 (t - d - e)) := by
  obtain ⟨r, hr, hs⟩ := row_of_computed hn hi hcomputed
  obtain ⟨⟨d, hd⟩, ⟨e, he⟩⟩ := hcents.sent i hi r hr
  obtain ⟨⟨u, hu⟩, ⟨t, ht⟩⟩ := intakeItem_cents hi
  have hsmall : t < 3 * 10 ^ 12 := by
    have hq := hcents.column i hi
    rw [ht, div_lt_iff₀ (by norm_num)] at hq
    have hcast : (t : ℚ) < 3 * 10 ^ 12 := by linarith
    exact_mod_cast hcast
  obtain ⟨hle, hlt⟩ := row_exact hs hd he ht hu hsmall
  refine ⟨r, hr, d, e, t, ?_, ht, hle, hlt⟩
  rw [deductions_postedForm hr, hd, he]

/-- An item that is verified is not in error, and its total goes up by what is shown. -/
theorem accepted_item {ctx : IntakeCtx} {donationId inventoryId : Nat} {today : Day} {form : Nat → VerifyField}
    {vs : List VerifiedItem} {v : VerifiedItem} {tables tables' : IntakeTables}
    (hvs : Committed ctx donationId today inventoryId form vs tables tables') (hv : v ∈ vs)
    (hiv : verifyItem ctx today tables form i = .ok v)
    (hdeductions : (form i.itemId).deductions i = some ((d : ℚ) / 10 ^ 2, (e : ℚ) / 10 ^ 2))
    (ht : i.qty.total = t / 10 ^ 2) :
    d + e < t ∧ (tables'.inStock ⟨i.itemId, inventoryId⟩ - tables.inStock ⟨i.itemId, inventoryId⟩).usable =
      ((t - d - e : ℕ) : ℚ) / 10 ^ 2 := by
  obtain ⟨p, hp, -, -, hleft, -, -, hqty, -⟩ := verifyItem_spec hiv
  rw [hdeductions] at hp
  cases hp
  have hlt : d + e < t := by
    rw [ht] at hleft
    have hcast : (d : ℚ) + e < t := by linarith
    exact_mod_cast hcast
  have hstored : v.qty.usable = ((t - d - e : ℕ) : ℚ) / 10 ^ 2 := by
    obtain ⟨u, hu⟩ : ∃ u, t - d - e = u := ⟨_, rfl⟩
    have hsum : t = d + e + u := by omega
    rw [hqty, ht, hu, hsum]
    push_cast
    ring
  refine ⟨hlt, ?_⟩
  rw [(hvs.added hv hiv).2]
  show numeric 2 v.qty.usable = _
  rw [hstored]
  exact atScale_iff.2 ⟨((t - d - e : ℕ) : ℤ), by rw [div_mul_cancel₀ _ (by norm_num)]; rfl⟩

end

/-- **Through any edits the page agrees with the server**: it never holds back what would be accepted and shows what goes
to the total of the warehouse, and what it lets through never takes off more than arrived. -/
theorem verify_page_agrees (ctx : IntakeCtx) (donationId : Nat) (today : Day) (inventoryId : Nat) (db : IntakeDb)
    (fields : Nat → VerifyField) (edits : List QtyEvent)
    (hn : ((db.tables.intakeItems donationId inventoryId).map (·.itemId)).Nodup)
    (hcents : PageCents (db.tables.intakeItems donationId inventoryId)
      (run qtyStep (verifyPage (db.tables.intakeItems donationId inventoryId)) edits)) :
    let page := run qtyStep (verifyPage (db.tables.intakeItems donationId inventoryId)) edits
    PageAgrees ctx donationId today inventoryId db page (postedForm page fields) := by
  intro page
  have hcomputed : PageComputed (verifyPage (db.tables.intakeItems donationId inventoryId)) page :=
    run_invariant (I := PageComputed _) (fun page event h => qtyStep_computed h event) (pageComputed_refl _) edits
  refine ⟨fun db' hexec => ?_, fun hblocked i hi total => ?_⟩
  · obtain ⟨vs, hvs⟩ := exec_verify_ok hn hexec
    have haccepted : ∀ i ∈ db.tables.intakeItems donationId inventoryId, ∃ r, page i.itemId = some r ∧
        r.error = false ∧ ∃ n : ℕ, r.usable = fixedText 2 n ∧
        (db'.tables.inStock ⟨i.itemId, inventoryId⟩ - db.tables.inStock ⟨i.itemId, inventoryId⟩).usable = n / 10 ^ 2 := by
      intro i hi
      obtain ⟨r, hr, d, e, t, hdeductions, ht, -, hlt⟩ := item_amounts hn hcomputed hcents hi
      obtain ⟨v, hv, hiv⟩ := hvs.all i hi
      obtain ⟨hleft, hstock⟩ := accepted_item hvs hv hiv hdeductions ht
      obtain ⟨hno, husable⟩ := hlt hleft
      exact ⟨r, hr, hno, t - d - e, husable, hstock⟩
    refine ⟨List.any_eq_false.2 fun i hi => ?_, fun i hi => ?_⟩
    · obtain ⟨r, hr, hno, n, husable, -⟩ := haccepted i hi
      rw [hr, Option.any_some, hno, negative_fixedText husable]
      exact Bool.false_ne_true
    · obtain ⟨r, hr, -, hshown⟩ := haccepted i hi
      exact ⟨r, hr, hshown⟩
  · obtain ⟨r, hr, d, e, t, hdeductions, ht, hle, -⟩ := item_amounts hn hcomputed hcents hi
    have hrow := List.any_eq_false.1 hblocked i hi
    rw [hr, Option.any_some, Bool.not_eq_true, Bool.or_eq_false_iff] at hrow
    have hfits : ((d : ℚ) / 10 ^ 2) + e / 10 ^ 2 ≤ i.qty.total := by
      have hcast : (d : ℚ) + e ≤ t := by exact_mod_cast hle hrow.1
      rw [ht]
      linarith
    exact not_exceedsIntake hdeductions hfits total

/-- Two of five units are found broken, half a unit past its date. -/
def Site.inspection : List QtyEvent := [.defective 1 (some 2), .expired 1 none, .expired 1 (some (1 / 2))]

theorem verify_page_agrees_site :
    let page := run qtyStep (verifyPage (Site.entered.tables.intakeItems 1 1)) Site.inspection
    (Site.entered.exec Site.intakeCtx 1 (.verify 101 1 (postedForm page Site.confirmed))).isOk ∧
    PageAgrees Site.intakeCtx 1 101 1 Site.entered page (postedForm page Site.confirmed) := by
  intro page
  have hpage : ∀ i ∈ Site.entered.tables.intakeItems 1 1,
      (page i.itemId).map (fun r => (r.defective, r.expired)) = some (some 2, some (1 / 2)) := by decide +kernel
  refine ⟨by decide +kernel, verify_page_agrees Site.intakeCtx 1 101 1 Site.entered Site.confirmed Site.inspection
    (by decide +kernel) ⟨fun i hi r hr => ?_, by decide +kernel⟩⟩
  have hrow := hpage i hi
  rw [show page i.itemId = some r from hr, Option.map_some, Option.some.injEq, Prod.mk.injEq] at hrow
  obtain ⟨hdefective, hexpired⟩ := hrow
  rw [hdefective, hexpired]
  exact ⟨⟨200, by norm_num⟩, ⟨50, by norm_num⟩⟩

end Dmis
