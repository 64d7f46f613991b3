import Dmis.Donations
import Dmis.Requests

/-!
# Donation intakes

`app/features/donation_intake.py`. For a verified donation and a warehouse, an officer enters what has arrived of
every GOODS item; a manager verifies the entry, which posts its quantities to the batches and the totals of the
warehouse and marks the donation as processed.

| here | there |
| --- | --- |
| `goodsItems` | `_get_goods_items_for_donation` (`:285-299`) |
| `entryBatch`, `entryExpiry`, `entryItem` | the loop over the items of the form (`:334-464`) |
| `entryErrors`, `processEntry` | `_process_entry_submission` (`:302-586`) |
| `intakeForm` | `intake_form` (`:200-238`) |
| `verifyItem` | the loop over the intake's items (`:675-772`) |
| `postItem`, `processVerification` | `_process_verification_submission` (`:655-923`) |
| `verifyIntake` | `verify_intake` (`:593-630`) |

Sums, differences and products of decimals are exact here. Python's context keeps 28 digits of them: all of a sum of what
is typed in at most twelve decimals and fits a column, and all of a product of at most eight decimals each. A longer number
it may round before the column does.
-/

namespace Dmis

open Relational Keyed

/-! ## Rows -/

/-- `dnintake.status_code`: I, C, V. -/
inductive IntakeStatus where
  | incomplete | completed | verified
  deriving DecidableEq, Repr

structure DonationIntake where
  donationId : Nat
  inventoryId : Nat
  intakeDate : Day
  statusCode : IntakeStatus
  deriving DecidableEq, Repr

/-- What arrived of an item, or what is posted of it. -/
structure Received where
  usable : ℚ
  defective : ℚ
  expired : ℚ
  deriving DecidableEq, Repr

structure DonationIntakeItem where
  donationId : Nat
  inventoryId : Nat
  itemId : Nat
  batchNo : String
  batchDate : Day
  expiryDate : Option Day
  uomCode : String
  avgUnitValue : ℚ
  extItemCost : ℚ
  qty : Received
  statusCode : DonationItemStatus
  deriving DecidableEq, Repr

instance : Keyed DonationIntake (Nat × Nat) := ⟨fun i => (i.donationId, i.inventoryId)⟩
instance : Keyed DonationIntakeItem (Nat × Nat × Nat × String) :=
  ⟨fun i => (i.donationId, i.inventoryId, i.itemId, i.batchNo)⟩

structure IntakeTables where
  donation : Table Donation
  donationItem : Table DonationItem
  dnintake : Table DonationIntake
  dnintakeItem : Table DonationIntakeItem
  itembatch : Table ItemBatch
  inventory : Table Inventory
  nextBatchId : Nat
  deriving DecidableEq

/-- The columns of `item` and its category that an intake reads. -/
structure StockItem where
  itemCode : String
  isBatchedFlag : Bool
  canExpireFlag : Bool
  categoryType : DonationType
  deriving DecidableEq, Repr

/-- The catalogue, which has every donated item, and `allow_donation_intake` of every warehouse there is. -/
structure IntakeCtx where
  items : Nat → StockItem
  warehouses : Nat → Option Bool

def Received.total (q : Received) : ℚ := q.usable + q.defective + q.expired

/-- As columns with `s` decimals hold it. -/
def Received.rounded (s : ℕ) (q : Received) : Received := ⟨numeric s q.usable, numeric s q.defective, numeric s q.expired⟩

def ItemBatch.qty (b : ItemBatch) : Received := ⟨b.usableQty, b.defectiveQty, b.expiredQty⟩
def Inventory.qty (v : Inventory) : Received := ⟨v.usableQty, v.defectiveQty, v.expiredQty⟩

/-- `_get_goods_items_for_donation`. -/
def IntakeTables.goodsItems (ctx : IntakeCtx) (donationId : Nat) (t : IntakeTables) : List DonationItem :=
  t.donationItem.select fun i => i.donationId = donationId ∧ (ctx.items i.itemId).categoryType = .goods

/-- The items of the intake of a donation at a warehouse. -/
def IntakeTables.intakeItems (donationId inventoryId : Nat) (t : IntakeTables) : List DonationIntakeItem :=
  t.dnintakeItem.select fun i => i.donationId = donationId ∧ i.inventoryId = inventoryId

/-! ## Errors -/

/-- The texts of `errors`, by the item they name. -/
inductive IntakeError where
  | intakeDateRequired | intakeDateInFuture | invalidIntakeDate | commentsTooLong
  | missingData (itemId : Nat)
  | batchNumberRequired (itemId : Nat)
  | batchDateRequired (itemId : Nat)
  | batchDateInFuture (itemId : Nat)
  | invalidBatchDate (itemId : Nat)
  | enterBatchDate (itemId : Nat)
  | enterBatchNo (itemId : Nat)
  | expiryDateRequired (itemId : Nat)
  | expiryDateInPast (itemId : Nat)
  | expiryBeforeBatch (itemId : Nat)
  | invalidExpiryDate (itemId : Nat)
  | uomRequired (itemId : Nat)
  | invalidQuantities (itemId : Nat)
  | negativeQuantities (itemId : Nat)
  | usableZero (itemId : Nat)
  | invalidUnitCost (itemId : Nat)
  | unitCostNotPositive (itemId : Nat)
  | duplicateBatch (itemId : Nat) (batchNo : String)
  | quantityMismatch (itemId : Nat) (actual : PyDecimal) (expected : ℚ)
  | mustHaveData (itemId : Nat)
  | donationItemNotFound (itemId : Nat)
  | donationQuantityNotPositive (itemId : Nat)
  | intakeQuantityNotPositive (itemId : Nat)
  | exceedsIntake (itemId : Nat) (total : ℚ)
  | exceedsDonation (itemId : Nat) (qty : ℚ)
  | usableNotPositive (itemId : Nat)
  deriving DecidableEq

inductive IntakeFailure where
  | notFound | warehouseNotEligible | donationNotVerified | intakeVerified | intakeNotSubmitted
  | errors (es : List IntakeError)
  | database
  deriving DecidableEq

/-! ## Posted numbers -/

/-- `Decimal(text) if text else Decimal('0')`. -/
def AmountField.orZero : AmountField → Option PyDecimal
  | .blank => some (.finite 0)
  | .malformed => none
  | .value d => some d

namespace PyDecimal

def finite? : PyDecimal → Option ℚ
  | .finite q => some q
  | _ => none

/-- `d < 0`; a NaN raises. -/
def negative? : PyDecimal → Option Bool
  | .finite q => some (q < 0)
  | .infinity neg => some neg
  | .nan => none

/-- `d <= 0`. -/
def nonpositive? : PyDecimal → Option Bool
  | .finite q => some (q ≤ 0)
  | .infinity neg => some neg
  | .nan => none

def add : PyDecimal → PyDecimal → PyDecimal
  | .finite a, .finite b => .finite (a + b)
  | .nan, _ | _, .nan => .nan
  | .infinity m, .infinity n => if m = n then .infinity m else .nan
  | .infinity m, .finite _ => .infinity m
  | .finite _, .infinity n => .infinity n

/-- `a < 0 or b < 0 or …`, from left to right. -/
def anyNegative : List PyDecimal → Option Bool
  | [] => some false
  | d :: ds =>
    match d.negative? with
    | some false => anyNegative ds
    | o => o

end PyDecimal

def checkQuantities (itemId : Nat) (ds : List PyDecimal) : Except IntakeError Unit := do
  let negative ← require (PyDecimal.anyNegative ds) (.invalidQuantities itemId)
  check (negative = false) (.negativeQuantities itemId)

/-! ## Entry -/

/-- The fields of an item; texts are stripped, a batch number is upper-cased. -/
structure EntryField where
  batchNo : String
  batchDate : DateField
  expiryDate : DateField
  uomCode : String
  avgUnitValue : AmountField
  usableQty : AmountField
  defectiveQty : AmountField
  expiredQty : AmountField

structure EntryForm where
  intakeDate : DateField
  commentsText : String
  saveDraft : Bool
  /-- `none` if `batch_no_{item_id}` is not in the form. -/
  fields : Nat → Option EntryField

/-- An element of `intake_items_data`. -/
structure IntakeEntry where
  itemId : Nat
  batchNo : String
  batchDate : Day
  expiryDate : Option Day
  uomCode : String
  avgUnitValue : PyDecimal
  usableQty : PyDecimal
  defectiveQty : PyDecimal
  expiredQty : PyDecimal

def batchDay (today : Day) (itemId : Nat) : DateField → Except IntakeError Day
  | .blank => .error (.batchDateRequired itemId)
  | .malformed => .error (.invalidBatchDate itemId)
  | .day d => if today < d then .error (.batchDateInFuture itemId) else .ok d

/-- Without a batch number an unbatched item gets its code for one. -/
def entryBatch (item : StockItem) (today : Day) (itemId : Nat) (f : EntryField) : Except IntakeError (String × Day) :=
  if item.isBatchedFlag then do
    check (f.batchNo ≠ "") (.batchNumberRequired itemId)
    let d ← batchDay today itemId f.batchDate
    pure (f.batchNo, d)
  else if f.batchNo ≠ "" ∧ f.batchDate = .blank then .error (.enterBatchDate itemId)
  else if f.batchNo = "" ∧ f.batchDate ≠ .blank then .error (.enterBatchNo itemId)
  else if f.batchNo = "" then .ok (item.itemCode, today)
  else do
    let d ← batchDay today itemId f.batchDate
    pure (f.batchNo, d)

/-- The date of an item that cannot expire is not checked. -/
def entryExpiry (item : StockItem) (today : Day) (itemId : Nat) (batchDate : Day) :
    DateField → Except IntakeError (Option Day)
  | .blank => if item.canExpireFlag then .error (.expiryDateRequired itemId) else .ok none
  | .malformed => if item.canExpireFlag then .error (.invalidExpiryDate itemId) else .ok none
  | .day d =>
    if item.canExpireFlag ∧ d < today then .error (.expiryDateInPast itemId)
    else if item.canExpireFlag ∧ d < batchDate then .error (.expiryBeforeBatch itemId)
    else .ok (some d)

def entryItem (ctx : IntakeCtx) (today : Day) (form : EntryForm) (i : DonationItem) : Except IntakeError IntakeEntry := do
  let f ← require (form.fields i.itemId) (.missingData i.itemId)
  let (batchNo, batchDate) ← entryBatch (ctx.items i.itemId) today i.itemId f
  let expiryDate ← entryExpiry (ctx.items i.itemId) today i.itemId batchDate f.expiryDate
  check (f.uomCode ≠ "") (.uomRequired i.itemId)
  let usable ← require f.usableQty.orZero (.invalidQuantities i.itemId)
  let defective ← require f.defectiveQty.orZero (.invalidQuantities i.itemId)
  let expired ← require f.expiredQty.orZero (.invalidQuantities i.itemId)
  checkQuantities i.itemId [usable, defective, expired]
  check (usable ≠ .finite 0) (.usableZero i.itemId)
  let avg ← require f.avgUnitValue.orZero (.invalidUnitCost i.itemId)
  let notPositive ← require avg.nonpositive? (.invalidUnitCost i.itemId)
  check (notPositive = false) (.unitCostNotPositive i.itemId)
  pure ⟨i.itemId, batchNo, batchDate, expiryDate, f.uomCode, avg, usable, defective, expired⟩

def IntakeEntry.total (e : IntakeEntry) : PyDecimal := (e.usableQty.add e.defectiveQty).add e.expiredQty

/-- `item_totals.get(item_id, Decimal('0'))`. -/
def enteredTotal (entries : List IntakeEntry) (itemId : Nat) : PyDecimal :=
  ((entries.filter (·.itemId = itemId)).map IntakeEntry.total).foldl PyDecimal.add (.finite 0)

def headerErrors (today : Day) (form : EntryForm) : List IntakeError :=
  (match form.intakeDate with
    | .blank => [.intakeDateRequired]
    | .malformed => [.invalidIntakeDate]
    | .day d => if today < d then [.intakeDateInFuture] else []) ++
  if 255 < form.commentsText.length then [.commentsTooLong] else []

def duplicateErrors : List (Nat × String) → List IntakeEntry → List IntakeError
  | _, [] => []
  | seen, e :: es =>
    (if (e.itemId, e.batchNo) ∈ seen then [.duplicateBatch e.itemId e.batchNo] else []) ++
      duplicateErrors ((e.itemId, e.batchNo) :: seen) es

/-- What arrived of an item must be what was donated of it. -/
def mismatchOf (entries : List IntakeEntry) (i : DonationItem) : Option IntakeError :=
  if enteredTotal entries i.itemId = .finite i.itemQty then none
  else some (.quantityMismatch i.itemId (enteredTotal entries i.itemId) i.itemQty)

def missingOf (entries : List IntakeEntry) (i : DonationItem) : Option IntakeError :=
  if i.itemId ∈ entries.map IntakeEntry.itemId then none else some (.mustHaveData i.itemId)

def entryErrors (ctx : IntakeCtx) (today : Day) (form : EntryForm) (goods : List DonationItem) : List IntakeError :=
  let entries := oks (goods.map (entryItem ctx today form))
  headerErrors today form ++ errors (goods.map (entryItem ctx today form)) ++ duplicateErrors [] entries ++
    goods.filterMap (mismatchOf entries) ++ goods.filterMap (missingOf entries)

/-- The row of an entry; an infinity, for which the driver sends `NaN`, makes none. -/
def IntakeEntry.row? (donationId inventoryId : Nat) (e : IntakeEntry) : Option DonationIntakeItem := do
  let usable ← e.usableQty.finite?
  let defective ← e.defectiveQty.finite?
  let expired ← e.expiredQty.finite?
  let avg ← e.avgUnitValue.finite?
  pure
    { donationId := donationId
      inventoryId := inventoryId
      itemId := e.itemId
      batchNo := e.batchNo
      batchDate := e.batchDate
      expiryDate := e.expiryDate
      uomCode := e.uomCode
      avgUnitValue := avg
      extItemCost := (usable + defective + expired) * avg
      qty := ⟨usable, defective, expired⟩
      statusCode := .pending }

/-- The items of an intake that is there are replaced. -/
def processEntry (ctx : IntakeCtx) (today : Day) (donationId inventoryId : Nat) (form : EntryForm) (t : IntakeTables) :
    Except IntakeFailure IntakeTables := do
  let goods := t.goodsItems ctx donationId
  let es := entryErrors ctx today form goods
  check (es = []) (.errors es)
  let intakeDate := match form.intakeDate with | .day d => d | _ => today
  let rows ← require ((oks (goods.map (entryItem ctx today form))).mapM (·.row? donationId inventoryId)) .database
  let others := t.dnintakeItem.deleteWhere fun i => i.donationId = donationId ∧ i.inventoryId = inventoryId
  let items ← require (Table.insertAll rows others) .database
  pure { t with
    dnintake := t.dnintake.upsert
      ⟨donationId, inventoryId, intakeDate, if form.saveDraft then .incomplete else .completed⟩
    dnintakeItem := items }

def intakeForm (ctx : IntakeCtx) (today : Day) (donationId inventoryId : Nat) (form : EntryForm) (t : IntakeTables) :
    Except IntakeFailure IntakeTables := do
  let donation ← require (t.donation.get? donationId) .notFound
  let allowed ← require (ctx.warehouses inventoryId) .notFound
  check (allowed = true) .warehouseNotEligible
  check (donation.statusCode = .verified) .donationNotVerified
  check (∀ i ∈ t.dnintake.get? (donationId, inventoryId), i.statusCode ≠ .verified) .intakeVerified
  processEntry ctx today donationId inventoryId form t

/-! ## Verification -/

/-- The fields of an item; a quantity or batch number that is not in the form is the stored one. -/
structure VerifyField where
  defectiveQty : Option AmountField
  expiredQty : Option AmountField
  batchNo : String
  batchDate : DateField
  expiryDate : DateField

/-- An element of `verified_items_data`, over the row it came from. -/
structure VerifiedItem where
  row : DonationIntakeItem
  batchNo : String
  batchDate : Day
  expiryDate : Option Day
  qty : Received

def verifyBatchDate (today : Day) (i : DonationIntakeItem) : DateField → Except IntakeError Day
  | .blank => .ok i.batchDate
  | field => batchDay today i.itemId field

def verifyExpiry (item : StockItem) (today : Day) (i : DonationIntakeItem) (batchDate : Day) :
    DateField → Except IntakeError (Option Day)
  | .blank => .ok i.expiryDate
  | .malformed => .error (.invalidExpiryDate i.itemId)
  | .day d =>
    if item.canExpireFlag ∧ d < today then .error (.expiryDateInPast i.itemId)
    else if d < batchDate then .error (.expiryBeforeBatch i.itemId)
    else .ok (some d)

/-- An infinite deduction exceeds every intake. -/
def finiteDeductions (i : DonationIntakeItem) : PyDecimal → PyDecimal → Except IntakeError (ℚ × ℚ)
  | .finite d, .finite e => .ok (d, e)
  | _, _ => .error (.exceedsIntake i.itemId i.qty.total)

def verifyItem (ctx : IntakeCtx) (today : Day) (t : IntakeTables) (form : Nat → VerifyField) (i : DonationIntakeItem) :
    Except IntakeError VerifiedItem := do
  let f := form i.itemId
  let defective ← require (f.defectiveQty.getD (.value (.finite i.qty.defective))).orZero (.invalidQuantities i.itemId)
  let expired ← require (f.expiredQty.getD (.value (.finite i.qty.expired))).orZero (.invalidQuantities i.itemId)
  checkQuantities i.itemId [defective, expired]
  let donated ← require (t.donationItem.get? (i.donationId, i.itemId)) (.donationItemNotFound i.itemId)
  check (0 < donated.itemQty) (.donationQuantityNotPositive i.itemId)
  check (0 < i.qty.total) (.intakeQuantityNotPositive i.itemId)
  let (d, e) ← finiteDeductions i defective expired
  check (d + e ≤ i.qty.total) (.exceedsIntake i.itemId i.qty.total)
  check (d + e ≤ donated.itemQty) (.exceedsDonation i.itemId donated.itemQty)
  check (0 < i.qty.total - d - e) (.usableNotPositive i.itemId)
  let batchDate ← verifyBatchDate today i f.batchDate
  let expiryDate ← verifyExpiry (ctx.items i.itemId) today i batchDate f.expiryDate
  pure ⟨i, if f.batchNo = "" then i.batchNo else f.batchNo, batchDate, expiryDate, ⟨i.qty.total - d - e, d, e⟩⟩

/-- The intake's row after the verification. -/
def VerifiedItem.verifiedRow (v : VerifiedItem) : DonationIntakeItem :=
  { v.row with
    batchNo := v.batchNo
    batchDate := v.batchDate
    expiryDate := v.expiryDate
    extItemCost := v.row.qty.total * v.row.avgUnitValue
    qty := v.qty
    statusCode := .verified }

def ItemBatch.receive (expiry : Option Day) (q : Received) (b : ItemBatch) : ItemBatch :=
  { b with
    usableQty := b.usableQty + q.usable
    defectiveQty := b.defectiveQty + q.defective
    expiredQty := b.expiredQty + q.expired
    expiryDate := if ∃ d ∈ expiry, ∀ d' ∈ b.expiryDate, d < d' then expiry else b.expiryDate }

def Inventory.receive (q : Received) (v : Inventory) : Inventory :=
  { v with
    usableQty := v.usableQty + q.usable
    defectiveQty := v.defectiveQty + q.defective
    expiredQty := v.expiredQty + q.expired }

/-- A new batch, before anything is posted to it. -/
def VerifiedItem.emptyBatch (v : VerifiedItem) (batchId : Nat) : ItemBatch :=
  { batchId := batchId
    inventoryId := v.row.inventoryId
    itemId := v.row.itemId
    batchNo := v.batchNo
    batchDate := some v.batchDate
    expiryDate := none
    usableQty := 0
    reservedQty := 0
    defectiveQty := 0
    expiredQty := 0
    uomCode := v.row.uomCode
    sizeSpec := none
    statusCode := .active }

def VerifiedItem.emptyStock (v : VerifiedItem) : Inventory :=
  ⟨v.row.inventoryId, v.row.itemId, 0, 0, 0, 0, .active⟩

/-- The batch of this number at the warehouse, if there is one. -/
def VerifiedItem.existingBatch (v : VerifiedItem) (t : IntakeTables) : Option ItemBatch :=
  (t.itembatch.select fun b => b.inventoryId = v.row.inventoryId ∧ b.itemId = v.row.itemId ∧ b.batchNo = v.batchNo).head?

def VerifiedItem.batch (v : VerifiedItem) (t : IntakeTables) : ItemBatch :=
  (v.existingBatch t).getD (v.emptyBatch t.nextBatchId)

def VerifiedItem.stock (v : VerifiedItem) (t : IntakeTables) : Inventory :=
  (t.inventory.get? ⟨v.row.itemId, v.row.inventoryId⟩).getD v.emptyStock

/-- A changed batch number is part of the key: the row is deleted and added again. -/
def VerifiedItem.rewrite (v : VerifiedItem) (t : Table DonationIntakeItem) : Option (Table DonationIntakeItem) :=
  if v.row.batchNo ≠ v.batchNo then (t.deleteWhere fun i => key i = key v.row).insert v.verifiedRow
  else some (t.set v.verifiedRow)

def postItem (v : VerifiedItem) (t : IntakeTables) : Except IntakeFailure IntakeTables := do
  let items ← require (v.rewrite t.dnintakeItem) .database
  pure { t with
    dnintakeItem := items
    itembatch := t.itembatch.upsert ((v.batch t).receive v.expiryDate v.qty)
    inventory := t.inventory.upsert ((v.stock t).receive v.qty)
    nextBatchId := if (v.existingBatch t).isSome then t.nextBatchId else t.nextBatchId + 1 }

def postItems : List VerifiedItem → IntakeTables → Except IntakeFailure IntakeTables
  | [], t => .ok t
  | v :: vs, t => do
    let t' ← postItem v t
    postItems vs t'

def processVerification (ctx : IntakeCtx) (today : Day) (intake : DonationIntake) (donation : Donation)
    (form : Nat → VerifyField) (t : IntakeTables) : Except IntakeFailure IntakeTables := do
  let results := (t.intakeItems intake.donationId intake.inventoryId).map (verifyItem ctx today t form)
  check (errors results = []) (.errors (errors results))
  let t' ← postItems (oks results) { t with dnintake := t.dnintake.set { intake with statusCode := .verified } }
  pure { t' with donation := t'.donation.set { donation with statusCode := .processed } }

/-- The status of the donation is not checked. -/
def verifyIntake (ctx : IntakeCtx) (today : Day) (donationId inventoryId : Nat) (form : Nat → VerifyField)
    (t : IntakeTables) : Except IntakeFailure IntakeTables := do
  let intake ← require (t.dnintake.get? (donationId, inventoryId)) .notFound
  check (intake.statusCode = .completed) .intakeNotSubmitted
  let donation ← require (t.donation.get? donationId) .notFound
  processVerification ctx today intake donation form t

/-! ## What is stored -/

def DonationIntakeItem.stored (i : DonationIntakeItem) : DonationIntakeItem :=
  { i with
    avgUnitValue := numeric 2 i.avgUnitValue
    extItemCost := numeric 2 i.extItemCost
    qty := i.qty.rounded 2 }

theorem key_stored_intakeItem (i : DonationIntakeItem) : key i.stored = key i := rfl
theorem key_stored_donationItem (i : DonationItem) : key i.stored = key i := rfl

def IntakeTables.rounded (t : IntakeTables) : IntakeTables :=
  { t with
    donationItem := t.donationItem.mapRows DonationItem.stored key_stored_donationItem
    dnintakeItem := t.dnintakeItem.mapRows DonationIntakeItem.stored key_stored_intakeItem
    itembatch := t.itembatch.mapRows ItemBatch.rounded key_rounded_itembatch
    inventory := t.inventory.mapRows Inventory.rounded key_rounded_inventory }

/-- `c_dnintake_item_1c` to `c_dnintake_item_4`; `1b` compares with the current day, as the forms do. -/
structure DonationIntakeItem.Check (i : DonationIntakeItem) : Prop where
  dates : ∀ d ∈ i.expiryDate, i.batchDate ≤ d
  avgUnitValue : 0 < i.avgUnitValue
  extItemCost : i.extItemCost = i.qty.total * i.avgUnitValue
  nonneg : 0 ≤ i.qty.usable ∧ 0 ≤ i.qty.defective ∧ 0 ≤ i.qty.expired

structure IntakeTables.Consistent (t : IntakeTables) : Prop where
  stored : t.rounded = t
  batch : ∀ b ∈ t.itembatch.rows, b.Check
  inventory : ∀ v ∈ t.inventory.rows, v.Check
  donationItem : ∀ i ∈ t.donationItem.rows, i.Check
  intakeItem : ∀ i ∈ t.dnintakeItem.rows, i.Check
  pkItembatch : (t.itembatch.rows.map (·.batchId)).Nodup
  batchIds : ∀ b ∈ t.itembatch.rows, b.batchId < t.nextBatchId
  /-- `uk_itembatch_1`. -/
  ukItembatch : (t.itembatch.rows.map fun b => (b.inventoryId, b.batchNo, b.itemId)).Nodup
  /-- `fk_dnintake_donation`. -/
  fkDonation : ∀ i ∈ t.dnintake.rows, i.donationId ∈ t.donation.keys
  /-- `fk_dnintake_item_intake`. -/
  fkIntake : ∀ i ∈ t.dnintakeItem.rows, (i.donationId, i.inventoryId) ∈ t.dnintake.keys
  /-- `fk_dnintake_item_donation_item`. -/
  fkDonationItem : ∀ i ∈ t.dnintakeItem.rows, (i.donationId, i.itemId) ∈ t.donationItem.keys

instance DonationIntakeItem.decidableCheck (i : DonationIntakeItem) : Decidable i.Check :=
  decidable_of_iff
    ((∀ d ∈ i.expiryDate, i.batchDate ≤ d) ∧ 0 < i.avgUnitValue ∧ i.extItemCost = i.qty.total * i.avgUnitValue ∧
      0 ≤ i.qty.usable ∧ 0 ≤ i.qty.defective ∧ 0 ≤ i.qty.expired)
    ⟨fun h => ⟨h.1, h.2.1, h.2.2.1, h.2.2.2⟩, fun h => ⟨h.dates, h.avgUnitValue, h.extItemCost, h.nonneg⟩⟩

instance IntakeTables.decidableConsistent (t : IntakeTables) : Decidable t.Consistent :=
  decidable_of_iff
    (t.rounded = t ∧ (∀ b ∈ t.itembatch.rows, b.Check) ∧ (∀ v ∈ t.inventory.rows, v.Check) ∧
      (∀ i ∈ t.donationItem.rows, i.Check) ∧ (∀ i ∈ t.dnintakeItem.rows, i.Check) ∧
      (t.itembatch.rows.map (·.batchId)).Nodup ∧ (∀ b ∈ t.itembatch.rows, b.batchId < t.nextBatchId) ∧
      (t.itembatch.rows.map fun b => (b.inventoryId, b.batchNo, b.itemId)).Nodup ∧
      (∀ i ∈ t.dnintake.rows, i.donationId ∈ t.donation.keys) ∧
      (∀ i ∈ t.dnintakeItem.rows, (i.donationId, i.inventoryId) ∈ t.dnintake.keys) ∧
      ∀ i ∈ t.dnintakeItem.rows, (i.donationId, i.itemId) ∈ t.donationItem.keys)
    ⟨fun ⟨h₁, h₂, h₃, h₄, h₅, h₆, h₇, h₈, h₉, h₁₀, h₁₁⟩ => ⟨h₁, h₂, h₃, h₄, h₅, h₆, h₇, h₈, h₉, h₁₀, h₁₁⟩,
      fun h => ⟨h.stored, h.batch, h.inventory, h.donationItem, h.intakeItem, h.pkItembatch, h.batchIds, h.ukItembatch,
        h.fkDonation, h.fkIntake, h.fkDonationItem⟩⟩

structure IntakeDb where
  tables : IntakeTables
  consistent : tables.Consistent

/-! ## Posts -/

/-- The posts that concern the intakes of a donation. -/
inductive IntakeOp where
  | entry (today : Day) (inventoryId : Nat) (form : EntryForm)
  | verify (today : Day) (inventoryId : Nat) (form : Nat → VerifyField)

def IntakeOp.route (ctx : IntakeCtx) (donationId : Nat) : IntakeOp → IntakeTables → Except IntakeFailure IntakeTables
  | .entry today inventoryId form => intakeForm ctx today donationId inventoryId form
  | .verify today inventoryId form => verifyIntake ctx today donationId inventoryId form

/-- `db.session.commit()`. -/
def commitIntake (t : IntakeTables) : Except IntakeFailure IntakeDb :=
  if h : t.rounded.Consistent then .ok ⟨t.rounded, h⟩ else .error .database

def IntakeDb.exec (ctx : IntakeCtx) (donationId : Nat) (db : IntakeDb) (op : IntakeOp) : Except IntakeFailure IntakeDb :=
  op.route ctx donationId db.tables >>= commitIntake

/-- A post that fails is rolled back. -/
def intakeStep (ctx : IntakeCtx) (donationId : Nat) (db : IntakeDb) (op : IntakeOp) : IntakeDb :=
  match db.exec ctx donationId op with
  | .ok db' => db'
  | .error _ => db

end Dmis
