import Dmis.Session
import Dmis.Lib.Sessions

/-!
# Donations

The donation header, its items, and the forms that write them (`app/features/donations.py`). The columns
kept are the ones some check or the stock needs; texts that are only stored, costs of the header and
audit columns are not.

| here | there |
| --- | --- |
| `verifyErrors`, `verifyEntry` | the form of `verify_donation_detail` (`:1300-1470`) |
| `editErrors`, `editEntry` | the form of `edit_donation` (`:650-770`) |
| `ItemAdd.errors`, `ItemAdd.row` | `add_donation_item` (`:985-1050`) |
| `ItemChange.errors`, `ItemChange.changed` | `edit_donation_item` (`:1120-1170`) |
| `verifyWrites`, `editWrites` | the loops over `item_data` (`:1488-1543`, `:805-850`) |
-/

namespace Dmis

open Relational Keyed

/-! ## Rows -/

inductive DonationType where
  | goods | funds
  deriving DecidableEq, Repr

/-- `donation.status_code`: E, V, P. -/
inductive DonationStatus where
  | entered | verified | processed
  deriving DecidableEq, Repr

/-- `donation_item.status_code`: P, V. -/
inductive DonationItemStatus where
  | pending | verified
  deriving DecidableEq, Repr

structure Donation where
  donationId : Nat
  statusCode : DonationStatus
  versionNbr : Nat
  deriving DecidableEq, Repr

structure DonationItem where
  donationId : Nat
  itemId : Nat
  donationType : DonationType
  itemQty : ℚ
  itemCost : ℚ
  uomCode : Option String
  currencyCode : Option String
  statusCode : DonationItemStatus
  versionNbr : Nat
  deriving DecidableEq, Repr

instance : Keyed Donation Nat := ⟨Donation.donationId⟩
instance : Versioned Donation := ⟨Donation.versionNbr⟩
instance : Keyed DonationItem (Nat × Nat) := ⟨fun i => (i.donationId, i.itemId)⟩
instance : Versioned DonationItem := ⟨DonationItem.versionNbr⟩

/-- What the columns hold. -/
def DonationItem.stored (i : DonationItem) : DonationItem :=
  { i with itemQty := numeric 2 i.itemQty, itemCost := numeric 2 i.itemCost }

/-- `c_donation_item_1a`, `1b` and `c_donation_item_type_fields`. -/
def DonationItem.Check (i : DonationItem) : Prop :=
  0 ≤ i.itemQty ∧ 0 ≤ i.itemCost ∧
  ((i.donationType = .goods ∧ i.uomCode.isSome ∧ i.currencyCode = none) ∨
    (i.donationType = .funds ∧ i.currencyCode.isSome ∧ i.uomCode = none))

instance : DecidablePred DonationItem.Check := fun i => by unfold DonationItem.Check; infer_instance

/-! ## Forms -/

/-- A posted number: blank, no decimal, or a decimal. -/
inductive AmountField where
  | blank | malformed
  | value (d : PyDecimal)
  deriving DecidableEq, Repr

def AmountField.decimal? : AmountField → Option PyDecimal
  | .value d => some d
  | _ => none

/-- A number a column can hold. For an infinity the driver sends `NaN`, which is left out here. -/
def AmountField.finite? : AmountField → Option ℚ
  | .value (.finite q) => some q
  | _ => none

/-- A posted item id: the text, and what `int` makes of it. -/
structure IdField where
  text : String
  value : Option Nat
  deriving DecidableEq, Repr

/-- The fields `item_id_{num}`, `donation_type_{num}` and so on. -/
structure ItemField where
  num : String
  itemId : IdField
  /-- The upper-cased text, `GOODS` without one. -/
  typeText : String
  quantity : AmountField
  itemCost : AmountField
  uomCode : String
  currencyCode : String
  isExisting : Bool

def DonationType.text : DonationType → String
  | .goods => "GOODS"
  | .funds => "FUNDS"

def ItemField.donationType (f : ItemField) : Option DonationType :=
  if f.typeText = "GOODS" then some .goods else if f.typeText = "FUNDS" then some .funds else none

/-- The form of `verify_donation_detail` and `edit_donation`. -/
structure DonationForm where
  versionNbr : VersionField
  /-- What the checks of the header fields and of the uploaded documents found; they read no table. -/
  otherErrors : List String
  items : List ItemField

/-- An entry of `item_data`. -/
structure ItemEntry where
  itemId : Nat
  donationType : DonationType
  quantity : ℚ
  itemCost : ℚ
  uomCode : Option String
  currencyCode : Option String
  isExisting : Bool
  deriving DecidableEq

/-- The errors of the rows: a row without an item is skipped, and one whose item was there before is a duplicate. -/
def rowErrors (one : ItemField → List String) : List String → List ItemField → List String
  | _, [] => []
  | seen, f :: fs =>
    if f.itemId.text = "" then rowErrors one seen fs
    else if f.itemId.text ∈ seen then
      ("Duplicate item detected in row #" ++ f.num ++ ". Each item can only be added once per donation.") ::
        rowErrors one seen fs
    else one f ++ rowErrors one (f.itemId.text :: seen) fs

def errorIf (c : Bool) (message : String) : List String := if c then [message] else []

/-- GOODS need a unit, FUNDS a currency. -/
def unitErrors (f : ItemField) : List String :=
  match f.donationType with
  | some .goods => errorIf (f.uomCode = "") ("UOM is required for GOODS item #" ++ f.num)
  | some .funds => errorIf (f.currencyCode = "") ("Currency is required for FUNDS item #" ++ f.num)
  | none => []

def typeErrors (f : ItemField) : List String :=
  errorIf f.donationType.isNone ("Invalid donation type for item #" ++ f.num ++ ". Must be GOODS or FUNDS.")

/-- `verify_donation_detail`: comparing a NaN raises inside the `try`. -/
def verifyQuantityErrors (f : ItemField) : List String :=
  let negative := "Quantity must be >= 0 for item #" ++ f.num
  let notOne := "Quantity must be 1.00 for FUNDS items (item #" ++ f.num ++ ")"
  match f.quantity with
  | .blank => ["Quantity is required for item #" ++ f.num]
  | .malformed | .value .nan => ["Invalid quantity for item #" ++ f.num]
  | .value (.finite q) => errorIf (q < 0) negative ++ errorIf (f.donationType = some .funds ∧ q ≠ 1) notOne
  | .value (.infinity neg) => errorIf neg negative ++ errorIf (f.donationType = some .funds) notOne

def verifyCostErrors (f : ItemField) : List String :=
  let negative := "Item cost must be >= 0 for item #" ++ f.num
  let notPositive := "Item cost must be > 0 for FUNDS items (item #" ++ f.num ++ ")"
  match f.itemCost with
  | .blank | .malformed | .value .nan => ["Invalid item cost for item #" ++ f.num]
  | .value (.finite q) => errorIf (q < 0) negative ++ errorIf (f.donationType = some .funds ∧ q ≤ 0) notPositive
  | .value (.infinity neg) => errorIf neg negative ++ errorIf (f.donationType = some .funds ∧ neg) notPositive

/-- The type of the form against the category of the catalogue's item. -/
def mismatchErrors (category : Nat → Option DonationType) (f : ItemField) : List String :=
  match f.itemId.value.bind category with
  | some c => errorIf (c.text ≠ f.typeText) ("Donation type mismatch for item #" ++ f.num ++ ": item category is " ++
      c.text ++ " but form says " ++ f.typeText)
  | none => []

def noItemErrors (items : List ItemField) : List String :=
  errorIf (items.all fun f => f.itemId.text = "") "At least one donation item is required"

def verifyErrors (category : Nat → Option DonationType) (form : DonationForm) : List String :=
  form.otherErrors ++
  rowErrors (fun f => typeErrors f ++ verifyQuantityErrors f ++ verifyCostErrors f ++ unitErrors f ++
    mismatchErrors category f) [] form.items ++ noItemErrors form.items

def editErrors (form : DonationForm) : List String :=
  form.otherErrors ++
  rowErrors (fun f => typeErrors f ++
    errorIf (f.quantity = .blank) ("Quantity is required for item #" ++ f.num) ++ unitErrors f) [] form.items ++
  noItemErrors form.items

/-- `safe_amount`'s upper bound. -/
def maxAmount : ℚ := 99999999999999 / 100

/-- `safe_amount(value)`: clamped to `[0, 999999999999.99]`. -/
def safeAmount : Option PyDecimal → Except Err ℚ
  | none => .ok 0
  | some (.finite q) => .ok (if q < 0 then 0 else if maxAmount < q then maxAmount else q)
  | some (.infinity true) => .ok 0
  | some (.infinity false) => .ok maxAmount
  | some .nan => .error .notANumber

/-- The entry of a row; a fund always has quantity one. -/
def ItemField.entry (quantity itemCost : Option ℚ) (f : ItemField) : Option ItemEntry := do
  let id ← f.itemId.value
  let type ← f.donationType
  let q ← quantity
  let cost ← itemCost
  pure
    { itemId := id
      donationType := type
      quantity := if type = .funds then 1 else q
      itemCost := cost
      uomCode := if type = .goods then some f.uomCode else none
      currencyCode := if type = .funds then some f.currencyCode else none
      isExisting := f.isExisting }

def verifyEntry (f : ItemField) : Option ItemEntry := f.entry f.quantity.finite? f.itemCost.finite?

def editEntry (f : ItemField) : Option ItemEntry :=
  f.entry (safeQuantity f.quantity.decimal?).toOption (safeAmount f.itemCost.decimal?).toOption

/-- `item_data`, if the form has no error; `none` also when a number fits no column. -/
def DonationForm.entries (errors : List String) (entry : ItemField → Option ItemEntry) (form : DonationForm) :
    Option (List ItemEntry) :=
  if errors = [] then (form.items.filter fun f => f.itemId.text ≠ "").mapM entry else none

/-- Two texts can name one item; what the later entry sets stays. -/
def latest : List ItemEntry → List ItemEntry
  | [] => []
  | e :: es => if e.itemId ∈ es.map ItemEntry.itemId then latest es else e :: latest es

/-! ## Writes -/

def ItemEntry.newItem (donationId : Nat) (status : DonationItemStatus) (e : ItemEntry) : DonationItem :=
  DonationItem.stored
    { donationId := donationId
      itemId := e.itemId
      donationType := e.donationType
      itemQty := e.quantity
      itemCost := e.itemCost
      uomCode := e.uomCode
      currencyCode := e.currencyCode
      statusCode := status
      versionNbr := 1 }

/-- The columns both pages write over a row. -/
def ItemEntry.over (e : ItemEntry) (i : DonationItem) : DonationItem :=
  DonationItem.stored
    { i with
      donationType := e.donationType
      itemQty := e.quantity
      itemCost := e.itemCost
      uomCode := e.uomCode
      currencyCode := e.currencyCode
      versionNbr := i.versionNbr + 1 }

def removals (read : List DonationItem) (entries : List ItemEntry) : List (Write DonationItem) :=
  (read.filter fun i => i.itemId ∉ entries.map ItemEntry.itemId).map .delete

def ItemEntry.verifyWrite (donationId : Nat) (read : List DonationItem) (e : ItemEntry) : Write DonationItem :=
  match read.find? fun i => i.itemId = e.itemId with
  | some i => .update i { e.over i with statusCode := .verified }
  | none => .insert (e.newItem donationId .verified)

/-- The verification drops the items that are not in the form, and writes all that are. An item that is new and in two
entries is inserted once, by the later one; the version it gets from the second write is not counted. -/
def verifyWrites (donationId : Nat) (entries : List ItemEntry) (read : List DonationItem) : List (Write DonationItem) :=
  removals read entries ++ (latest entries).map (ItemEntry.verifyWrite donationId read)

/-- `edit_donation` updates the entries marked as existing, if they exist, and inserts the others. -/
def editWrites (donationId : Nat) (entries : List ItemEntry) (read : List DonationItem) : List (Write DonationItem) :=
  removals read entries ++
  ((latest (entries.filter (·.isExisting))).filterMap fun e =>
    (read.find? fun i => i.itemId = e.itemId).map fun i => .update i (e.over i)) ++
  (entries.filter (! ·.isExisting)).map fun e => .insert (e.newItem donationId .pending)

/-- The post of `add_donation_item`. -/
structure ItemAdd where
  itemId : IdField
  itemQty : AmountField
  uomCode : String
  locationName : String

def quantityErrors (f : AmountField) : List String :=
  match f with
  | .blank => ["Quantity is required"]
  | .value (.finite q) => errorIf (q ≤ 0) "Quantity must be greater than 0"
  | .value (.infinity neg) => errorIf neg "Quantity must be greater than 0"
  | _ => []

def ItemAdd.errors (p : ItemAdd) : List String :=
  errorIf (p.itemId.text = "") "Item is required" ++ quantityErrors p.itemQty ++
  errorIf (p.uomCode = "") "Unit of measure is required" ++ errorIf (p.locationName = "") "Location is required"

/-- The new row of a donation that is still `E`. -/
def ItemAdd.row (donationId : Nat) (p : ItemAdd) : Option DonationItem := do
  let id ← p.itemId.value
  let q ← p.itemQty.finite?
  if p.errors = [] then
    some (DonationItem.stored
      { donationId := donationId
        itemId := id
        donationType := .goods
        itemQty := q
        itemCost := 0
        uomCode := some p.uomCode
        currencyCode := none
        statusCode := .pending
        versionNbr := 1 })
  else none

/-- The post of `edit_donation_item`; `versionNbr` is `int` of the field, `0` without one. -/
structure ItemChange where
  versionNbr : ℤ
  itemQty : AmountField
  uomCode : String
  locationName : String
  statusCode : Option DonationItemStatus

def ItemChange.errors (p : ItemChange) : List String :=
  quantityErrors p.itemQty ++ errorIf (p.uomCode = "") "Unit of measure is required" ++
  errorIf (p.locationName = "") "Location is required" ++ errorIf p.statusCode.isNone "Valid status code is required"

/-- The row after the change; a stale page is turned away. -/
def ItemChange.changed (p : ItemChange) (i : DonationItem) : Option DonationItem := do
  let q ← p.itemQty.finite?
  let status ← p.statusCode
  if p.versionNbr = i.versionNbr ∧ p.errors = [] then
    some (DonationItem.stored
      { i with itemQty := q, uomCode := some p.uomCode, statusCode := status, versionNbr := i.versionNbr + 1 })
  else none

end Dmis
