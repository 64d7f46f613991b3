import Dmis.Schema
import Dmis.ParamValidation
import Dmis.Lib.Run

/-!
# Item maintenance

The four operations that store an item (`app/features/items.py`). An item is never deleted, only made inactive, with
"stock/transaction checks before inactivation" (`:9`): `inactivate_item` asks `check_item_can_be_inactivated`, which
sums the usable and the reserved quantity over the item's inventory rows.

| here | there |
| --- | --- |
| `validateItemCode` to `validateIssuanceOrder` | the validators (`:30-94`) |
| `checkItemCanBeInactivated`, `checkUniqueness` | `:96-157` |
| `createItem`, `editItem`, `inactivateItem`, `activateItem` | the POST routes (`:250-567`) |
| `Tables.Consistent`, `Fields.toItem` | the constraints and column types of `item` and `inventory` |

`edit_item` and `create_item` store the status of their form and ask nothing. A new item has no inventory rows; an
edited one may. Main theorem `no_stocked_item_inactive`: stock and inactivity stay apart in a run exactly when no
accepted edit of the run makes an item with stock inactive.
-/

namespace Dmis

open Relational Keyed Python

namespace ItemMaintenance

/-! ## Tables -/

/-- `item.status_code`: A, I. -/
inductive ItemState where
  | active | inactive
  deriving DecidableEq, Repr

structure Item where
  itemId : ℕ
  itemCode : String
  itemName : String
  skuCode : String
  categoryId : ℤ
  itemDesc : String
  /-- `none` is NaN, as which the driver writes an infinity. -/
  reorderQty : Option ℚ
  defaultUomCode : String
  unitsSizeVaryFlag : Bool
  usageDesc : Option String
  storageDesc : Option String
  isBatchedFlag : Bool
  canExpireFlag : Bool
  issuanceOrder : String
  commentsText : Option String
  statusCode : ItemState
  versionNbr : ℕ
  deriving DecidableEq, Repr

instance : Keyed Item ℕ := ⟨Item.itemId⟩

structure Tables where
  item : Table Item
  inventory : Table Inventory
  /-- The keys of `itemcatg` and `unitofmeasure`. -/
  categoryIds : List ℤ
  uomCodes : List String

structure Tables.Consistent (t : Tables) : Prop where
  /-- `uk_item_1`, `uk_item_2`, `uk_item_3`. -/
  code : (t.item.rows.map Item.itemCode).Nodup
  name : (t.item.rows.map Item.itemName).Nodup
  sku : (t.item.rows.map Item.skuCode).Nodup
  /-- `c_item_1d`; a NaN is greater than every number. -/
  reorder : ∀ i ∈ t.item.rows, ∀ q ∈ i.reorderQty, 0 < q
  fkCategory : ∀ i ∈ t.item.rows, i.categoryId ∈ t.categoryIds
  fkUom : ∀ i ∈ t.item.rows, i.defaultUomCode ∈ t.uomCodes
  /-- `fk_inventory_item`. -/
  fkInventory : ∀ v ∈ t.inventory.rows, v.itemId ∈ t.item.keys

instance (t : Tables) : Decidable t.Consistent :=
  decidable_of_iff
    ((t.item.rows.map Item.itemCode).Nodup ∧ (t.item.rows.map Item.itemName).Nodup ∧
      (t.item.rows.map Item.skuCode).Nodup ∧ (∀ i ∈ t.item.rows, ∀ q ∈ i.reorderQty, 0 < q) ∧
      (∀ i ∈ t.item.rows, i.categoryId ∈ t.categoryIds) ∧ (∀ i ∈ t.item.rows, i.defaultUomCode ∈ t.uomCodes) ∧
      ∀ v ∈ t.inventory.rows, v.itemId ∈ t.item.keys)
    ⟨fun ⟨a, b, c, d, e, f, g⟩ => ⟨a, b, c, d, e, f, g⟩, fun ⟨a, b, c, d, e, f, g⟩ => ⟨a, b, c, d, e, f, g⟩⟩

structure Database where
  tables : Tables
  consistent : tables.Consistent

/-- How a post ends that stores nothing. -/
inductive Refusal where
  | notFound
  /-- The messages shown. -/
  | flashed (messages : List String)
  /-- A constraint failed at the commit; the message depends on the driver's text. -/
  | integrityError
  /-- "An unexpected error occurred. Please try again or contact support." -/
  | unexpected
  deriving DecidableEq, Repr

structure Saved where
  db : Database
  itemId : ℕ
  message : String

/-- `failed` is how the route answers a failing commit. -/
def commit (failed : Refusal) (t : Tables) : Except Refusal Database :=
  if h : t.Consistent then .ok ⟨t, h⟩ else .error failed

/-! ## Forms -/

/-- The posted fields; `none` where the form has no such field. -/
structure ItemForm where
  itemCode : Option String
  itemName : Option String
  skuCode : Option String
  itemDesc : Option String
  reorderQty : Option String
  categoryId : Option String
  defaultUomCode : Option String
  unitsSizeVaryFlag : Option String
  usageDesc : Option String
  storageDesc : Option String
  isBatchedFlag : Option String
  canExpireFlag : Option String
  issuanceOrder : Option String
  commentsText : Option String
  statusCode : Option String
  versionNbr : Option String

/-- Upper case, as Python and as PostgreSQL have it. -/
structure Casing where
  upper : String → String
  sqlUpper : String → String

/-- The values of an accepted form. -/
structure Fields where
  itemCode : String
  itemName : String
  skuCode : String
  itemDesc : String
  reorderQty : PyDecimal
  categoryId : ℤ
  defaultUomCode : String
  unitsSizeVaryFlag : Bool
  usageDesc : Option String
  storageDesc : Option String
  isBatchedFlag : Bool
  canExpireFlag : Bool
  issuanceOrder : String
  commentsText : Option String
  statusCode : ItemState
  deriving DecidableEq, Repr

def flash {α : Type} (message : String) : Except Refusal α := .error (.flashed [message])

/-- `request.form.get(name, type=int)`. -/
def intField (text : Option String) : Option ℤ := text.bind fun s => intOf? s.toList

/-- `(text or '').strip() or None`. -/
def optionalText (text : Option String) : Option String :=
  if stripped (text.getD "") = "" then none else some (stripped (text.getD ""))

/-- The common part of the three text validators. -/
def validateText (upper : String → String) (label : String) (limit : ℕ) (text : String) : Except Refusal String :=
  if stripped text = "" then flash (label ++ " is required")
  else if limit < (upper (stripped text)).length then
    flash (label ++ " must not exceed " ++ toString limit ++ " characters")
  else .ok (upper (stripped text))

def isCodeChar (c : Char) : Bool := c.isUpper || c.isDigit || c ∈ ['-', '_', '.']

def validateItemCode (upper : String → String) (itemCode : String) : Except Refusal String := do
  let itemCode ← validateText upper "Item Code" 16 itemCode
  if itemCode.toList.all isCodeChar then pure itemCode
  else flash "Item Code must contain only letters, numbers, hyphens, underscores, and dots"

def validateItemName (upper : String → String) : String → Except Refusal String := validateText upper "Item Name" 60

def validateSkuCode (upper : String → String) : String → Except Refusal String := validateText upper "SKU Code" 30

/-- The conversion is guarded; the comparison, which raises for a NaN, is not. -/
def validateReorderQty (text : String) : Except Refusal PyDecimal :=
  if stripped text = "" then flash "Reorder Quantity is required"
  else
    match ParamValidation.decimal? text.toList with
    | none => flash "Reorder Quantity must be a valid number"
    | some qty =>
      match (PyDecimal.finite 0).lt qty with
      | .error _ => .error .unexpected
      | .ok false => flash "Reorder Quantity must be greater than zero"
      | .ok true => .ok qty

def validateIssuanceOrder (issuanceOrder : String) : Except Refusal Unit :=
  check (issuanceOrder ∈ ["FIFO", "FEFO", "LIFO"]) (.flashed ["Issuance Order must be one of: FIFO, FEFO, LIFO"])

def validateComments (comments : Option String) : Except Refusal Unit :=
  check (∀ text ∈ comments, text.length ≤ 300) (.flashed ["Comments must not exceed 300 characters"])

/-- `'A'` for everything else. -/
def stateOf (statusCode : Option String) : ItemState := if statusCode = some "I" then .inactive else .active

/-- The fields in the order in which both routes check them. -/
def validateForm (casing : Casing) (form : ItemForm) : Except Refusal Fields := do
  let itemCode ← validateItemCode casing.upper (form.itemCode.getD "")
  let itemName ← validateItemName casing.upper (form.itemName.getD "")
  let skuCode ← validateSkuCode casing.upper (form.skuCode.getD "")
  let reorderQty ← validateReorderQty (form.reorderQty.getD "")
  check (stripped (form.itemDesc.getD "") ≠ "") (.flashed ["Item Description is required"])
  check ((intField form.categoryId).getD 0 ≠ 0) (.flashed ["Category is required"])
  check (stripped (form.defaultUomCode.getD "") ≠ "") (.flashed ["Default Unit of Measure is required"])
  validateIssuanceOrder (form.issuanceOrder.getD "FIFO")
  validateComments (optionalText form.commentsText)
  pure
    { itemCode := itemCode
      itemName := itemName
      skuCode := skuCode
      itemDesc := stripped (form.itemDesc.getD "")
      reorderQty := reorderQty
      categoryId := (intField form.categoryId).getD 0
      defaultUomCode := stripped (form.defaultUomCode.getD "")
      unitsSizeVaryFlag := form.unitsSizeVaryFlag = some "on"
      usageDesc := optionalText form.usageDesc
      storageDesc := optionalText form.storageDesc
      isBatchedFlag := form.isBatchedFlag = some "on"
      canExpireFlag := form.canExpireFlag = some "on"
      issuanceOrder := form.issuanceOrder.getD "FIFO"
      commentsText := optionalText form.commentsText
      statusCode := stateOf form.statusCode }

/-! ## Stock -/

/-- The sum of a column over the inventory rows of the item, in every warehouse. -/
def Tables.total (t : Tables) (column : Inventory → ℚ) (itemId : ℕ) : ℚ :=
  t.inventory.sum (fun v => v.itemId = itemId) column

/-- A quantity of a `numeric(12,2)` column as a message shows it. -/
def qtyText (q : ℚ) : String :=
  let cents := (q * 100).num.natAbs
  toString (cents / 100) ++ "." ++ toString (cents % 100 / 10) ++ toString (cents % 10)

def checkItemCanBeInactivated (t : Tables) (itemId : ℕ) : Bool × String :=
  if 0 < t.total Inventory.usableQty itemId then
    (false, "This item cannot be inactivated because it has " ++ qtyText (t.total Inventory.usableQty itemId) ++
      " units of stock on hand")
  else if 0 < t.total Inventory.reservedQty itemId then
    (false, "This item cannot be inactivated because it has " ++ qtyText (t.total Inventory.reservedQty itemId) ++
      " units reserved")
  else (true, "Item can be inactivated")

/-- `itemId` is the item that is edited; an id of 0 excludes nothing. -/
def checkUniqueness (t : Tables) (itemId : Option ℕ) (itemCode itemName skuCode : String) : List String :=
  let others := t.item.rows.filter fun i => itemId = none ∨ itemId = some 0 ∨ itemId ≠ some i.itemId
  let taken (label value : String) (column : Item → String) : List String :=
    if others.any fun i => column i = value then [label ++ " \"" ++ value ++ "\" is already in use"] else []
  taken "Item Code" itemCode Item.itemCode ++ taken "Item Name" itemName Item.itemName ++
    taken "SKU Code" skuCode Item.skuCode

/-! ## The routes -/

def Fields.texts (d : Fields) : List String :=
  [d.itemCode, d.itemName, d.skuCode, d.itemDesc, d.defaultUomCode, d.issuanceOrder] ++ d.usageDesc.toList ++
    d.storageDesc.toList ++ d.commentsText.toList

/-- The value the column `numeric(12,2)` takes. -/
def reorderColumn : PyDecimal → Except Refusal (Option ℚ)
  | .finite q => if |numeric 2 q| < 10 ^ 10 then .ok (some (numeric 2 q)) else .error .unexpected
  | _ => .ok none

/-- What the driver and the columns make of the values: no NUL, both numbers in range, `c_item_1a` to `c_item_1c`. -/
def Fields.toItem (casing : Casing) (itemId versionNbr : ℕ) (d : Fields) : Except Refusal Item := do
  check (∀ text ∈ d.texts, '\x00' ∉ text.toList)
    (.flashed ["A string literal cannot contain NUL (0x00) characters."])
  let reorderQty ← reorderColumn d.reorderQty
  check (-2 ^ 31 ≤ d.categoryId ∧ d.categoryId < 2 ^ 31) .unexpected
  check (∀ text ∈ [d.itemCode, d.itemName, d.skuCode], casing.sqlUpper text = text) .integrityError
  pure
    { itemId := itemId
      itemCode := d.itemCode
      itemName := d.itemName
      skuCode := d.skuCode
      categoryId := d.categoryId
      itemDesc := d.itemDesc
      reorderQty := reorderQty
      defaultUomCode := d.defaultUomCode
      unitsSizeVaryFlag := d.unitsSizeVaryFlag
      usageDesc := d.usageDesc
      storageDesc := d.storageDesc
      isBatchedFlag := d.isBatchedFlag
      canExpireFlag := d.canExpireFlag
      issuanceOrder := d.issuanceOrder
      commentsText := d.commentsText
      statusCode := d.statusCode
      versionNbr := versionNbr }

/-- SQLAlchemy counts the version. -/
def Item.setStatus (i : Item) (statusCode : ItemState) : Item :=
  { i with statusCode := statusCode, versionNbr := i.versionNbr + 1 }

def Tables.setItem (t : Tables) (i : Item) : Tables := { t with item := t.item.set i }

/-- `newId` is what the identity column generates. -/
def createItem (casing : Casing) (db : Database) (newId : ℕ) (form : ItemForm) : Except Refusal Saved := do
  let d ← validateForm casing form
  let errors := checkUniqueness db.tables none d.itemCode d.itemName d.skuCode
  check (errors = []) (.flashed errors)
  let i ← d.toItem casing newId 1
  let items ← require (db.tables.item.insert i) .integrityError
  let db' ← commit .integrityError { db.tables with item := items }
  pure ⟨db', newId, "Item \"" ++ i.itemName ++ "\" created successfully"⟩

def modifiedMessage : String := "This item was modified by another user. Please refresh and try again."

def editItem (casing : Casing) (db : Database) (itemId : ℕ) (form : ItemForm) : Except Refusal Saved := do
  let item ← require (db.tables.item.get? itemId) .notFound
  check (intField form.versionNbr = some (item.versionNbr : ℤ)) (.flashed [modifiedMessage])
  let d ← validateForm casing form
  let errors := checkUniqueness db.tables (some itemId) d.itemCode d.itemName d.skuCode
  check (errors = []) (.flashed errors)
  let i ← d.toItem casing itemId (item.versionNbr + 1)
  let db' ← commit .integrityError (db.tables.setItem i)
  pure ⟨db', itemId, "Item \"" ++ i.itemName ++ "\" updated successfully"⟩

def inactivateItem (db : Database) (itemId : ℕ) : Except Refusal Saved := do
  let item ← require (db.tables.item.get? itemId) .notFound
  check (item.statusCode ≠ .inactive) (.flashed ["Item \"" ++ item.itemName ++ "\" is already inactive"])
  let (canInactivate, message) := checkItemCanBeInactivated db.tables itemId
  check (canInactivate = true) (.flashed [message])
  let db' ← commit .unexpected (db.tables.setItem (item.setStatus .inactive))
  pure ⟨db', itemId, "Item \"" ++ item.itemName ++ "\" has been inactivated"⟩

def activateItem (db : Database) (itemId : ℕ) : Except Refusal Saved := do
  let item ← require (db.tables.item.get? itemId) .notFound
  check (item.statusCode ≠ .active) (.flashed ["Item \"" ++ item.itemName ++ "\" is already active"])
  let db' ← commit .unexpected (db.tables.setItem (item.setStatus .active))
  pure ⟨db', itemId, "Item \"" ++ item.itemName ++ "\" has been reactivated"⟩

inductive Op where
  | create (newId : ℕ) (form : ItemForm)
  | edit (itemId : ℕ) (form : ItemForm)
  | inactivate (itemId : ℕ)
  | activate (itemId : ℕ)

def perform (casing : Casing) (db : Database) : Op → Except Refusal Saved
  | .create newId form => createItem casing db newId form
  | .edit itemId form => editItem casing db itemId form
  | .inactivate itemId => inactivateItem db itemId
  | .activate itemId => activateItem db itemId

/-- A refused post leaves the database as it was. -/
def step (casing : Casing) (db : Database) (op : Op) : Database :=
  match perform casing db op with
  | .ok saved => saved.db
  | .error _ => db

/-! ## The property -/

def Stocked (t : Tables) (itemId : ℕ) : Prop :=
  0 < t.total Inventory.usableQty itemId ∨ 0 < t.total Inventory.reservedQty itemId

instance (t : Tables) (itemId : ℕ) : Decidable (Stocked t itemId) := by unfold Stocked; infer_instance

/-- No inactive item has a positive total. -/
def NoStockedInactive (t : Tables) : Prop :=
  ∀ i ∈ t.item.rows, i.statusCode = .inactive → ¬ Stocked t i.itemId

instance (t : Tables) : Decidable (NoStockedInactive t) := by unfold NoStockedInactive; infer_instance

/-- The operation sets status 'I' on the item. -/
def SetsInactive (casing : Casing) (db : Database) (op : Op) (itemId : ℕ) : Prop :=
  ∃ saved, perform casing db op = .ok saved ∧ saved.itemId = itemId ∧
    ∃ i, saved.db.tables.item.get? itemId = some i ∧ i.statusCode = .inactive

/-- What the run keeps apart. -/
structure KeptApart (casing : Casing) (db : Database) (ops : List Op) : Prop where
  /-- In every state reached. -/
  states : ∀ pre, pre <+: ops → NoStockedInactive (run (step casing) db pre).tables
  /-- Whatever is made inactive, the check would have allowed. -/
  allowed : ∀ pre op post, ops = pre ++ op :: post → ∀ itemId,
    SetsInactive casing (run (step casing) db pre) op itemId →
    (checkItemCanBeInactivated (run (step casing) db pre).tables itemId).1 = true

/-- The form of an edit passes the version check, the validators, the uniqueness check and the constraints. -/
def EditAccepted (casing : Casing) (t : Tables) (itemId : ℕ) (form : ItemForm) : Prop :=
  ∃ item, t.item.get? itemId = some item ∧ intField form.versionNbr = some (item.versionNbr : ℤ) ∧
    ∃ d, validateForm casing form = .ok d ∧
      checkUniqueness t (some itemId) d.itemCode d.itemName d.skuCode = [] ∧
      ∃ i, d.toItem casing itemId (item.versionNbr + 1) = .ok i ∧ (t.setItem i).Consistent

/-- An accepted edit with status 'I' of an item with stock. -/
def EditsAway (casing : Casing) (db : Database) (op : Op) : Prop :=
  ∃ itemId form, op = .edit itemId form ∧ EditAccepted casing db.tables itemId form ∧
    stateOf form.statusCode = .inactive ∧ Stocked db.tables itemId

/-! ## What one operation does -/

/-- One item is written, and nothing else. -/
structure Stores (db db' : Database) (i : Item) : Prop where
  get? : ∀ k, db'.tables.item.get? k = if k = i.itemId then some i else db.tables.item.get? k
  inventory : db'.tables.inventory = db.tables.inventory

theorem commit_ok {failed : Refusal} {t : Tables} {db : Database} :
    commit failed t = .ok db ↔ db.tables = t ∧ t.Consistent := by
  unfold commit
  split
  · rename_i h
    constructor
    · rintro ⟨⟩
      exact ⟨rfl, h⟩
    · rintro ⟨rfl, -⟩
      rfl
  · rename_i h
    simp [h]

theorem checkItemCanBeInactivated_iff {t : Tables} {itemId : ℕ} :
    (checkItemCanBeInactivated t itemId).1 = true ↔ ¬ Stocked t itemId := by
  unfold checkItemCanBeInactivated Stocked
  split
  · simp_all
  · split <;> simp_all

theorem validateForm_state {casing : Casing} {form : ItemForm} {d : Fields} (h : validateForm casing form = .ok d) :
    d.statusCode = stateOf form.statusCode := by
  simp only [validateForm, bind_ok, pure_ok] at h
  obtain ⟨-, -, -, -, -, -, -, -, -, -, -, -, -, -, -, -, -, -, rfl⟩ := h
  rfl

theorem toItem_spec {casing : Casing} {itemId versionNbr : ℕ} {d : Fields} {i : Item}
    (h : d.toItem casing itemId versionNbr = .ok i) : i.itemId = itemId ∧ i.statusCode = d.statusCode := by
  simp only [Fields.toItem, bind_ok, pure_ok] at h
  obtain ⟨-, -, -, -, -, -, -, -, rfl⟩ := h
  exact ⟨rfl, rfl⟩

/-- A commit of an existing item that was changed. -/
theorem stores_setItem {failed : Refusal} {db db' : Database} {i old : Item}
    (h : commit failed (db.tables.setItem i) = .ok db') (hold : db.tables.item.get? i.itemId = some old) :
    Stores db db' i := by
  obtain ⟨ht, -⟩ := commit_ok.1 h
  refine ⟨fun k => ?_, by rw [ht]; rfl⟩
  rw [ht]
  by_cases hk : k = i.itemId
  · subst hk
    rw [if_pos rfl]
    exact Table.get?_set_of_get? hold rfl
  · rw [if_neg hk]
    exact Table.get?_set_of_ne fun he => hk he.symm

theorem Stores.stocked {db db' : Database} {i : Item} (h : Stores db db' i) (itemId : ℕ) :
    Stocked db'.tables itemId ↔ Stocked db.tables itemId := by
  unfold Stocked Tables.total
  rw [h.inventory]

theorem Stores.self {db db' : Database} {i : Item} (h : Stores db db' i) :
    db'.tables.item.get? i.itemId = some i := by
  rw [h.get?, if_pos rfl]

/-- An id the table does not have has no inventory rows. -/
theorem not_stocked_of_new {db : Database} {itemId : ℕ} (h : itemId ∉ db.tables.item.keys) :
    ¬ Stocked db.tables itemId := by
  have hnone : (db.tables.inventory.rows.filter fun v => decide (v.itemId = itemId)) = [] := by
    rw [List.filter_eq_nil_iff]
    intro v hv he
    rw [decide_eq_true_eq] at he
    exact h (he ▸ db.consistent.fkInventory v hv)
  have hzero : ∀ column : Inventory → ℚ, db.tables.total column itemId = 0 := by
    intro column
    unfold Tables.total Table.sum Table.select
    rw [hnone]
    rfl
  rintro (hu | hr)
  · rw [hzero] at hu
    exact lt_irrefl _ hu
  · rw [hzero] at hr
    exact lt_irrefl _ hr

theorem createItem_ok {casing : Casing} {db : Database} {newId : ℕ} {form : ItemForm} {saved : Saved}
    (h : createItem casing db newId form = .ok saved) :
    ∃ i, i.itemId = newId ∧ saved.itemId = newId ∧ Stores db saved.db i ∧ ¬ Stocked db.tables newId := by
  simp only [createItem, bind_ok, pure_ok, require_ok] at h
  obtain ⟨d, -, -, -, i, hi, items, hitems, db', hdb, rfl⟩ := h
  obtain ⟨hid, -⟩ := toItem_spec hi
  obtain ⟨ht, -⟩ := commit_ok.1 hdb
  refine ⟨i, hid, rfl, ⟨fun k => ?_, by rw [ht]⟩, not_stocked_of_new ?_⟩
  · rw [ht, Table.get?_insert hitems]
    exact if_congr eq_comm rfl rfl
  · rw [← hid]
    exact (Table.insert_eq_some.1 hitems).1

theorem editItem_ok {casing : Casing} {db : Database} {itemId : ℕ} {form : ItemForm} {saved : Saved}
    (h : editItem casing db itemId form = .ok saved) :
    ∃ i, i.itemId = itemId ∧ saved.itemId = itemId ∧ i.statusCode = stateOf form.statusCode ∧ Stores db saved.db i ∧
      EditAccepted casing db.tables itemId form := by
  simp only [editItem, bind_ok, pure_ok, require_ok, check_ok] at h
  obtain ⟨item, hitem, -, hv, d, hd, -, hu, i, hi, db', hdb, rfl⟩ := h
  obtain ⟨hid, hst⟩ := toItem_spec hi
  refine ⟨i, hid, rfl, by rw [hst, validateForm_state hd], stores_setItem hdb (by rw [hid, hitem]), ?_⟩
  exact ⟨item, hitem, hv, d, hd, hu, i, hi, (commit_ok.1 hdb).2⟩

/-- An accepted edit is stored. -/
theorem editItem_of_accepted {casing : Casing} {db : Database} {itemId : ℕ} {form : ItemForm}
    (h : EditAccepted casing db.tables itemId form) : ∃ saved, editItem casing db itemId form = .ok saved := by
  obtain ⟨item, hitem, hv, d, hd, hu, i, hi, hcons⟩ := h
  simp only [editItem, bind_ok, pure_ok, require_ok, check_ok]
  exact ⟨_, item, hitem, (), hv, d, hd, (), hu, i, hi, ⟨_, hcons⟩, commit_ok.2 ⟨rfl, hcons⟩, rfl⟩

/-- `inactivate_item` asks first. -/
theorem inactivateItem_ok {db : Database} {itemId : ℕ} {saved : Saved} (h : inactivateItem db itemId = .ok saved) :
    ∃ i, i.itemId = itemId ∧ saved.itemId = itemId ∧ Stores db saved.db i ∧ ¬ Stocked db.tables itemId := by
  simp only [inactivateItem, bind_ok, pure_ok, require_ok, check_ok] at h
  obtain ⟨item, hitem, -, -, -, hcheck, db', hdb, rfl⟩ := h
  have hid : (item.setStatus .inactive).itemId = itemId := Table.key_of_get? hitem
  exact ⟨_, hid, rfl, stores_setItem hdb (by rw [hid, hitem]), checkItemCanBeInactivated_iff.1 hcheck⟩

theorem activateItem_ok {db : Database} {itemId : ℕ} {saved : Saved} (h : activateItem db itemId = .ok saved) :
    ∃ i, i.itemId = itemId ∧ saved.itemId = itemId ∧ i.statusCode = .active ∧ Stores db saved.db i := by
  simp only [activateItem, bind_ok, pure_ok, require_ok, check_ok] at h
  obtain ⟨item, hitem, -, -, db', hdb, rfl⟩ := h
  have hid : (item.setStatus .active).itemId = itemId := Table.key_of_get? hitem
  exact ⟨_, hid, rfl, rfl, stores_setItem hdb (by rw [hid, hitem])⟩

/-- **What an operation can do**: it stores one item, and an item with stock becomes inactive through an edit only. -/
theorem perform_ok {casing : Casing} {db : Database} {op : Op} {saved : Saved} (h : perform casing db op = .ok saved) :
    ∃ i, saved.itemId = i.itemId ∧ Stores db saved.db i ∧
      (i.statusCode = .inactive → Stocked db.tables i.itemId → EditsAway casing db op) := by
  cases op with
  | create newId form =>
    obtain ⟨i, rfl, hsaved, hstores, hnot⟩ := createItem_ok h
    exact ⟨i, hsaved, hstores, fun _ hs => absurd hs hnot⟩
  | edit itemId form =>
    obtain ⟨i, rfl, hsaved, hst, hstores, hacc⟩ := editItem_ok h
    exact ⟨i, hsaved, hstores, fun hi hs => ⟨_, form, rfl, hacc, hst ▸ hi, hs⟩⟩
  | inactivate itemId =>
    obtain ⟨i, rfl, hsaved, hstores, hnot⟩ := inactivateItem_ok h
    exact ⟨i, hsaved, hstores, fun _ hs => absurd hs hnot⟩
  | activate itemId =>
    obtain ⟨i, rfl, hsaved, hst, hstores⟩ := activateItem_ok h
    exact ⟨i, hsaved, hstores, fun hi _ => absurd (hst.symm.trans hi) (by decide)⟩

/-! ## Steps and runs -/

section
variable {casing : Casing} {db : Database} {op : Op}

theorem step_keeps (h : NoStockedInactive db.tables) (hop : ¬ EditsAway casing db op) :
    NoStockedInactive (step casing db op).tables := by
  unfold step
  split
  · rename_i saved hp
    obtain ⟨i, -, hstores, hi⟩ := perform_ok hp
    intro j hj hinactive
    rw [hstores.stocked]
    have hget := hstores.get? j.itemId
    rw [show saved.db.tables.item.get? j.itemId = some j from Table.get?_key hj] at hget
    split at hget
    · rename_i hji
      cases hget
      exact fun hs => hop (hi hinactive hs)
    · exact h j (Table.mem_of_get? hget.symm) hinactive
  · exact h

theorem allowed_of_not_editsAway (hop : ¬ EditsAway casing db op) {itemId : ℕ} (h : SetsInactive casing db op itemId) :
    (checkItemCanBeInactivated db.tables itemId).1 = true := by
  obtain ⟨saved, hp, rfl, j, hj, hinactive⟩ := h
  obtain ⟨i, hid, hstores, hi⟩ := perform_ok hp
  rw [hid, hstores.self] at hj
  cases hj
  rw [checkItemCanBeInactivated_iff, hid]
  exact fun hs => hop (hi hinactive hs)

/-- After such an edit the item is inactive, and its stock is where it was. -/
theorem step_breaks (hop : EditsAway casing db op) : ¬ NoStockedInactive (step casing db op).tables := by
  obtain ⟨itemId, form, rfl, hacc, hinactive, hs⟩ := hop
  obtain ⟨saved, hp⟩ := editItem_of_accepted hacc
  obtain ⟨i, rfl, -, hst, hstores, -⟩ := editItem_ok hp
  have hstep : step casing db (.edit i.itemId form) = saved.db := by
    simp only [step, perform, hp]
  rw [hstep]
  intro h
  exact h i (Table.mem_of_get? hstores.self) (hst.trans hinactive) ((hstores.stocked _).2 hs)

end

/-- **An item with stock stays active** in every run, and the check allows every inactivation, exactly when no accepted
edit of the run carries status 'I' for an item with stock. -/
theorem no_stocked_item_inactive (casing : Casing) (db : Database) (h : NoStockedInactive db.tables) (ops : List Op) :
    KeptApart casing db ops ↔ Along (step casing) (fun s op => ¬ EditsAway casing s op) db ops := by
  have hinv : ∀ s op, NoStockedInactive s.tables → ¬ EditsAway casing s op →
      NoStockedInactive (step casing s op).tables := fun s op hs hop => step_keeps hs hop
  constructor
  · intro hk
    rw [along_iff]
    rintro pre op post rfl hop
    have hafter := hk.states (pre ++ [op]) ⟨post, by simp⟩
    rw [run_snoc] at hafter
    exact step_breaks hop hafter
  · intro ha
    refine ⟨?_, fun pre op post he itemId hset => ?_⟩
    · rintro pre ⟨post, rfl⟩
      exact Along.invariant (I := fun s => NoStockedInactive s.tables) hinv h (Along.append.1 ha).1
    · subst he
      exact allowed_of_not_editsAway (ha.after pre) hset

/-! ## Blankets, tents and a lamp -/

namespace ItemSite

def casing : Casing := ⟨String.toUpper, String.toUpper⟩

def blanket : Item :=
  { itemId := 7, itemCode := "BLKT", itemName := "BLANKET", skuCode := "SKU-7", categoryId := 1
    itemDesc := "Blanket, woollen", reorderQty := some 20, defaultUomCode := "EA", unitsSizeVaryFlag := false
    usageDesc := none, storageDesc := none, isBatchedFlag := true, canExpireFlag := false, issuanceOrder := "FIFO"
    commentsText := none, statusCode := .active, versionNbr := 1 }

def tent : Item :=
  { blanket with itemId := 8, itemCode := "TENT", itemName := "TENT", skuCode := "SKU-8", itemDesc := "Tent" }

def lamp : Item :=
  { blanket with itemId := 9, itemCode := "LAMP", itemName := "LAMP", skuCode := "SKU-9", itemDesc := "Lamp" }

/-- Ten blankets in one warehouse and two in another; no tents. -/
def db : Database where
  tables :=
    { item := ⟨[blanket, tent], by decide⟩
      inventory := ⟨[⟨1, 7, 10, 0, 0, 0, .active⟩, ⟨2, 7, 2, 1, 0, 0, .active⟩, ⟨1, 8, 0, 0, 0, 0, .active⟩], by decide⟩
      categoryIds := [1]
      uomCodes := ["EA"] }
  consistent := by decide +kernel

/-- The form of the edit page, filled from the row. -/
def form (i : Item) (statusCode : String) : ItemForm :=
  { itemCode := some i.itemCode, itemName := some i.itemName, skuCode := some i.skuCode, itemDesc := some i.itemDesc
    reorderQty := some "20.00", categoryId := some "1", defaultUomCode := some i.defaultUomCode
    unitsSizeVaryFlag := none, usageDesc := some "", storageDesc := some "", isBatchedFlag := some "on"
    canExpireFlag := none, issuanceOrder := some i.issuanceOrder, commentsText := some "", statusCode := some statusCode
    versionNbr := some (toString i.versionNbr) }

end ItemSite

/-- Blankets refused at `inactivate_item` and edited as they are, tents made inactive by it and by an edit, and a lamp
that is inactive from the start. -/
theorem no_stocked_item_inactive_site :
    KeptApart ItemSite.casing ItemSite.db
      [.inactivate 7, .edit 7 (ItemSite.form ItemSite.blanket "A"), .inactivate 8, .activate 8,
        .edit 8 (ItemSite.form { ItemSite.tent with versionNbr := 3 } "I"),
        .create 9 (ItemSite.form ItemSite.lamp "I")] := by
  refine (no_stocked_item_inactive ItemSite.casing ItemSite.db (by decide +kernel) _).2
    ⟨?_, ?_, ?_, ?_, ?_, ?_, trivial⟩
  · rintro ⟨_, _, ⟨⟩, -⟩
  · rintro ⟨_, _, ⟨⟩, -, hstate, -⟩
    exact absurd hstate (by decide)
  · rintro ⟨_, _, ⟨⟩, -⟩
  · rintro ⟨_, _, ⟨⟩, -⟩
  · rintro ⟨_, _, ⟨⟩, -, -, hs⟩
    exact absurd hs (by decide +kernel)
  · rintro ⟨_, _, ⟨⟩, -⟩

/-- Twelve blankets are on hand when the edit page makes the item inactive; `inactivate_item` would have refused. -/
theorem edit_inactivates_stocked_item :
    NoStockedInactive ItemSite.db.tables ∧
      error? (inactivateItem ItemSite.db 7) =
        some (.flashed ["This item cannot be inactivated because it has 12.00 units of stock on hand"]) ∧
      ¬ KeptApart ItemSite.casing ItemSite.db [.edit 7 (ItemSite.form ItemSite.blanket "I")] := by
  refine ⟨by decide +kernel, by decide +kernel, fun h => ?_⟩
  have hafter := h.states _ List.prefix_rfl
  revert hafter
  decide +kernel

end ItemMaintenance

end Dmis
