import Dmis.Lib.Table
import Dmis.Lib.Lists
import Dmis.Lib.Outcome
import Dmis.Lib.Numeric

/-!
# The tables and what the database enforces

Rows carry the columns the packaging, dispatch and request routes read or write
(`app/db/models.py`), under the model's names. A transaction works on `Tables`, the session's view:
decimals as Python holds them. `commit` writes them back: every column is rounded to its scale and
the constraints of `DMIS_DATABASE_SCHEMA_2025-12-03_1525.sql` are checked, so a `Database` is
always consistent and a failed check leaves the old one.

| here | there |
| --- | --- |
| `Tables.rounded` | `numeric(15,4)` of `itembatch` and `reliefpkg_item`, `numeric(12,2)` of `inventory` and `reliefrqst_item` |
| `Tables.Consistent` | primary, foreign and `CHECK` constraints of the six tables |
| `commit` | `db.session.commit()`; an `IntegrityError` is `Err.integrityError` |
-/

namespace Dmis

open Relational Keyed

abbrev Day := Nat
abbrev Instant := Nat

/-! ## Codes -/

/-- `reliefrqst.status_code` (`relief_request_service.py:19-28`). -/
inductive RqstStatus where
  | draft | awaitingApproval | cancelled | submitted | denied | partFilled | closed | filled
  | ineligible
  deriving DecidableEq, Repr

def RqstStatus.code : RqstStatus → Nat
  | draft => 0 | awaitingApproval => 1 | cancelled => 2 | submitted => 3 | denied => 4
  | partFilled => 5 | closed => 6 | filled => 7 | ineligible => 8

/-- `reliefrqst_item.status_code`: R, U, W, D, P, L, F. -/
inductive ItemStatus where
  | requested | unavailable | waiting | denied | partlyFilled | limitAllowed | filled
  deriving DecidableEq, Repr

/-- `reliefpkg.status_code`: A, P, C, V, D, R (`c_reliefpkg_3`). -/
inductive PkgStatus where
  | draft | pending | completed | verified | dispatched | received
  deriving DecidableEq, Repr

/-- `status_code` of `itembatch` and `inventory`: A, U. -/
inductive StockStatus where
  | active | unavailable
  deriving DecidableEq, Repr

/-- `urgency_ind`: L, M, H, C. -/
inductive Urgency where
  | low | medium | high | critical
  deriving DecidableEq, Repr

/-! ## Rows -/

/-- `(item_id, inventory_id)`: the key of a warehouse total. `inventory_id` is the warehouse. -/
structure StockKey where
  itemId : Nat
  inventoryId : Nat
  deriving DecidableEq, Repr

/-- `(item_id, inventory_id, batch_id)`: the key of a batch-level reservation. -/
structure BatchKey where
  itemId : Nat
  inventoryId : Nat
  batchId : Nat
  deriving DecidableEq, Repr

def BatchKey.stock (k : BatchKey) : StockKey := ⟨k.itemId, k.inventoryId⟩

structure ItemBatch where
  batchId : Nat
  inventoryId : Nat
  itemId : Nat
  batchNo : String
  batchDate : Option Day
  expiryDate : Option Day
  usableQty : ℚ
  reservedQty : ℚ
  defectiveQty : ℚ
  expiredQty : ℚ
  uomCode : String
  sizeSpec : Option String
  statusCode : StockStatus
  deriving DecidableEq, Repr

structure Inventory where
  inventoryId : Nat
  itemId : Nat
  usableQty : ℚ
  reservedQty : ℚ
  defectiveQty : ℚ
  expiredQty : ℚ
  statusCode : StockStatus
  deriving DecidableEq, Repr

structure ReliefRqst where
  reliefrqstId : Nat
  agencyId : Nat
  eligibleEventId : Option Nat
  urgencyInd : Urgency
  rqstNotesText : Option String
  statusCode : RqstStatus
  statusReasonDesc : Option String
  createById : String
  reviewById : Option String
  actionById : Option String
  versionNbr : Nat
  deriving DecidableEq, Repr

structure ReliefRqstItem where
  reliefrqstId : Nat
  itemId : Nat
  requestQty : ℚ
  issueQty : ℚ
  urgencyInd : Urgency
  rqstReasonDesc : Option String
  requiredByDate : Option Day
  statusCode : ItemStatus
  statusReasonDesc : Option String
  actionById : Option String
  versionNbr : Nat
  deriving DecidableEq, Repr

structure ReliefPkg where
  reliefpkgId : Nat
  reliefrqstId : Nat
  agencyId : Nat
  statusCode : PkgStatus
  dispatchDtime : Option Instant
  createById : String
  updateById : String
  verifyById : Option String
  receivedById : Option String
  receivedDtime : Option Instant
  versionNbr : Nat
  deriving DecidableEq, Repr

structure ReliefPkgItem where
  reliefpkgId : Nat
  frInventoryId : Nat
  batchId : Nat
  itemId : Nat
  itemQty : ℚ
  uomCode : String
  deriving DecidableEq, Repr

def ItemBatch.key (b : ItemBatch) : BatchKey := ⟨b.itemId, b.inventoryId, b.batchId⟩
def Inventory.key (v : Inventory) : StockKey := ⟨v.itemId, v.inventoryId⟩
/-- The batch a package item takes from. -/
def ReliefPkgItem.batch (i : ReliefPkgItem) : BatchKey := ⟨i.itemId, i.frInventoryId, i.batchId⟩

/-- `uk_itembatch_inventory_batch_item`; the primary key `batch_id` is a constraint below. -/
instance : Keyed ItemBatch BatchKey := ⟨ItemBatch.key⟩
instance : Keyed Inventory StockKey := ⟨Inventory.key⟩
instance : Keyed ReliefRqst Nat := ⟨ReliefRqst.reliefrqstId⟩
instance : Keyed ReliefRqstItem (Nat × Nat) := ⟨fun i => (i.reliefrqstId, i.itemId)⟩
instance : Keyed ReliefPkg Nat := ⟨ReliefPkg.reliefpkgId⟩
instance : Keyed ReliefPkgItem (Nat × BatchKey) := ⟨fun i => (i.reliefpkgId, i.batch)⟩

/-- The session's view of the six tables, and the two identity sequences. -/
structure Tables where
  itembatch : Table ItemBatch
  inventory : Table Inventory
  reliefrqst : Table ReliefRqst
  reliefrqstItem : Table ReliefRqstItem
  reliefpkg : Table ReliefPkg
  reliefpkgItem : Table ReliefPkgItem
  nextReliefrqstId : Nat
  nextReliefpkgId : Nat
  deriving DecidableEq

/-! ## Scales -/

def ItemBatch.rounded (b : ItemBatch) : ItemBatch :=
  { b with
    usableQty := numeric 4 b.usableQty
    reservedQty := numeric 4 b.reservedQty
    defectiveQty := numeric 4 b.defectiveQty
    expiredQty := numeric 4 b.expiredQty }

def Inventory.rounded (v : Inventory) : Inventory :=
  { v with
    usableQty := numeric 2 v.usableQty
    reservedQty := numeric 2 v.reservedQty
    defectiveQty := numeric 2 v.defectiveQty
    expiredQty := numeric 2 v.expiredQty }

def ReliefRqstItem.rounded (i : ReliefRqstItem) : ReliefRqstItem :=
  { i with requestQty := numeric 2 i.requestQty, issueQty := numeric 2 i.issueQty }

def ReliefPkgItem.rounded (i : ReliefPkgItem) : ReliefPkgItem := { i with itemQty := numeric 4 i.itemQty }

theorem key_rounded_itembatch (b : ItemBatch) : key b.rounded = key b := rfl
theorem key_rounded_inventory (v : Inventory) : key v.rounded = key v := rfl
theorem key_rounded_rqstItem (i : ReliefRqstItem) : key i.rounded = key i := rfl
theorem key_rounded_pkgItem (i : ReliefPkgItem) : key i.rounded = key i := rfl

/-- What the columns hold after the session's rows were written. -/
def Tables.rounded (t : Tables) : Tables :=
  { t with
    itembatch := t.itembatch.mapRows ItemBatch.rounded key_rounded_itembatch
    inventory := t.inventory.mapRows Inventory.rounded key_rounded_inventory
    reliefrqstItem := t.reliefrqstItem.mapRows ReliefRqstItem.rounded key_rounded_rqstItem
    reliefpkgItem := t.reliefpkgItem.mapRows ReliefPkgItem.rounded key_rounded_pkgItem }

/-! ## Constraints -/

/-- `c_itembatch_2a`, `2b`, `2c`, `2d`. -/
def ItemBatch.Check (b : ItemBatch) : Prop :=
  0 ≤ b.usableQty ∧ (b.reservedQty ≤ b.usableQty ∧ 0 ≤ b.reservedQty) ∧ 0 ≤ b.defectiveQty ∧ 0 ≤ b.expiredQty

/-- `c_inventory_1` to `c_inventory_4`. -/
def Inventory.Check (v : Inventory) : Prop :=
  0 ≤ v.usableQty ∧ v.reservedQty ≤ v.usableQty ∧ 0 ≤ v.defectiveQty ∧ 0 ≤ v.expiredQty

/-- `c_reliefrqst_3`: a denied, closed or ineligible request carries a reason. -/
def ReliefRqst.C3 (r : ReliefRqst) : Prop :=
  r.statusReasonDesc.isSome ∨ r.statusCode ∉ [RqstStatus.denied, .closed, .ineligible]

/-- `c_reliefrqst_4a`: reviewed exactly from status 2 on. -/
def ReliefRqst.C4a (r : ReliefRqst) : Prop :=
  (r.reviewById = none ∧ r.statusCode.code < 2) ∨ (r.reviewById.isSome ∧ 2 ≤ r.statusCode.code)

/-- `c_reliefrqst_5a`: acted on exactly from status 4 on. -/
def ReliefRqst.C5a (r : ReliefRqst) : Prop :=
  (r.actionById = none ∧ r.statusCode.code < 4) ∨ (r.actionById.isSome ∧ 4 ≤ r.statusCode.code)

def ReliefRqst.Check (r : ReliefRqst) : Prop := r.C3 ∧ r.C4a ∧ r.C5a

/-- `c_reliefrqst_item_2a`. -/
def ReliefRqstItem.C2a (i : ReliefRqstItem) : Prop :=
  match i.statusCode with
  | .requested | .unavailable | .waiting | .denied => i.issueQty = 0
  | .partlyFilled | .limitAllowed => i.issueQty < i.requestQty
  | .filled => i.issueQty = i.requestQty

/-- `c_reliefrqst_item_1`, `2a`, `4`, `5`, `6b` and `7`. -/
def ReliefRqstItem.Check (i : ReliefRqstItem) : Prop :=
  0 < i.requestQty ∧ i.C2a ∧
  (i.urgencyInd = .high → ∃ s ∈ i.rqstReasonDesc, s.trimAscii.isEmpty = false) ∧
  (i.requiredByDate = none → i.urgencyInd = .low ∨ i.urgencyInd = .medium) ∧
  (i.statusReasonDesc = none → i.statusCode ≠ .denied ∧ i.statusCode ≠ .limitAllowed) ∧
  (i.actionById = none ↔ i.statusCode = .requested)

/-- `c_reliefpkg_2`: dispatched exactly when a dispatch time is set. -/
def ReliefPkg.Check (p : ReliefPkg) : Prop :=
  (p.dispatchDtime = none ∧ p.statusCode ≠ .dispatched) ∨ (p.dispatchDtime.isSome ∧ p.statusCode = .dispatched)

/-- `c_reliefpkg_item_1`. -/
def ReliefPkgItem.Check (i : ReliefPkgItem) : Prop := 0 ≤ i.itemQty

instance : DecidablePred ItemBatch.Check := fun b => by unfold ItemBatch.Check; infer_instance
instance : DecidablePred Inventory.Check := fun v => by unfold Inventory.Check; infer_instance
instance : DecidablePred ReliefRqst.C3 := fun r => by unfold ReliefRqst.C3; infer_instance
instance : DecidablePred ReliefRqst.C4a := fun r => by unfold ReliefRqst.C4a; infer_instance
instance : DecidablePred ReliefRqst.C5a := fun r => by unfold ReliefRqst.C5a; infer_instance
instance : DecidablePred ReliefRqst.Check := fun r => by unfold ReliefRqst.Check; infer_instance
instance : DecidablePred ReliefRqstItem.C2a := fun i => by
  unfold ReliefRqstItem.C2a; cases i.statusCode <;> infer_instance
instance : DecidablePred ReliefRqstItem.Check := fun i => by unfold ReliefRqstItem.Check; infer_instance
instance : DecidablePred ReliefPkg.Check := fun p => by unfold ReliefPkg.Check; infer_instance
instance : DecidablePred ReliefPkgItem.Check := fun i => by unfold ReliefPkgItem.Check; infer_instance

/-- What holds of every committed state. -/
structure Tables.Consistent (t : Tables) : Prop where
  /-- Every column holds a value of its scale. -/
  stored : t.rounded = t
  pkItembatch : (t.itembatch.rows.map (·.batchId)).Nodup
  batch : ∀ b ∈ t.itembatch.rows, b.Check
  inventory : ∀ v ∈ t.inventory.rows, v.Check
  rqst : ∀ r ∈ t.reliefrqst.rows, r.Check
  rqstItem : ∀ i ∈ t.reliefrqstItem.rows, i.Check
  pkg : ∀ p ∈ t.reliefpkg.rows, p.Check
  pkgItem : ∀ i ∈ t.reliefpkgItem.rows, i.Check
  /-- `reliefrqst_item.reliefrqst_id`. -/
  fkRqstItem : ∀ i ∈ t.reliefrqstItem.rows, i.reliefrqstId ∈ t.reliefrqst.keys
  /-- `reliefpkg.reliefrqst_id`. -/
  fkPkg : ∀ p ∈ t.reliefpkg.rows, p.reliefrqstId ∈ t.reliefrqst.keys
  /-- `fk_reliefpkg_item_reliefpkg`. -/
  fkPkgItem : ∀ i ∈ t.reliefpkgItem.rows, i.reliefpkgId ∈ t.reliefpkg.keys
  /-- `fk_reliefpkg_item_itembatch`. -/
  fkBatch : ∀ i ∈ t.reliefpkgItem.rows, i.batch ∈ t.itembatch.keys

instance (t : Tables) : Decidable t.Consistent :=
  decidable_of_iff
    (t.rounded = t ∧ (t.itembatch.rows.map (·.batchId)).Nodup ∧ (∀ b ∈ t.itembatch.rows, b.Check) ∧
      (∀ v ∈ t.inventory.rows, v.Check) ∧ (∀ r ∈ t.reliefrqst.rows, r.Check) ∧
      (∀ i ∈ t.reliefrqstItem.rows, i.Check) ∧ (∀ p ∈ t.reliefpkg.rows, p.Check) ∧
      (∀ i ∈ t.reliefpkgItem.rows, i.Check) ∧ (∀ i ∈ t.reliefrqstItem.rows, i.reliefrqstId ∈ t.reliefrqst.keys) ∧
      (∀ p ∈ t.reliefpkg.rows, p.reliefrqstId ∈ t.reliefrqst.keys) ∧
      (∀ i ∈ t.reliefpkgItem.rows, i.reliefpkgId ∈ t.reliefpkg.keys) ∧
      ∀ i ∈ t.reliefpkgItem.rows, i.batch ∈ t.itembatch.keys)
    ⟨fun ⟨a, b, c, d, e, f, g, h, i, j, k, l⟩ => ⟨a, b, c, d, e, f, g, h, i, j, k, l⟩,
      fun ⟨a, b, c, d, e, f, g, h, i, j, k, l⟩ => ⟨a, b, c, d, e, f, g, h, i, j, k, l⟩⟩

/-- A committed state. -/
structure Database where
  tables : Tables
  consistent : tables.Consistent

end Dmis
