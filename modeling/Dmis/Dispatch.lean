import Dmis.Packaging

/-!
# Workflow C

`app/services/dispatch_service.py` and its route (`packaging.py:766-906`): the Logistics Manager
dispatches a package with a plan of the client's, or with the saved rows. The officer's
reservations are undone, the rows overwritten with the plan, and the plan's stock taken out.

| here | there |
| --- | --- |
| `undoLoReservations` | `_undo_lo_reservations` (`:203-271`) |
| `overwritePackageItems` | `_overwrite_package_items` (`:274-338`) |
| `depleteUsableStock` | `_deplete_usable_stock` (`:341-429`) |
| `updateDispatchRecords` | `_update_dispatch_records` (`:432-483`) |
| `buildLmPlanFromForm`, `buildLmPlanFromPkgItems` | `:486-550` |
| `workflowC`, `submitForDispatch` | `submit_for_dispatch`, the service (`:51-162`) and the route |
-/

namespace Dmis

open Relational Keyed

/-! ## Plans -/

/-- An entry of `LM_PLAN`. -/
structure PlanEntry where
  frInventoryId : Nat
  batchId : Nat
  itemId : Nat
  lmQty : ℚ
  uomCode : String
  deriving DecidableEq, Repr

def PlanEntry.batch (e : PlanEntry) : BatchKey := ⟨e.itemId, e.frInventoryId, e.batchId⟩

/-- An entry of `allocations_json`. An id is `none` when `int(…)` raises or no row can have it; a
missing or falsy quantity is `none`. -/
structure JsonEntry where
  frInventoryId : Option Nat
  batchId : Option Nat
  itemId : Option Nat
  quantity : Option PyDecimal
  uomCode : String
  deriving DecidableEq, Repr

/-- The posted plan: none, text that is no plan, or a list of entries. -/
inductive PlanField where
  | absent
  | malformed
  | entries (es : List JsonEntry)
  deriving DecidableEq, Repr

/-- `build_lm_plan_from_form`: only positive quantities are kept. An infinite one cannot be stored; a text that
is no number raises in `Decimal`, as a NaN does in the comparison. -/
def buildLmPlanFromForm : List JsonEntry → Except Err (List PlanEntry)
  | [] => .ok []
  | e :: es =>
    match e.quantity with
    | none => buildLmPlanFromForm es
    | some .nan | some (.infinity false) => .error .notANumber
    | some (.infinity true) => buildLmPlanFromForm es
    | some (.finite q) =>
      if 0 < q then do
        let inv ← require e.frInventoryId .notFound
        let batch ← require e.batchId .notFound
        let item ← require e.itemId .notFound
        let plan ← buildLmPlanFromForm es
        pure (⟨inv, batch, item, q, e.uomCode⟩ :: plan)
      else buildLmPlanFromForm es

/-- `build_lm_plan_from_pkg_items`. -/
def buildLmPlanFromPkgItems (pkgId : Nat) (t : Tables) : List PlanEntry :=
  (t.positiveItems pkgId).map fun i => ⟨i.frInventoryId, i.batchId, i.itemId, i.itemQty, i.uomCode⟩

/-! ## The steps -/

/-- `inventory_totals`: the warehouses in the order they were met, each with its sum. -/
def inventoryTotals {α : Type} (batch : α → BatchKey) (qty : α → ℚ) (as : List α) : List (StockKey × ℚ) :=
  (affectedInventory (as.map batch)).map fun s => (s, ((as.filter fun a => (batch a).stock = s).map qty).sum)

def undoBatch (i : ReliefPkgItem) : Option ItemBatch → Except Err (Option ItemBatch)
  | none => .error (.batchMissing i.batch)
  | some b =>
    if b.reservedQty < i.itemQty then .error (.inconsistentReservation i.batch b.reservedQty i.itemQty)
    else .ok (some { b with reservedQty := b.reservedQty - i.itemQty })

def undoTotal (e : StockKey × ℚ) : Option Inventory → Except Err (Option Inventory)
  | none => .error (.inventoryMissing e.1)
  | some v =>
    if v.reservedQty < e.2 then .error (.inconsistentInventory e.1 v.reservedQty e.2)
    else .ok (some { v with reservedQty := v.reservedQty - e.2 })

def undoLoReservations (lo : List ReliefPkgItem) (t : Tables) : Except Err Tables := do
  let lo := lo.filter (0 < ·.itemQty)
  let batches ← Table.forRows ReliefPkgItem.batch undoBatch lo t.itembatch
  let totals ← Table.forRows Prod.fst undoTotal
    (inventoryTotals ReliefPkgItem.batch ReliefPkgItem.itemQty lo) t.inventory
  pure { t with itembatch := batches, inventory := totals }

def planRow (pkgId : Nat) (e : PlanEntry) : ReliefPkgItem :=
  ⟨pkgId, e.frInventoryId, e.batchId, e.itemId, e.lmQty, e.uomCode⟩

/-- The plan's rows are upserted; rows of the package that are not in the plan drop to zero. -/
def overwritePackageItems (pkgId : Nat) (plan : List PlanEntry) (t : Tables) : Tables :=
  let rows := plan.foldl (fun rows e => rows.upsert (planRow pkgId e)) t.reliefpkgItem
  { t with reliefpkgItem := rows.mapRows (fun i =>
      if i.reliefpkgId = pkgId ∧ i.batch ∉ plan.map PlanEntry.batch ∧ 0 < i.itemQty then
        { i with itemQty := 0 }
      else i) fun i => by split <;> rfl }

def depleteBatch (e : PlanEntry) : Option ItemBatch → Except Err (Option ItemBatch)
  | none => .error (.batchMissing e.batch)
  | some b =>
    if b.usableQty < e.lmQty then .error (.insufficientInventory e.batch.stock e.lmQty b.usableQty)
    else .ok (some { b with usableQty := b.usableQty - e.lmQty })

def depleteTotal (e : StockKey × ℚ) : Option Inventory → Except Err (Option Inventory)
  | none => .error (.inventoryMissing e.1)
  | some v =>
    if v.usableQty < e.2 then .error (.insufficientInventory e.1 e.2 v.usableQty)
    else .ok (some { v with usableQty := v.usableQty - e.2 })

theorem positive_plan {plan : List PlanEntry} {e : PlanEntry} :
    e ∈ plan.filter (0 < ·.lmQty) ↔ e ∈ plan ∧ 0 < e.lmQty := by
  simp

theorem filter_positive {plan : List PlanEntry} (h : ∀ e ∈ plan, 0 < e.lmQty) :
    plan.filter (0 < ·.lmQty) = plan :=
  List.filter_eq_self.2 fun e he => decide_eq_true (h e he)

def depleteUsableStock (plan : List PlanEntry) (t : Tables) : Except Err Tables := do
  let plan := plan.filter (0 < ·.lmQty)
  let batches ← Table.forRows PlanEntry.batch depleteBatch plan t.itembatch
  let totals ← Table.forRows Prod.fst depleteTotal
    (inventoryTotals PlanEntry.batch PlanEntry.lmQty plan) t.inventory
  pure { t with itembatch := batches, inventory := totals }

/-- The dispatched quantity is added to `issue_qty`; items that are not in the request are passed over. -/
def issueDispatched (r : ReliefRqst) (plan : List PlanEntry) (items : Table ReliefRqstItem) :
    Table ReliefRqstItem :=
  let positive := plan.filter (0 < ·.lmQty)
  items.mapRows (fun i =>
    if i.reliefrqstId = r.reliefrqstId ∧ i.itemId ∈ positive.map PlanEntry.itemId then
      { i with
        issueQty := i.issueQty + ((positive.filter fun e => e.itemId = i.itemId).map PlanEntry.lmQty).sum
        versionNbr := i.versionNbr + 1 }
    else i) fun i => by split <;> rfl

def updateDispatchRecords (ctx : Ctx) (p : ReliefPkg) (r : ReliefRqst) (plan : List PlanEntry) (t : Tables) :
    Tables :=
  ({ t.setPkg (p.dispatch ctx) with reliefrqstItem := issueDispatched r plan t.reliefrqstItem }).setRqst
    (r.actedOn ctx)

/-! ## The service and the route -/

/-- `dispatch_service.submit_for_dispatch`. -/
def workflowC (ctx : Ctx) (pkgId : Nat) (plan : List PlanEntry) (version : ℤ) (t : Tables) :
    Except Err Tables := do
  let p ← require (t.reliefpkg.get? pkgId) .noPackage
  check (p.versionNbr = version) .staleVersion
  check (p.statusCode ≠ .dispatched) .alreadyDispatched
  check (p.statusCode = .pending ∨ p.statusCode = .verified) (.wrongPackageStatus p.statusCode)
  let r ← require (t.reliefrqst.get? p.reliefrqstId) .notFound
  let t ← undoLoReservations (t.pkgItems pkgId) t
  let t ← depleteUsableStock plan (overwritePackageItems pkgId plan t)
  pure (updateDispatchRecords ctx p r plan t)

/-- `int(package_version)`. -/
def VersionField.toInt : VersionField → Except Err ℤ
  | .absent => .error .versionRequired
  | .blank | .malformed => .error .versionMalformed
  | .num n => .ok n

/-- The posted plan, or without one the saved rows. -/
def lmPlan (pkgId : Nat) (field : PlanField) (t : Tables) : Except Err (List PlanEntry) :=
  match field with
  | .absent => .ok (buildLmPlanFromPkgItems pkgId t)
  | .malformed => .error .notANumber
  | .entries es => buildLmPlanFromForm es

/-- The route `submit_for_dispatch`. -/
def submitForDispatch (ctx : Ctx) (pkgId : Nat) (version : VersionField) (field : PlanField) (t : Tables) :
    Except Err Tables := do
  check (ctx.logisticsManager = true) .accessDenied
  let p ← require (t.reliefpkg.get? pkgId) .notFound
  let version ← version.toInt
  let plan ← lmPlan pkgId field t
  check (plan ≠ [] ∨ AllUnavailable (t.rqstItems p.reliefrqstId)) .emptyPackage
  workflowC ctx pkgId plan version t

end Dmis
