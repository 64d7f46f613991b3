import Dmis.Allocation

/-!
# The packaging routes

The prepare, approve and review pages of `app/features/packaging.py`, package and preparation
cancellation, and the handover. A route is the gate of its page followed by the posted action.

| here | there |
| --- | --- |
| `preparePackage` | `prepare_package` (`:1331-1481`) |
| `saveDraft`, `submitForApproval`, `sendForDispatch` | `:1484-1782` |
| `approvePackage`, `saveDraftApproval`, `approveAndDispatch` | `:388-765` |
| `reviewApproval` | `review_approval` (`:110-316`) |
| `cancelPackage`, `cancelPreparation`, `markHandover` | `:319-385`, `:2063-2100`, `:2482-2582` |

The actions that reserve stock come in two parts: what they do to rows and headers
(`…Allocations`), and `reserveInventory` on the result.
-/

namespace Dmis

open Relational Keyed

/-- The marker of a package submitted for approval. -/
def pendingLM : String := "__PENDING_LM__"

/-! ## Headers -/

/-- The request once it is being fulfilled. -/
def ReliefRqst.actedOn (ctx : Ctx) (r : ReliefRqst) : ReliefRqst :=
  { r with statusCode := .partFilled, actionById := some ctx.userName, versionNbr := r.versionNbr + 1 }

/-- `_save_draft` withdraws the approval marker. `version_nbr` is the mapper's version column, so an
update that changes something moves it, and one that changes nothing does not. -/
def ReliefPkg.unmarked (p : ReliefPkg) : ReliefPkg :=
  if p.verifyById = none then p else { p with verifyById := none, versionNbr := p.versionNbr + 1 }

def ReliefPkg.submitted (ctx : Ctx) (p : ReliefPkg) : ReliefPkg :=
  { p with
    statusCode := .pending
    verifyById := some pendingLM
    updateById := ctx.userName
    versionNbr := p.versionNbr + 1 }

def ReliefPkg.redrafted (ctx : Ctx) (p : ReliefPkg) : ReliefPkg :=
  { p with statusCode := .pending, updateById := ctx.userName, versionNbr := p.versionNbr + 1 }

def ReliefPkg.rejected (ctx : Ctx) (p : ReliefPkg) : ReliefPkg :=
  { p with
    verifyById := none
    statusCode := .pending
    updateById := ctx.userName
    versionNbr := p.versionNbr + 1 }

/-- Approval and dispatch in one, as every dispatch path does it. -/
def ReliefPkg.dispatch (ctx : Ctx) (p : ReliefPkg) : ReliefPkg :=
  { p with
    statusCode := .dispatched
    dispatchDtime := some ctx.now
    verifyById := some ctx.userName
    updateById := ctx.userName
    versionNbr := p.versionNbr + 1 }

def Tables.setRqst (t : Tables) (r : ReliefRqst) : Tables := { t with reliefrqst := t.reliefrqst.set r }
def Tables.setPkg (t : Tables) (p : ReliefPkg) : Tables := { t with reliefpkg := t.reliefpkg.set p }

/-! ## Rows -/

/-- The package rows as a query finds them after the flush. The session keeps no reference to a written row, so it is
read again, from a column of four decimals. -/
def Tables.readBack (t : Tables) : Tables :=
  { t with reliefpkgItem := t.reliefpkgItem.mapRows ReliefPkgItem.rounded key_rounded_pkgItem }

theorem readBack_pkgQty (t : Tables) (pkgId : Nat) (k : BatchKey) :
    t.readBack.pkgQty pkgId k = numeric 4 (t.pkgQty pkgId k) := by
  simp only [Tables.pkgQty, Tables.readBack, Table.get?_mapRows, Option.map_map]
  cases t.reliefpkgItem.get? (pkgId, k) with
  | none => exact (numeric_zero 4).symm
  | some i => rfl

/-- A row that was read back is stored as it is. -/
theorem rounded_readBack (t : Tables) : t.readBack.rounded = t.rounded := by
  simp only [Tables.readBack, Tables.rounded, Table.mapRows, List.map_map]
  congr 2
  refine List.map_congr_left fun i _ => ?_
  simp only [Function.comp, ReliefPkgItem.rounded]
  rw [numeric_numeric]

/-! ## Gates and versions -/

/-- The package version is only compared when there is a package and a posted version. -/
def validatePkgVersion (v : VersionField) : Option ReliefPkg → Except Err Unit
  | some p => if v.given then validateVersionNbr v p.versionNbr else .ok ()
  | none => .ok ()

/-- `relief_request.packages`, the first one with status `P`. -/
def Tables.pendingPkg (t : Tables) (rqstId : Nat) : Option ReliefPkg :=
  (t.packages rqstId).find? fun p => p.statusCode = .pending

/-- The gate of the prepare page. -/
def prepareGate (ctx : Ctx) (rqstId : Nat) (t : Tables) : Except Err ReliefRqst := do
  check (ctx.logisticsOfficer = true ∨ ctx.logisticsManager = true) .accessDenied
  let r ← require (t.reliefrqst.get? rqstId) .notFound
  check (r.statusCode = .submitted ∨ r.statusCode = .partFilled) (.notPackable r.statusCode)
  pure r

/-- The gate of the approve and review pages: a Logistics Manager, and a pending package that was
not dispatched. -/
def approveGate (ctx : Ctx) (rqstId : Nat) (t : Tables) : Except Err (ReliefRqst × ReliefPkg) := do
  check (ctx.logisticsManager = true) .accessDenied
  let r ← require (t.reliefrqst.get? rqstId) .notFound
  let p ← require (t.pendingPkg rqstId) .noPendingPackage
  check (p.dispatchDtime = none) .alreadyDispatched
  pure (r, p)

/-! ## The prepare page -/

def saveDraftAllocations (ctx : Ctx) (r : ReliefRqst) (post : Post) (t : Tables) :
    Except Err (Tables × List Alloc × Allocations) := do
  validateVersionNbr post.rqstVersion r.versionNbr
  validatePkgVersion post.pkgVersion (t.firstPkg r.reliefrqstId)
  let (t, new, old) ← processAllocations ctx post.form false r t
  let t := match t.firstPkg r.reliefrqstId with
    | some p => t.setPkg p.unmarked
    | none => t
  pure (t.setRqst (r.actedOn ctx), new, old)

/-- `_save_draft`. -/
def saveDraft (ctx : Ctx) (r : ReliefRqst) (post : Post) (t : Tables) : Except Err Tables := do
  let (t, new, old) ← saveDraftAllocations ctx r post t
  reserveInventory new old t

def submitForApprovalAllocations (ctx : Ctx) (r : ReliefRqst) (post : Post) (t : Tables) :
    Except Err (Tables × List Alloc × Allocations) := do
  check (ctx.logisticsOfficer = true) .accessDenied
  validateVersionNbr post.rqstVersion r.versionNbr
  let existing := t.firstPkg r.reliefrqstId
  validatePkgVersion post.pkgVersion existing
  -- only the officer who created a pending package may submit it
  check (∀ p ∈ existing, p.statusCode = .pending → p.createById = ctx.userName) .alreadySubmitted
  let (t, new, old) ← processAllocations ctx post.form false r t
  let p ← require (t.firstPkg r.reliefrqstId) .noPackage
  -- no other session runs between the two reads, so the version cannot have moved
  check (¬ ((∃ e ∈ existing, e.versionNbr ≠ p.versionNbr) ∧ p.statusCode = .pending ∧
    p.createById ≠ ctx.userName)) .alreadySubmitted
  pure ((t.setPkg (p.submitted ctx)).setRqst (r.actedOn ctx), new, old)

/-- `_submit_for_approval`. -/
def submitForApproval (ctx : Ctx) (r : ReliefRqst) (post : Post) (t : Tables) : Except Err Tables := do
  let (t, new, old) ← submitForApprovalAllocations ctx r post t
  reserveInventory new old t

/-- `_send_for_dispatch`: the allocation must be complete, and the stock leaves at once, by the rows as they were
flushed. -/
def sendForDispatch (ctx : Ctx) (r : ReliefRqst) (post : Post) (t : Tables) : Except Err Tables := do
  check (ctx.logisticsManager = true) .accessDenied
  validateVersionNbr post.rqstVersion r.versionNbr
  validatePkgVersion post.pkgVersion (t.firstPkg r.reliefrqstId)
  let (t, _, _) ← processAllocations ctx post.form true r t
  let p ← require (t.firstPkg r.reliefrqstId) .noPackage
  let t ← commitInventory r.reliefrqstId (t.readBack.setPkg (p.dispatch ctx))
  pure (t.setRqst (r.actedOn ctx))

inductive PrepareAction where
  | saveDraft | submitForApproval | sendForDispatch
  deriving DecidableEq, Repr

def preparePackage (ctx : Ctx) (rqstId : Nat) (action : PrepareAction) (post : Post) (t : Tables) :
    Except Err Tables := do
  let r ← prepareGate ctx rqstId t
  match action with
  | .saveDraft => saveDraft ctx r post t
  | .submitForApproval => submitForApproval ctx r post t
  | .sendForDispatch => sendForDispatch ctx r post t

/-! ## The approve page -/

def saveDraftApprovalAllocations (ctx : Ctx) (r : ReliefRqst) (p : ReliefPkg) (post : Post) (t : Tables) :
    Except Err (Tables × List Alloc × Allocations) := do
  validateVersionNbr post.rqstVersion r.versionNbr
  validateVersionNbr post.pkgVersion p.versionNbr
  let (t, new, old) ← processAllocations ctx post.form false r t
  pure (t.setPkg (p.redrafted ctx), new, old)

/-- `_save_draft_approval`: the package stays submitted. -/
def saveDraftApproval (ctx : Ctx) (r : ReliefRqst) (p : ReliefPkg) (post : Post) (t : Tables) :
    Except Err Tables := do
  let (t, new, old) ← saveDraftApprovalAllocations ctx r p post t
  reserveInventory new old t

/-- Every item of the request is marked `U`, `D` or `W`. -/
def AllUnavailable (items : List ReliefRqstItem) : Prop :=
  ∀ i ∈ items, i.statusCode ∈ [ItemStatus.unavailable, .denied, .waiting]

instance (items : List ReliefRqstItem) : Decidable (AllUnavailable items) := by
  unfold AllUnavailable; infer_instance

/-- `pkg_item_totals.get(item_id, 0)`. -/
def itemTotal (rows : List ReliefPkgItem) (itemId : Nat) : ℚ :=
  ((rows.filter fun i => i.itemId = itemId).map ReliefPkgItem.itemQty).sum

/-- The check both approval paths make before a dispatch: an empty package only if nothing is
available, and `issue_qty` in line with the rows. -/
def checkPackageItems (items : List ReliefRqstItem) (rows : List ReliefPkgItem) : Except Err Unit := do
  check (rows ≠ [] ∨ AllUnavailable items) .emptyPackage
  checkAll (fun i : ReliefRqstItem => ¬ (0 < i.issueQty ∧ itemTotal rows i.itemId = 0) ∧
      |i.issueQty - itemTotal rows i.itemId| ≤ 1 / 1000)
    (fun i => .issueQtyMismatch i.itemId i.issueQty (itemTotal rows i.itemId)) items

/-- `item.issue_qty = total_allocated` for every item of the request. -/
def issueAllocated (r : ReliefRqst) (new : List Alloc) (items : Table ReliefRqstItem) : Table ReliefRqstItem :=
  items.mapRows (fun i =>
    if i.reliefrqstId = r.reliefrqstId then
      { i with
        issueQty := ((new.filter fun a => a.itemId = i.itemId).map Alloc.allocatedQty).sum
        versionNbr := i.versionNbr + 1 }
    else i) fun i => by split <;> rfl

/-- `_approve_and_dispatch`: the check and the dispatch see the rows as they were flushed, while the items of the
request are still the session's. -/
def approveAndDispatch (ctx : Ctx) (r : ReliefRqst) (p : ReliefPkg) (post : Post) (t : Tables) :
    Except Err Tables := do
  validateVersionNbr post.rqstVersion r.versionNbr
  validateVersionNbr post.pkgVersion p.versionNbr
  let (t, new, _) ← processAllocations ctx post.form false r t
  let t := t.readBack
  let items := t.rqstItems r.reliefrqstId
  checkPackageItems items (t.pkgItems p.reliefpkgId)
  check (new ≠ [] ∨ AllUnavailable items) .emptyPackage
  let t := { t with reliefrqstItem := issueAllocated r new t.reliefrqstItem }
  let t ← commitInventory r.reliefrqstId (t.setPkg (p.dispatch ctx))
  pure (t.setRqst (r.actedOn ctx))

inductive ApproveAction where
  | saveDraft | approveAndDispatch
  deriving DecidableEq, Repr

def approvePackage (ctx : Ctx) (rqstId : Nat) (action : ApproveAction) (post : Post) (t : Tables) :
    Except Err Tables := do
  let (r, p) ← approveGate ctx rqstId t
  match action with
  | .saveDraft => saveDraftApproval ctx r p post t
  | .approveAndDispatch => approveAndDispatch ctx r p post t

/-! ## The review page -/

/-- Approve the rows as they were saved; nothing is posted but the versions. -/
def reviewApproveAndDispatch (ctx : Ctx) (r : ReliefRqst) (p : ReliefPkg) (post : Post) (t : Tables) :
    Except Err Tables := do
  validateVersionNbr post.rqstVersion r.versionNbr
  validateVersionNbr post.pkgVersion p.versionNbr
  let items := t.rqstItems r.reliefrqstId
  checkPackageItems items (t.pkgItems p.reliefpkgId)
  check ((∃ i ∈ items, 0 < i.issueQty) ∨ AllUnavailable items) .emptyPackage
  let t ← commitInventory r.reliefrqstId (t.setPkg (p.dispatch ctx))
  pure (t.setRqst (r.actedOn ctx))

/-- Hand the package back to the officer; the rows and their reservations stay. -/
def reviewReject (ctx : Ctx) (r : ReliefRqst) (p : ReliefPkg) (post : Post) (t : Tables) :
    Except Err Tables := do
  validateVersionNbr post.rqstVersion r.versionNbr
  validateVersionNbr post.pkgVersion p.versionNbr
  pure ((t.setPkg (p.rejected ctx)).setRqst
    { r with actionById := some ctx.userName, versionNbr := r.versionNbr + 1 })

inductive ReviewAction where
  | approveAndDispatch | reject
  deriving DecidableEq, Repr

def reviewApproval (ctx : Ctx) (rqstId : Nat) (action : ReviewAction) (post : Post) (t : Tables) :
    Except Err Tables := do
  let (r, p) ← approveGate ctx rqstId t
  match action with
  | .approveAndDispatch => reviewApproveAndDispatch ctx r p post t
  | .reject => reviewReject ctx r p post t

/-! ## Cancelling and handing over -/

def cancelPackage (ctx : Ctx) (pkgId : Nat) (t : Tables) : Except Err Tables := do
  check (ctx.logisticsManager = true) .accessDenied
  cancelReliefPackage pkgId t

/-- No role is checked. The rows go first, so that `release_all_reservations` finds none to release. -/
def cancelPreparation (rqstId : Nat) (t : Tables) : Except Err Tables :=
  let t := match t.firstPkg rqstId with
    | some p => { t with reliefpkgItem := t.reliefpkgItem.deleteWhere fun i => i.reliefpkgId = p.reliefpkgId }
    | none => t
  releaseAllReservations rqstId t

def ReliefPkg.handedOver (ctx : Ctx) (p : ReliefPkg) : ReliefPkg :=
  { p with
    receivedById := some ctx.userName
    receivedDtime := some ctx.now
    updateById := ctx.userName
    versionNbr := p.versionNbr + 1 }

def markHandover (ctx : Ctx) (pkgId : Nat) (t : Tables) : Except Err Tables := do
  check (ctx.inventoryClerk = true) .accessDenied
  check (ctx.warehouseIds ≠ []) .noItemsInWarehouses
  let p ← require (t.reliefpkg.get? pkgId) .notFound
  check (p.statusCode = .dispatched) (.wrongPackageStatus p.statusCode)
  check (p.receivedDtime = none) .alreadyHandedOver
  check (∃ i ∈ t.pkgItems pkgId, i.frInventoryId ∈ ctx.warehouseIds) .noItemsInWarehouses
  pure (t.setPkg (p.handedOver ctx))

end Dmis
