import Dmis.Dispatch

/-!
# Relief requests

`app/services/relief_request_service.py` and the routes that call it
(`requests_aidmgmt.py:357-620`, `eligibility.py:110-150`): a request is drafted, filled with items,
submitted, and decided on by a director. `Y` makes it `SUBMITTED`, open for packaging; `N` makes it
`INELIGIBLE`.
-/

namespace Dmis

open Relational Keyed

/-! ## Drafting -/

/-- A request as it is created. -/
def newDraft (id agencyId : Nat) (urgency : Urgency) (eligibleEventId : Option Nat) (notes : Option String)
    (user : String) : ReliefRqst :=
  { reliefrqstId := id
    agencyId := agencyId
    eligibleEventId := eligibleEventId
    urgencyInd := urgency
    rqstNotesText := notes
    statusCode := .draft
    statusReasonDesc := none
    createById := user
    reviewById := none
    actionById := none
    versionNbr := 1 }

/-- `create_draft_request`. -/
def createDraftRequest (ctx : Ctx) (agencyId : Nat) (urgency : Urgency) (eligibleEventId : Option Nat)
    (notes : Option String) (t : Tables) : Except Err Tables := do
  check (agencyId ∈ ctx.agencies) .agencyNotFound
  check (∀ e ∈ eligibleEventId, e ∈ ctx.events) .eventNotFound
  let user ← require (ctx.userByEmail ctx.email) .userNotFound
  let rows ← require (t.reliefrqst.insert
    (newDraft t.nextReliefrqstId agencyId urgency eligibleEventId notes user)) .integrityError
  pure { t with reliefrqst := rows, nextReliefrqstId := t.nextReliefrqstId + 1 }

/-- A posted date: blank, not `YYYY-MM-DD`, or a day. -/
inductive DateField where
  | blank | malformed
  | day (d : Day)
  deriving DecidableEq, Repr

/-- The post of `edit_items`; texts are stripped. -/
structure ItemPost where
  itemId : Option ℤ
  requestQty : Option PyDecimal
  urgencyInd : String
  rqstReasonDesc : String
  requiredByDate : DateField

/-- `validate_filter_value`: the value is lowered before it is compared. -/
def validateFilterValue (value : String) (allowed : List String) (default : String) : String :=
  if value.toLower ∈ allowed then value.toLower else default

/-- `urgency_ind` as `edit_items` reads it; the allowed values are upper case. -/
def editUrgency (posted : String) : Urgency :=
  match (validateFilterValue posted.toUpper ["H", "M", "L"] "M").toUpper with
  | "H" => .high
  | "L" => .low
  | _ => .medium

def DateField.parse : DateField → Except Err (Option Day)
  | .blank => .ok none
  | .malformed => .error .dateRequired
  | .day d => .ok (some d)

/-- `add_or_update_request_item`, called without a version. -/
def addOrUpdateRequestItem (rqstId itemId : Nat) (qty : ℚ) (urgency : Urgency) (reason : Option String)
    (requiredBy : Option Day) (t : Tables) : Except Err Tables := do
  check (0 < qty) .quantityNotPositive
  match t.reliefrqstItem.get? (rqstId, itemId) with
  | some i =>
    let i' : ReliefRqstItem := { i with
      requestQty := qty
      urgencyInd := urgency
      rqstReasonDesc := reason
      requiredByDate := requiredBy
      versionNbr := i.versionNbr + 1 }
    pure { t with reliefrqstItem := t.reliefrqstItem.set i' }
  | none =>
    let i : ReliefRqstItem :=
      { reliefrqstId := rqstId
        itemId := itemId
        requestQty := qty
        issueQty := 0
        urgencyInd := urgency
        rqstReasonDesc := reason
        requiredByDate := requiredBy
        statusCode := .requested
        statusReasonDesc := none
        actionById := none
        versionNbr := 1 }
    let rows ← require (t.reliefrqstItem.insert i) .integrityError
    pure { t with reliefrqstItem := rows }

/-- The route `edit_items`. -/
def editItems (ctx : Ctx) (rqstId : Nat) (post : ItemPost) (t : Tables) : Except Err Tables := do
  let r ← require (t.reliefrqst.get? rqstId) .notFound
  check (ctx.canAccess r = true) .accessDenied
  check (r.statusCode = .draft) (.notDraft r.statusCode)
  let itemId := safeId post.itemId
  check (0 < itemId) .notFound
  let qty ← safeQuantity post.requestQty
  let urgency := editUrgency post.urgencyInd
  let requiredBy ← post.requiredByDate.parse
  let item ← require (ctx.catalog itemId) .notFound
  check (item.active = true) .itemInactive
  check (item.goods = true) .itemNotGoods
  check (0 < qty) .quantityNotPositive
  check (urgency = .high → requiredBy ≠ none) .dateRequired
  check (urgency = .high → post.rqstReasonDesc ≠ "") .justificationRequired
  addOrUpdateRequestItem rqstId itemId qty urgency (some post.rqstReasonDesc) requiredBy t

/-- The route `delete_item` and `delete_request_item`. -/
def deleteItem (ctx : Ctx) (rqstId itemId : Nat) (t : Tables) : Except Err Tables := do
  let r ← require (t.reliefrqst.get? rqstId) .notFound
  check (ctx.canAccess r = true) .accessDenied
  check (r.statusCode = .draft) (.notDraft r.statusCode)
  let _ ← require (t.reliefrqstItem.get? (rqstId, itemId)) .itemNotInRequest
  pure { t with reliefrqstItem := t.reliefrqstItem.deleteWhere fun i =>
    i.reliefrqstId = rqstId ∧ i.itemId = itemId }

/-! ## Submitting and deciding -/

/-- The version to compare with: without a posted one the current one is taken. -/
def postedVersion (v : VersionField) (current : Nat) : Except Err ℤ :=
  if v.given then v.toInt else .ok current

/-- The route `submit_request` and the service. -/
def submitRequest (ctx : Ctx) (rqstId : Nat) (version : VersionField) (t : Tables) : Except Err Tables := do
  let r ← require (t.reliefrqst.get? rqstId) .notFound
  check (ctx.canAccess r = true) .accessDenied
  let current ← postedVersion version r.versionNbr
  check (r.statusCode = .draft) (.notDraft r.statusCode)
  check (∃ i ∈ t.rqstItems rqstId, 0 < i.requestQty) .noItems
  check (r.versionNbr = current) .staleVersion
  pure (t.setRqst { r with statusCode := .awaitingApproval, versionNbr := r.versionNbr + 1 })

/-- The posted decision: `Y`, `N` or anything else. -/
inductive Decision where
  | eligible | ineligible | other
  deriving DecidableEq, Repr

/-- The request after the decision of `reviewer`. -/
def ReliefRqst.decided (d : Decision) (reason reviewer : String) (r : ReliefRqst) : ReliefRqst :=
  match d with
  | .ineligible =>
    { r with
      reviewById := some reviewer
      statusCode := .ineligible
      statusReasonDesc := some reason
      actionById := some reviewer
      versionNbr := r.versionNbr + 1 }
  | _ =>
    { r with reviewById := some reviewer, statusCode := .submitted, versionNbr := r.versionNbr + 1 }

/-- The route `submit_decision` and `submit_eligibility_decision`; `reason` is stripped. -/
def submitEligibilityDecision (ctx : Ctx) (rqstId : Nat) (d : Decision) (reason : String) (t : Tables) :
    Except Err Tables := do
  check (ctx.executive = true) .accessDenied
  check (d ≠ .other) .invalidDecision
  check (d = .ineligible → reason ≠ "") .reasonRequired
  let r ← require (t.reliefrqst.get? rqstId) .notFound
  check (r.statusCode = .awaitingApproval) (.notAwaitingApproval r.statusCode)
  check (r.reviewById = none) .alreadyDecided
  let reviewer ← require (ctx.userByEmail ctx.email) .userNotFound
  pure (t.setRqst (r.decided d reason reviewer))

end Dmis
