import Dmis.Eligibility
import Mathlib.Data.List.Sort

/-!
# The logistics dashboard

The counters of `app/services/dashboard_service.py` beside the queues they stand for. A counter looks at
one status column; the queues also look at the submission marker and at the other table. So
`pending_approval` counts the drafts, which nobody submitted (`:147`), and `in_progress` the requests
whose package was submitted or dispatched (`:224`). `dashboard_agrees` says exactly when the numbers meet.

| here | there |
| --- | --- |
| `buildFulfillmentWidget`, `buildApprovalWidget` | `_build_fulfillment_widget` (:124-141), `_build_approval_widget` (:143-160) |
| `widgetsForUser` | the logistics widgets of `_get_widgets_for_user` (:51-83) |
| `metricsForUser` | the logistics metrics of `_get_metrics_for_user` (:220-226) |
-/

namespace Dmis

open Relational Keyed

/-! ## Widgets and metrics -/

structure Widget where
  widgetId : String
  title : String
  icon : String
  pendingCount : Nat
  badgeVariant : String
  actionUrl : String
  actionLabel : String
  priority : Nat
  deriving DecidableEq, Repr

structure Metrics where
  pendingFulfillment : Nat
  inProgress : Nat
  pendingApproval : Nat
  deriving DecidableEq, Repr

section
variable (ctx : Ctx) (t : Tables)

/-- `ReliefRqst.query.filter_by(status_code=…).count()`. -/
def countRequests (s : RqstStatus) : Nat := (t.reliefrqst.select fun r => r.statusCode = s).length

/-- `ReliefPkg.query.filter_by(status_code=…).count()`. -/
def countPackages (s : PkgStatus) : Nat := (t.reliefpkg.select fun p => p.statusCode = s).length

def buildFulfillmentWidget : Widget :=
  { widgetId := "pending_fulfillment"
    title := "Pending Fulfillment"
    icon := "bi-box-seam"
    pendingCount := countRequests t .submitted
    badgeVariant := if 0 < countRequests t .submitted then "info" else "success"
    actionUrl := "packaging.pending_fulfillment"
    actionLabel := "Prepare Packages"
    priority := 22 }

def buildApprovalWidget : Widget :=
  { widgetId := "pending_approval"
    title := "Packages Awaiting Approval"
    icon := "bi-check-circle"
    pendingCount := countPackages t .pending
    badgeVariant := if 0 < countPackages t .pending then "warning" else "success"
    actionUrl := "packaging.pending_approval"
    actionLabel := "Review Packages"
    priority := 24 }

/-- Highest priority first. -/
def widgetsForUser : List Widget :=
  (if ctx.logisticsOfficer || ctx.logisticsManager then
    buildFulfillmentWidget t :: (if ctx.logisticsManager then [buildApprovalWidget t] else [])
  else []).insertionSort fun v w => w.priority ≤ v.priority

def metricsForUser : Option Metrics :=
  if ctx.logisticsOfficer || ctx.logisticsManager then
    some
      { pendingFulfillment := countRequests t .submitted
        inProgress := countRequests t .partFilled
        pendingApproval := if ctx.logisticsManager then countPackages t .pending else 0 }
  else none

/-- The number on the widget, when the user has it. -/
def shown (widgetId : String) : Option Nat :=
  ((widgetsForUser ctx t).find? fun w => w.widgetId = widgetId).map Widget.pendingCount

/-! ## What the numbers stand for -/

def FulfillmentAgrees : Prop :=
  shown ctx t "pending_fulfillment" = some (awaitingRequests t).length ∧
  (metricsForUser ctx t).map Metrics.pendingFulfillment = some (awaitingRequests t).length

def ApprovalAgrees : Prop :=
  shown ctx t "pending_approval" = some (pendingApprovalPage t).length ∧
  (metricsForUser ctx t).map Metrics.pendingApproval = some (pendingApprovalPage t).length

def InProgressAgrees : Prop :=
  (metricsForUser ctx t).map Metrics.inProgress = some (inProgressRequests t).length

instance : Decidable (FulfillmentAgrees ctx t) := by unfold FulfillmentAgrees; infer_instance
instance : Decidable (ApprovalAgrees ctx t) := by unfold ApprovalAgrees; infer_instance
instance : Decidable (InProgressAgrees ctx t) := by unfold InProgressAgrees; infer_instance

end

/-- A package that was saved and not submitted. -/
def ReliefPkg.IsDraft (p : ReliefPkg) : Prop := p.statusCode = .pending ∧ p.verifyById = none

instance (p : ReliefPkg) : Decidable p.IsDraft := by unfold ReliefPkg.IsDraft; infer_instance

section
variable {ctx : Ctx} {t : Tables}

theorem manager_sees (hm : ctx.logisticsManager = true) :
    widgetsForUser ctx t = [buildApprovalWidget t, buildFulfillmentWidget t] ∧
    metricsForUser ctx t =
      some ⟨countRequests t .submitted, countRequests t .partFilled, countPackages t .pending⟩ := by
  constructor
  · simp [widgetsForUser, hm, List.insertionSort, buildApprovalWidget, buildFulfillmentWidget]
  · simp [metricsForUser, hm]

theorem fulfillmentAgrees_iff (hm : ctx.logisticsManager = true) :
    FulfillmentAgrees ctx t ↔ countRequests t .submitted = (awaitingRequests t).length := by
  obtain ⟨hw, hmet⟩ := manager_sees (t := t) hm
  simp [FulfillmentAgrees, shown, hw, hmet, buildApprovalWidget, buildFulfillmentWidget]

theorem approvalAgrees_iff (hm : ctx.logisticsManager = true) :
    ApprovalAgrees ctx t ↔ countPackages t .pending = (pendingApprovalPage t).length := by
  obtain ⟨hw, hmet⟩ := manager_sees (t := t) hm
  simp [ApprovalAgrees, shown, hw, hmet, buildApprovalWidget]

theorem inProgressAgrees_iff (hm : ctx.logisticsManager = true) :
    InProgressAgrees ctx t ↔ countRequests t .partFilled = (inProgressRequests t).length := by
  obtain ⟨-, hmet⟩ := manager_sees (t := t) hm
  simp [InProgressAgrees, hmet]

/-! ## Counting requests through their packages -/

/-- The package of a request in a state whose headers are `Queued`. -/
theorem queued_pkg (hu : UniquePkg t) (hc : t.Consistent) (hq : ∀ x h, t.header x = some h → Queued h)
    {p : ReliefPkg} (hp : p ∈ t.reliefpkg.rows) :
    ∃ r ∈ t.reliefrqst.rows, r.reliefrqstId = p.reliefrqstId ∧ t.packages r.reliefrqstId = [p] ∧
      r.statusCode = .partFilled ∧
      ((p.statusCode = .pending ∧ p.dispatchDtime = none ∧
        (p.verifyById = none ∨ p.verifyById = some pendingLM)) ∨ p.statusCode = .dispatched) := by
  obtain ⟨r, hr⟩ := header_of_pkg hu hc hp
  obtain ⟨hrow, hfirst⟩ := header_eq_some.1 hr
  obtain ⟨hst, hpk⟩ := hq _ _ hr p rfl
  have hid : r.reliefrqstId = p.reliefrqstId := Table.key_of_get? hrow
  refine ⟨r, Table.mem_of_get? hrow, hid, ?_, hst, hpk⟩
  rw [packages_eq hu, hid, hfirst]
  rfl

theorem awaiting_count (hu : UniquePkg t) (hq : ∀ x h, t.header x = some h → Queued h) :
    countRequests t .submitted = (awaitingRequests t).length := by
  unfold countRequests awaitingRequests Table.select
  congr 1
  refine List.filter_congr fun r hr => ?_
  by_cases hs : r.statusCode = .submitted
  · -- a request with a package is being filled
    have hnone : t.firstPkg r.reliefrqstId = none := by
      by_contra hp
      obtain ⟨p, hp⟩ := Option.ne_none_iff_exists'.1 hp
      have := (hq _ _ (header_of_mem hr) p hp).1
      rw [hs] at this
      cases this
    have hnil : t.packages r.reliefrqstId = [] := by rw [packages_eq hu, hnone]; rfl
    simp [hs, hasPendingApproval, hasDispatchedPackage, hnil]
  · simp [hs]

/-- The page lists as many requests as there are submitted packages. -/
theorem page_count (hu : UniquePkg t) (hc : t.Consistent) (hq : ∀ x h, t.header x = some h → Queued h) :
    (pendingApprovalPage t).length =
      (t.reliefpkg.select fun p => p.statusCode = .pending ∧ p.verifyById ≠ none).length := by
  refine length_eq_of_keys (f := ReliefRqst.reliefrqstId) (g := ReliefPkg.reliefrqstId) ?_ ?_ fun k => ?_
  · exact t.reliefrqst.nodup.sublist (List.filter_sublist.map _)
  · exact List.Nodup.sublist (List.filter_sublist.map _) hu
  · rw [List.mem_map, List.mem_map]
    constructor
    · rintro ⟨r, hr, rfl⟩
      obtain ⟨hr, hpage⟩ := List.mem_filter.1 hr
      simp only [Bool.and_eq_true, List.find?_isSome, decide_eq_true_eq] at hpage
      obtain ⟨p, hp, hp1, hp2, -⟩ := hpage.2
      obtain ⟨hp, hid⟩ := List.mem_filter.1 hp
      exact ⟨p, List.mem_filter.2 ⟨hp, by simp [hp1, hp2]⟩, of_decide_eq_true hid⟩
    · rintro ⟨p, hp, rfl⟩
      obtain ⟨hp, hsub⟩ := List.mem_filter.1 hp
      obtain ⟨hp1, hp2⟩ := of_decide_eq_true hsub
      obtain ⟨r, hr, hid, hpk, hst, hpq⟩ := queued_pkg hu hc hq hp
      refine ⟨r, List.mem_filter.2 ⟨hr, ?_⟩, hid⟩
      rcases hpq with ⟨-, hd, -⟩ | hd
      · simp [hst, hpk, hp1, hp2, hd]
      · cases hp1.symm.trans hd

theorem approval_count (hu : UniquePkg t) (hc : t.Consistent) (hq : ∀ x h, t.header x = some h → Queued h) :
    countPackages t .pending = (pendingApprovalPage t).length ↔ ∀ p ∈ t.reliefpkg.rows, ¬ p.IsDraft := by
  rw [page_count hu hc hq]
  unfold countPackages Table.select
  rw [length_filter_eq_iff fun p _ h => by simpa using (of_decide_eq_true h).1]
  simp only [decide_eq_true_eq]
  constructor
  · intro h p hp hd
    exact (h p hp hd.1).2 hd.2
  · intro h p hp hs
    exact ⟨hs, fun hv => h p hp ⟨hs, hv⟩⟩

theorem inProgress_count (hu : UniquePkg t) (hc : t.Consistent) (hq : ∀ x h, t.header x = some h → Queued h) :
    countRequests t .partFilled = (inProgressRequests t).length ↔ ∀ p ∈ t.reliefpkg.rows, p.IsDraft := by
  unfold countRequests inProgressRequests Table.select
  rw [length_filter_eq_iff fun r _ h => by simp at h; simp [h.1]]
  simp only [Bool.and_eq_true, decide_eq_true_eq, Bool.not_eq_true', Bool.or_eq_false_iff]
  constructor
  · intro h p hp
    obtain ⟨r, hr, -, hpk, hst, hpq⟩ := queued_pkg hu hc hq hp
    obtain ⟨-, happ, hdis⟩ := h r hr hst
    rcases hpq with ⟨h1, h2, h3 | h3⟩ | h1
    · exact ⟨h1, h3⟩
    · simp [hasPendingApproval, hpk, hst, h1, h2, h3] at happ
    · simp [hasDispatchedPackage, hpk, h1] at hdis
  · intro h r hr hst
    refine ⟨hst, ?_, ?_⟩
    · simp only [hasPendingApproval, decide_eq_false_iff_not]
      rintro ⟨-, p, hp, -, -, hv⟩
      rw [(h p (List.mem_filter.1 hp).1).2] at hv
      cases hv
    · simp only [hasDispatchedPackage, decide_eq_false_iff_not]
      rintro ⟨p, hp, hd⟩
      rw [(h p (List.mem_filter.1 hp).1).1] at hd
      cases hd

end

/-- **The dashboard against the queues**: fulfilment agrees always, approval while no package is a draft,
in-progress while every package is one, and so all of them only while there is no package. -/
theorem dashboard_agrees (db : Database) (h0 : db.tables.reliefpkg.rows = []) (ops : List Op) (ctx : Ctx)
    (hm : ctx.logisticsManager = true) :
    let t := (run step db ops).tables
    FulfillmentAgrees ctx t ∧
    (ApprovalAgrees ctx t ↔ ∀ p ∈ t.reliefpkg.rows, ¬ p.IsDraft) ∧
    (InProgressAgrees ctx t ↔ ∀ p ∈ t.reliefpkg.rows, p.IsDraft) ∧
    (FulfillmentAgrees ctx t ∧ ApprovalAgrees ctx t ∧ InProgressAgrees ctx t ↔ t.reliefpkg.rows = []) := by
  obtain ⟨hu, hq⟩ := run_headers headerStep_queued
    (headers_of_no_packages (I := Queued) (fun _ _ hp => by cases hp) h0) ops
  have hc := (run step db ops).consistent
  have hful := (fulfillmentAgrees_iff hm).2 (awaiting_count hu hq)
  have happ := (approvalAgrees_iff hm).trans (approval_count hu hc hq)
  have hinp := (inProgressAgrees_iff hm).trans (inProgress_count hu hc hq)
  refine ⟨hful, happ, hinp, ?_⟩
  rw [happ, hinp]
  constructor
  · rintro ⟨-, hno, hall⟩
    exact List.eq_nil_iff_forall_not_mem.2 fun p hp => hno p hp (hall p hp)
  · intro hnil
    refine ⟨hful, ?_, ?_⟩ <;> intro p hp <;> rw [hnil] at hp <;> cases hp

/-- From the draft of a request to the draft of its package: the request is in progress. -/
theorem dashboard_agrees_site :
    let t := (run step Site.blank Site.life).tables
    (inProgressRequests t).length = 1 ∧ FulfillmentAgrees Site.manager t ∧ InProgressAgrees Site.manager t := by
  have h := dashboard_agrees Site.blank rfl Site.life Site.manager rfl
  exact ⟨by decide +kernel, h.1, h.2.2.1.2 (by decide +kernel)⟩

/-- A saved draft is on the dashboard as a package awaiting approval and on no page. -/
theorem dashboard_counts_drafts :
    let t := (run step Site.db [.preparePackage Site.officer 1 .saveDraft (Site.post 3 .absent 2)]).tables
    shown Site.manager t "pending_approval" = some 1 ∧ (pendingApprovalPage t).length = 0 ∧
    ¬ ApprovalAgrees Site.manager t := by
  decide +kernel

end Dmis
