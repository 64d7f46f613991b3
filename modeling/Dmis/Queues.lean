import Dmis.Frames

/-!
# The work queues

The tabs of `pending_fulfillment` (`packaging.py:1086-1329`) and the list of `pending_approval`
(`:54-107`), as filters over the tables. `queues_partition`: in every state reachable from requests
without packages they partition the work.
-/

namespace Dmis

open Relational Keyed

/-! ## The filters -/

section
variable (t : Tables)

/-- `has_pending_approval`. -/
def hasPendingApproval (r : ReliefRqst) : Bool :=
  r.statusCode = .partFilled ∧ ∃ p ∈ t.packages r.reliefrqstId,
    p.statusCode = .pending ∧ p.dispatchDtime = none ∧ p.verifyById = some pendingLM

/-- `has_dispatched_package`. -/
def hasDispatchedPackage (r : ReliefRqst) : Bool :=
  ∃ p ∈ t.packages r.reliefrqstId, p.statusCode = .dispatched

def awaitingRequests : List ReliefRqst :=
  t.reliefrqst.select fun r =>
    r.statusCode = .submitted && !(hasPendingApproval t r || hasDispatchedPackage t r)

def inProgressRequests : List ReliefRqst :=
  t.reliefrqst.select fun r =>
    r.statusCode = .partFilled && !(hasPendingApproval t r || hasDispatchedPackage t r)

def pendingApprovalRequests : List ReliefRqst :=
  t.reliefrqst.select fun r =>
    (r.statusCode = .submitted || r.statusCode = .partFilled) && hasPendingApproval t r

/-- The page `pending_approval`: submitted is any package with a verifier that was not dispatched. -/
def pendingApprovalPage : List ReliefRqst :=
  t.reliefrqst.select fun r =>
    (r.statusCode = .submitted || r.statusCode = .partFilled) &&
      ((t.packages r.reliefrqstId).find? fun p =>
        p.statusCode = .pending ∧ p.verifyById ≠ none ∧ p.dispatchDtime = none).isSome

/-- `sum(item.item_qty for item in pkg.items)`. -/
def pkgTotal (p : ReliefPkg) : ℚ := ((t.pkgItems p.reliefpkgId).map ReliefPkgItem.itemQty).sum

/-- `get_approved_packages_with_items`. -/
def approvedPackagesWithItems : List ReliefPkg :=
  t.reliefpkg.select fun p =>
    p.statusCode = .dispatched ∧ p.receivedDtime = none ∧ pkgTotal t p ≠ 0

/-- `get_approved_packages_no_items`. -/
def approvedPackagesNoItems : List ReliefPkg :=
  t.reliefpkg.select fun p =>
    p.statusCode = .dispatched ∧ p.receivedDtime = none ∧ ¬ 0 < pkgTotal t p

end

/-- Where a request being worked on can be found. -/
inductive RequestQueue where
  | awaiting | inProgress | pendingApproval | dispatched
  deriving DecidableEq, Repr

def InRequestQueue (t : Tables) (r : ReliefRqst) : RequestQueue → Prop
  | .awaiting => r ∈ awaitingRequests t
  | .inProgress => r ∈ inProgressRequests t
  | .pendingApproval => r ∈ pendingApprovalRequests t
  | .dispatched => hasDispatchedPackage t r = true

/-- Where a dispatched package that was not handed over can be found. -/
inductive PackageQueue where
  | withItems | noItems
  deriving DecidableEq, Repr

def InPackageQueue (t : Tables) (p : ReliefPkg) : PackageQueue → Prop
  | .withItems => p ∈ approvedPackagesWithItems t
  | .noItems => p ∈ approvedPackagesNoItems t

/-! ## The invariant -/

/-- A package belongs to a request that is being filled; it is dispatched, or it is a draft, or it
carries the approval marker. -/
def Queued (h : Header) : Prop :=
  ∀ p ∈ h.pkg, h.rqst.statusCode = .partFilled ∧
    ((p.statusCode = .pending ∧ p.dispatchDtime = none ∧
      (p.verifyById = none ∨ p.verifyById = some pendingLM)) ∨ p.statusCode = .dispatched)

theorem headerStep_queued (op : Op) (rqstId : Nat) (a : Option Header) (h : Header)
    (hs : HeaderStep op rqstId a (some h)) (ha : ∀ g ∈ a, Queued g) (hc : h.Checked) : Queued h := by
  cases hs with
  | createDraftRequest => intro p hp; cases hp
  | editItems | deleteItem | cancelPreparation => exact ha _ rfl
  | submitRequest status =>
    intro p hp
    exact absurd (ha _ rfl p hp).1 (by simp [status])
  | decide status =>
    intro p hp
    cases hd : (ha _ rfl p hp).1.symm.trans status
  | @saveDraft ctx rid post r p id =>
    rintro _ ⟨⟩
    refine ⟨rfl, ?_⟩
    cases p with
    | none => exact .inl ⟨rfl, rfl, .inl rfl⟩
    | some p =>
      simp only [Option.getD_some, ReliefPkg.unmarked]
      rcases (ha _ rfl p rfl).2 with ⟨h1, h2, _⟩ | h1
      · exact .inl (by split <;> simp_all)
      · exact .inr (by split <;> exact h1)
  | @submitForApproval ctx rid post r p id =>
    -- a dispatched package would fail `c_reliefpkg_2`
    rintro _ ⟨⟩
    have hp := hc.pkg _ rfl
    simp only [ReliefPkg.Check, ReliefPkg.submitted] at hp
    have hd : (p.getD (newPkg ctx r id)).dispatchDtime = none := by simpa using hp
    exact ⟨rfl, .inl ⟨rfl, hd, .inr rfl⟩⟩
  | sendForDispatch | approveAndDispatch | reviewApproveAndDispatch | submitForDispatch =>
    rintro _ ⟨⟩
    exact ⟨rfl, .inr rfl⟩
  | saveDraftApproval ok =>
    rintro _ ⟨⟩
    obtain ⟨hst, hq⟩ := ha _ rfl _ rfl
    rcases hq with hq | hq
    · exact ⟨hst, .inl ⟨rfl, hq.2⟩⟩
    · cases ok.pending.symm.trans hq
  | reviewReject ok =>
    rintro _ ⟨⟩
    exact ⟨(ha _ rfl _ rfl).1, .inl ⟨rfl, ok.undispatched, .inl rfl⟩⟩
  | cancelPackage => intro p hp; cases hp
  | markHandover role status =>
    rintro _ ⟨⟩
    exact ⟨(ha _ rfl _ rfl).1, .inr status⟩

/-! ## The partition -/

section
variable {t : Tables} {r : ReliefRqst}

theorem requestQueue_unique (hu : UniquePkg t) (hq : ∀ x h, t.header x = some h → Queued h)
    (hr : r ∈ t.reliefrqst.rows) (hs : r.statusCode = .submitted ∨ r.statusCode = .partFilled) :
    ∃! q, InRequestQueue t r q := by
  have hqr := hq _ _ (header_of_mem hr)
  have hp := packages_eq hu r.reliefrqstId
  cases hf : t.firstPkg r.reliefrqstId with
  | none =>
    rw [hf] at hp
    have h1 : hasPendingApproval t r = false := by simp [hasPendingApproval, hp]
    have h2 : hasDispatchedPackage t r = false := by simp [hasDispatchedPackage, hp]
    rcases hs with hs | hs
    · refine ⟨.awaiting, by simp [InRequestQueue, awaitingRequests, Table.select, hr, hs, h1, h2], fun q hq => ?_⟩
      cases q <;> simp_all [InRequestQueue, awaitingRequests, inProgressRequests, pendingApprovalRequests,
        Table.select]
    · refine ⟨.inProgress, by simp [InRequestQueue, inProgressRequests, Table.select, hr, hs, h1, h2], fun q hq => ?_⟩
      cases q <;> simp_all [InRequestQueue, awaitingRequests, inProgressRequests, pendingApprovalRequests,
        Table.select]
  | some p =>
    rw [hf] at hp
    obtain ⟨hs, hpk⟩ := hqr p hf
    simp only at hs
    rcases hpk with ⟨h1, h2, h3⟩ | h1
    · have hd : hasDispatchedPackage t r = false := by simp [hasDispatchedPackage, hp, h1]
      rcases h3 with h3 | h3
      · have hpa : hasPendingApproval t r = false := by simp [hasPendingApproval, hp, h3]
        refine ⟨.inProgress, by simp [InRequestQueue, inProgressRequests, Table.select, hr, hs, hd, hpa],
          fun q hq => ?_⟩
        cases q <;> simp_all [InRequestQueue, awaitingRequests, inProgressRequests, pendingApprovalRequests,
          Table.select]
      · have hpa : hasPendingApproval t r = true := by simp [hasPendingApproval, hp, hs, h1, h2, h3]
        refine ⟨.pendingApproval, by simp [InRequestQueue, pendingApprovalRequests, Table.select, hr, hs, hpa],
          fun q hq => ?_⟩
        cases q <;> simp_all [InRequestQueue, awaitingRequests, inProgressRequests, pendingApprovalRequests,
          Table.select]
    · have hd : hasDispatchedPackage t r = true := by simp [hasDispatchedPackage, hp, h1]
      have hpa : hasPendingApproval t r = false := by simp [hasPendingApproval, hp, h1]
      refine ⟨.dispatched, hd, fun q hq => ?_⟩
      cases q <;> simp_all [InRequestQueue, awaitingRequests, inProgressRequests, pendingApprovalRequests,
        Table.select]

theorem pendingApprovalPage_eq (hu : UniquePkg t) (hq : ∀ x h, t.header x = some h → Queued h) :
    pendingApprovalPage t = pendingApprovalRequests t := by
  refine List.filter_congr fun r hr => ?_
  have hqr := hq _ _ (header_of_mem hr)
  have hp := packages_eq hu r.reliefrqstId
  simp only [hasPendingApproval, hp]
  cases hf : t.firstPkg r.reliefrqstId with
  | none => simp
  | some p =>
    obtain ⟨hs, hpk⟩ := hqr p hf
    simp only at hs
    rcases hpk with ⟨h1, h2, h3 | h3⟩ | h1 <;> simp [*]

theorem packageQueue_unique (hc : t.Consistent) {p : ReliefPkg} (hp : p ∈ t.reliefpkg.rows)
    (hd : p.statusCode = .dispatched) (hrec : p.receivedDtime = none) : ∃! q, InPackageQueue t p q := by
  have hnn : 0 ≤ pkgTotal t p := List.sum_nonneg fun q hq => by
    obtain ⟨i, hi, rfl⟩ := List.mem_map.1 hq
    exact hc.pkgItem i (mem_pkgItems.1 hi).1
  rcases hnn.lt_or_eq with hpos | hz
  · refine ⟨.withItems, by simp [InPackageQueue, approvedPackagesWithItems, Table.select, hp, hd, hrec, hpos.ne'],
      fun q hq => ?_⟩
    cases q with
    | withItems => rfl
    | noItems =>
      have := (List.mem_filter.1 hq).2
      simp [hpos] at this
  · refine ⟨.noItems, by simp [InPackageQueue, approvedPackagesNoItems, Table.select, hp, hd, hrec, ← hz],
      fun q hq => ?_⟩
    cases q with
    | withItems =>
      have := (List.mem_filter.1 hq).2
      simp [← hz] at this
    | noItems => rfl

end

theorem headers_of_no_packages {I : Header → Prop} (hI : ∀ r, I ⟨r, none⟩) {db : Database}
    (h0 : db.tables.reliefpkg.rows = []) : Headers I db := by
  refine ⟨by simp [UniquePkg, h0], fun x h hh => ?_⟩
  obtain ⟨r, -, rfl⟩ := Option.map_eq_some_iff.1 hh
  have : db.tables.firstPkg x = none := by simp [Tables.firstPkg, Tables.packages, Table.select, h0]
  rw [this]; exact hI r

/-- **The queues partition the work**, in every state reachable from requests without packages. -/
theorem queues_partition (db : Database) (h0 : db.tables.reliefpkg.rows = []) (ops : List Op) :
    let t := (run step db ops).tables
    (∀ rqstId, (t.packages rqstId).length ≤ 1) ∧
    (∀ r ∈ t.reliefrqst.rows, r.statusCode = .submitted ∨ r.statusCode = .partFilled →
      ∃! q, InRequestQueue t r q) ∧
    pendingApprovalPage t = pendingApprovalRequests t ∧
    (∀ p ∈ t.reliefpkg.rows, p.statusCode = .dispatched → p.receivedDtime = none →
      ∃! q, InPackageQueue t p q) := by
  obtain ⟨hu, hq⟩ := run_headers headerStep_queued
    (headers_of_no_packages (I := Queued) (fun _ _ hp => by cases hp) h0) ops
  refine ⟨fun rqstId => ?_, fun r hr hs => requestQueue_unique hu hq hr hs, pendingApprovalPage_eq hu hq,
    fun p hp hd hrec => packageQueue_unique (run step db ops).consistent hp hd hrec⟩
  rw [packages_eq hu]
  cases (run step db ops).tables.firstPkg rqstId <;> simp

/-- A submitted package is in the pending-approval tab and in no other. -/
theorem queues_partition_site :
    ∃! q, InRequestQueue (run step Site.db [.preparePackage Site.officer 1 .submitForApproval
      (Site.post 3 .absent 2)]).tables (Site.rqst.actedOn Site.officer) q :=
  (queues_partition Site.db rfl _).2.1 _ (by decide +kernel) (.inr rfl)

end Dmis
