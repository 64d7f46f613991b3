import Dmis.Cancellation

/-!
# What a request claims after a cancellation

`issue_qty` and the status of an item are written together with its package rows (`packaging.py:1970-2012`).
`cancel_relief_package` (`inventory_reservation_service.py:565-574`) and `cancel_preparation`
(`packaging.py:2063-2094`) delete the rows and leave the items of the request as they are. The request holds
nothing afterwards, so its claims are right exactly when it claimed nothing (`cancellation_claims`).
-/

namespace Dmis

open Relational Keyed

/-- What the packages of a request hold of an item. -/
def Tables.heldTotal (t : Tables) (rqstId itemId : Nat) : ℚ :=
  ((t.packages rqstId).map fun p => itemTotal (t.pkgItems p.reliefpkgId) itemId).sum

/-- The request claims what its packages hold, under a status that fits it. -/
def ClaimsHeld (t : Tables) (rqstId : Nat) : Prop :=
  ∀ i ∈ t.rqstItems rqstId, i.issueQty = t.heldTotal rqstId i.itemId ∧
    ReliefRqstItem.C2a { i with issueQty := t.heldTotal rqstId i.itemId }

/-- The operation cancels a package of the request, or the preparation of one. -/
def Op.Cancels (t : Tables) (rqstId : Nat) : Op → Prop
  | .cancelPackage _ pkgId => ∃ p ∈ t.reliefpkg.get? pkgId, p.reliefrqstId = rqstId
  | .cancelPreparation r => r = rqstId
  | _ => False

section
variable {t t' : Tables} {rqstId : Nat} {op : Op} {db : Database}

theorem heldTotal_of_empty (h : ∀ p ∈ t.packages rqstId, t.pkgItems p.reliefpkgId = []) (itemId : Nat) :
    t.heldTotal rqstId itemId = 0 := by
  refine List.sum_eq_zero fun q hq => ?_
  obtain ⟨p, hp, rfl⟩ := List.mem_map.1 hq
  simp [itemTotal, h p hp]

/-- **A cancellation** leaves the request without rows, and its items as they were. -/
theorem route_cancels (hu : UniquePkg t) (hC : op.Cancels t rqstId) (h : op.route t = .ok t') :
    t'.reliefrqstItem = t.reliefrqstItem ∧ ∀ p ∈ t'.packages rqstId, t'.pkgItems p.reliefpkgId = [] := by
  cases op with
  | cancelPackage ctx pkgId =>
    obtain ⟨p, hp, hr⟩ := hC
    simp only [Op.route, cancelPackage, bind_ok] at h
    obtain ⟨_, -, hcancel⟩ := h
    obtain ⟨_, -, -, hf, -⟩ := cancelReliefPackage_ok hcancel
    refine ⟨by rw [hf], fun q hq => ?_⟩
    -- the request had no other package
    rw [hf] at hq
    obtain ⟨hm, hqr⟩ := List.mem_filter.1 hq
    obtain ⟨hm, hne⟩ := List.mem_filter.1 hm
    have hqp : q = p := List.inj_on_of_nodup_map hu hm (Table.mem_of_get? hp) ((of_decide_eq_true hqr).trans hr.symm)
    have hid : p.reliefpkgId = pkgId := Table.key_of_get? hp
    simp [hqp, hid] at hne
  | cancelPreparation r =>
    cases hC
    simp only [Op.route] at h
    cases hf : t.firstPkg rqstId with
    | none =>
      have hnone : t.packages rqstId = [] := List.head?_eq_none_iff.1 hf
      simp only [cancelPreparation, hf] at h
      rw [releaseAllReservations_of_empty (fun p hp => by rw [hf] at hp; cases hp)] at h
      cases h
      refine ⟨rfl, fun p hp => ?_⟩
      rw [hnone] at hp
      cases hp
    | some p =>
      rw [cancelPreparation_eq hf] at h
      cases h
      refine ⟨rfl, fun q hq => ?_⟩
      have hqp : q ∈ t.packages rqstId := hq
      rw [packages_eq hu, hf, Option.toList_some, List.mem_singleton] at hqp
      rw [hqp, pkgItems_emptied]
  | _ => exact hC.elim

theorem step_cancels (hu : UniquePkg db.tables) (hC : op.Cancels db.tables rqstId) (hcom : Commits db op) :
    (step db op).tables.rqstItems rqstId = db.tables.rqstItems rqstId ∧
    ∀ itemId, (step db op).tables.heldTotal rqstId itemId = 0 := by
  obtain ⟨t, ht, -, he⟩ := step_of_commits hcom
  obtain ⟨hitems, hempty⟩ := route_cancels hu hC ht
  constructor
  · rw [he]
    conv_rhs => rw [← db.consistent.stored]
    simp only [Tables.rqstItems, Tables.rounded, hitems]
  · refine heldTotal_of_empty fun p hp => List.eq_nil_iff_forall_not_mem.2 fun i hi => ?_
    rw [he] at hp hi
    -- a stored row is a row of the session
    obtain ⟨hm, hid⟩ := mem_pkgItems.1 hi
    obtain ⟨j, hj, rfl⟩ := List.mem_map.1 hm
    have hrow : j ∈ t.pkgItems p.reliefpkgId := mem_pkgItems.2 ⟨hj, hid⟩
    rw [hempty p hp] at hrow
    cases hrow

theorem claimsHeld_iff (hu : UniquePkg db.tables) (hC : op.Cancels db.tables rqstId) (hcom : Commits db op) :
    ClaimsHeld (step db op).tables rqstId ↔ ∀ i ∈ db.tables.rqstItems rqstId, i.issueQty = 0 := by
  obtain ⟨hitems, hheld⟩ := step_cancels hu hC hcom
  unfold ClaimsHeld
  simp only [hitems, hheld]
  refine forall₂_congr fun i hi => ⟨And.left, fun hzero => ⟨hzero, ?_⟩⟩
  have hsame : { i with issueQty := 0 } = i := by rw [← hzero]
  rw [hsame]
  exact (db.consistent.rqstItem i (Tables.mem_rqstItems.1 hi).1).2.1

end

/-- **A cancelled package leaves the claims right exactly when there were none**: along every run from a reachable
state, for every cancellation that goes through. -/
theorem cancellation_claims (db : Database) (hreach : Reachable db) (ops : List Op) :
    Along step (fun s op => ∀ rqstId, op.Cancels s.tables rqstId → Commits s op →
      (ClaimsHeld (step s op).tables rqstId ↔ ∀ i ∈ s.tables.rqstItems rqstId, i.issueQty = 0)) db ops :=
  Along.imp (I := fun s : Database => UniquePkg s.tables) (fun _ op hu _ => (step_header hu op).1)
    (fun _ _ hu _ _ hC hcom => claimsHeld_iff hu hC hcom) hreach.unique (.of_forall (fun _ _ => trivial) ops db)

/-- The draft that takes nothing is saved and its preparation cancelled. -/
theorem cancellation_claims_site : ClaimsHeld (step Site.emptyDraft (.cancelPreparation 1)).tables 1 :=
  ((cancellation_claims Site.emptyDraft ((Reachable.initial rfl).step _) [.cancelPreparation 1]).1 1 rfl
    (by decide +kernel)).2 (by decide +kernel)

/-- A draft of two units, cancelled either way: the request holds nothing and claims two. -/
theorem cancellation_claims_stay :
    Reachable Site.drafted ∧
    (Commits Site.drafted (.cancelPackage Site.manager 1) ∧
      ¬ ClaimsHeld (step Site.drafted (.cancelPackage Site.manager 1)).tables 1) ∧
    Commits Site.drafted (.cancelPreparation 1) ∧
    ¬ ClaimsHeld (step Site.drafted (.cancelPreparation 1)).tables 1 := by
  have hreach : Reachable Site.drafted := (Reachable.initial rfl).step _
  have hpkg : (Op.cancelPackage Site.manager 1).Cancels Site.drafted.tables 1 := by
    simp only [Op.Cancels]
    decide +kernel
  have hprep : (Op.cancelPreparation 1).Cancels Site.drafted.tables 1 := rfl
  have hclaim : ¬ ∀ i ∈ Site.drafted.tables.rqstItems 1, i.issueQty = 0 := by decide +kernel
  refine ⟨hreach, ⟨by decide +kernel, fun h => hclaim ?_⟩, by decide +kernel, fun h => hclaim ?_⟩
  · exact (claimsHeld_iff hreach.unique hpkg (by decide +kernel)).1 h
  · exact (claimsHeld_iff hreach.unique hprep (by decide +kernel)).1 h

end Dmis
