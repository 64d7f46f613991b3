import Dmis.IssueChecks
import Dmis.OneStepDispatch

/-!
# Status, issued quantity and allocation

`_process_allocations` lets a form choose the status of an item among those `compute_allowed_statuses` has for the
quantity allocated, and sets `issue_qty` by the status (`packaging.py:1938-1988`). `validate_status_transition` returns
before it looks at the quantity when the status stays as it was (`item_status_service.py:131-133`), so a status that was
right for the last allocation passes for any other, and an item of which part is allocated is issued a cent less than
requested at most. `items_agree`: this apart, the three agree after every save.
-/

namespace Dmis

open Relational Keyed

/-- `has_allocation_activity`: the package has a row of the item, or the form a field. -/
def Tables.hasActivity (t : Tables) (rqstId : Nat) (form : Form) (itemId : Nat) : Bool :=
  ((t.firstPkg rqstId).any fun p => itemId ∈ (t.pkgItems p.reliefpkgId).map ReliefPkgItem.itemId) ||
    form.allocations.any fun f => f.itemId = itemId

/-- The total `_process_allocations` allocates to an item. -/
def Form.total (form : Form) (itemId : Nat) : ℚ := (form.typed itemId).sum

/-- The status the form asks for; without one, that of the quantity. -/
def Form.requestedStatus (form : Form) (i : ReliefRqstItem) : FormStatus :=
  (form.status i.itemId).getD (.code (calculatedStatus (form.total i.itemId) i.requestQty))

/-- What `compute_allowed_statuses` allows for what the form allocates to the item. -/
def Tables.allowed (t : Tables) (ctx : Ctx) (rqstId : Nat) (form : Form) (i : ReliefRqstItem) : List ItemStatus :=
  (computeAllowedStatuses ctx.activeItemStatuses (form.total i.itemId) i.requestQty
    (t.hasActivity rqstId form i.itemId)).2

/-- An item to which `total` was allocated, and which may have the statuses `allowed`. -/
structure ItemAgrees (allowed : List ItemStatus) (total : ℚ) (i : ReliefRqstItem) : Prop where
  allowed : i.statusCode ∈ allowed
  filled : i.statusCode = .filled ↔ total = i.requestQty
  partly : i.statusCode ∈ [ItemStatus.partlyFilled, .limitAllowed] ↔ 0 < total ∧ total < i.requestQty
  unfilled : i.statusCode ∈ [ItemStatus.requested, .unavailable, .denied, .waiting] ↔ total = 0
  issued : i.issueQty = total

/-- Every item of the request agrees in `t'` with what the form allocates to it in `t`. -/
def ItemsAgreeWith (ctx : Ctx) (form : Form) (rqstId : Nat) (t t' : Tables) : Prop :=
  ∀ i ∈ t'.rqstItems rqstId, ItemAgrees (t.allowed ctx rqstId form i) (form.total i.itemId) i

/-- A status that is kept could be given now. -/
def KeptStatusesFit (ctx : Ctx) (form : Form) (rqstId : Nat) (t : Tables) : Prop :=
  ∀ i ∈ t.rqstItems rqstId, form.requestedStatus i = .code i.statusCode → i.statusCode ∈ t.allowed ctx rqstId form i

/-- What is less than the request leaves a cent of it. -/
def PartsLeaveACent (form : Form) (rqstId : Nat) (t : Tables) : Prop :=
  ∀ i ∈ t.rqstItems rqstId, form.total i.itemId < i.requestQty → form.total i.itemId ≤ i.requestQty - 1 / 100

/-- What is less than the request is in cents. -/
def PartsInCents (form : Form) (rqstId : Nat) (t : Tables) : Prop :=
  ∀ i ∈ t.rqstItems rqstId, form.total i.itemId < i.requestQty → AtScale 2 (form.total i.itemId)

section
variable {t t' u t₁ : Tables} {ctx : Ctx} {form : Form} {vc : Bool} {r : ReliefRqst} {p : ReliefPkg} {new : List Alloc}
  {old : Allocations} {plans : List ItemPlan} {batches : Table ItemBatch} {totals : Table Inventory}
  {item : ReliefRqstItem} {plan : ItemPlan}

/-! ## The settled status -/

/-- What the form asks for is given: the old status, or one that is allowed. -/
theorem planItem_status (h : planItem ctx form vc batches totals old item = .ok plan) :
    form.requestedStatus item = .code plan.2.statusCode ∧
    (plan.2.statusCode = item.statusCode ∨
      plan.2.statusCode ∈ (computeAllowedStatuses ctx.activeItemStatuses (form.total item.itemId) item.requestQty
        (decide (item.itemId ∈ old.keys.map BatchKey.itemId ∨
          form.allocations.filter (fun f => f.itemId = item.itemId) ≠ []))).2) := by
  have htyped := (planItem_ok h).typed
  simp only [planItem, bind_ok, pure_ok] at h
  obtain ⟨as, has, _, _, _, _, s, hs, rfl⟩ := h
  simp only at htyped
  have hv := validateStatusTransition_allowed hs
  rw [htyped] at hv
  exact hv

/-- The old allocations are the rows of the request's package. -/
theorem Processed.activity (hc : t.Consistent) (h : Processed ctx form vc r t t' new old p t₁ plans) (itemId : Nat) :
    decide (itemId ∈ old.keys.map BatchKey.itemId ∨ form.allocations.filter (fun f => f.itemId = itemId) ≠ []) =
      t.hasActivity r.reliefrqstId form itemId := by
  have hkeys : old.keys.map BatchKey.itemId = (t.pkgItems p.reliefpkgId).map ReliefPkgItem.itemId := by
    rw [h.old_eq, getOrCreatePkg_frame h.pkg]
    simp only [Table.keys, Tables.allocations, List.map_map]
    rfl
  have hfields : form.allocations.filter (fun f => f.itemId = itemId) ≠ [] ↔
      ∃ f ∈ form.allocations, f.itemId = itemId := by
    simp [List.filter_eq_nil_iff]
  rw [hkeys, Bool.eq_iff_iff, decide_eq_true_eq, hfields, Tables.hasActivity, Bool.or_eq_true, List.any_eq_true]
  simp only [decide_eq_true_eq]
  rcases getOrCreatePkg_rows hc h.pkg with hf | ⟨hf, -, hnil⟩
  · rw [hf, Option.any_some, decide_eq_true_eq]
  · rw [hf, hnil]
    simp

/-! ## One item -/

theorem issueQtyFor_unfilled {s : ItemStatus} (h : s ∈ [ItemStatus.requested, .unavailable, .denied, .waiting])
    (total requested : ℚ) : issueQtyFor s total requested = 0 := by
  cases s <;> first | rfl | simp at h

theorem issueQtyFor_partly {s : ItemStatus} (h : s ∈ [ItemStatus.partlyFilled, .limitAllowed]) (total requested : ℚ) :
    issueQtyFor s total requested = min total (requested - 1 / 100) := by
  cases s <;> first | rfl | simp at h

theorem unfilled_only {s : ItemStatus} (h : s ∈ [ItemStatus.requested, .unavailable, .denied, .waiting]) :
    s ≠ .filled ∧ s ∉ [ItemStatus.partlyFilled, .limitAllowed] := by
  cases s <;> simp at h ⊢

theorem partly_only {s : ItemStatus} (h : s ∈ [ItemStatus.partlyFilled, .limitAllowed]) :
    s ≠ .filled ∧ s ∉ [ItemStatus.requested, .unavailable, .denied, .waiting] := by
  cases s <;> simp at h ⊢

/-- A status that is allowed agrees with the quantity, and so does `issue_qty`, stored by `s`, unless it is capped. -/
theorem itemAgrees_iff (active : List ItemStatus) (a : Bool) {total : ℚ} {i : ReliefRqstItem} {s : ℚ → ℚ} (hs : s 0 = 0)
    (hr : s i.requestQty = i.requestQty) (hcent : 1 / 100 ≤ i.requestQty) (h0 : 0 ≤ total)
    (hle : total ≤ i.requestQty) (hi : i.issueQty = s (issueQtyFor i.statusCode total i.requestQty)) :
    ItemAgrees (computeAllowedStatuses active total i.requestQty a).2 total i ↔
      i.statusCode ∈ (computeAllowedStatuses active total i.requestQty a).2 ∧
        (total < i.requestQty → s (min total (i.requestQty - 1 / 100)) = total) := by
  constructor
  · intro hA
    refine ⟨hA.allowed, fun hlt => ?_⟩
    rcases h0.eq_or_lt with hz | hpos
    · rw [← hz, min_eq_left (by linarith), hs]
    · rw [← issueQtyFor_partly (hA.partly.2 ⟨hpos, hlt⟩), ← hi]
      exact hA.issued
  · rintro ⟨hal, hcap⟩
    rcases mem_statusOptions hle (statusOptions_of_allowed hal) with ⟨hz, hst⟩ | ⟨hz, he, hst⟩ | ⟨hz, hlt, hst⟩
    · -- nothing is allocated
      obtain ⟨hnf, hnp⟩ := unfilled_only hst
      refine ⟨hal, iff_of_false hnf ?_, iff_of_false hnp ?_, iff_of_true hst hz, ?_⟩
      · linarith
      · rintro ⟨hpos, -⟩
        exact hpos.ne' hz
      · rw [hi, issueQtyFor_unfilled hst, hs, hz]
    · -- all that was requested
      refine ⟨hal, iff_of_true hst he, ?_, ?_, ?_⟩
      · simp [hst, he]
      · simp [hst, hz]
      · rw [hi, hst, he]
        exact hr
    · -- part of it
      obtain ⟨hnf, hnu⟩ := partly_only hst
      have hpos : 0 < total := lt_of_le_of_ne h0 (Ne.symm hz)
      refine ⟨hal, iff_of_false hnf hlt.ne, iff_of_true hst ⟨hpos, hlt⟩, iff_of_false hnu hz, ?_⟩
      rw [hi, issueQtyFor_partly hst]
      exact hcap hlt

/-! ## The items of the request -/

/-- The items of the request are those planned. -/
theorem Processed.forall_rqstItems (h : Processed ctx form vc r t t' new old p t₁ plans) {P : ReliefRqstItem → Prop} :
    (∀ i ∈ t'.rqstItems r.reliefrqstId, P i) ↔ ∀ plan ∈ plans, P plan.2 := by
  have hrow : ∀ plan ∈ plans, ∃ item ∈ t.rqstItems r.reliefrqstId, key plan.2 = key item := fun plan hm => by
    obtain ⟨item, hitem, hok⟩ := exists_of_forall₂_right h.planOk plan hm
    refine ⟨item, hitem, ?_⟩
    rw [hok.row]
    rfl
  have hkeys : plans.map (fun plan => key plan.2) = (t.rqstItems r.reliefrqstId).map key := by
    refine (map_eq_of_forall₂ (fun item plan hok => ?_) h.planOk).symm
    rw [PlanOk.row hok]
    rfl
  have hn : (plans.map fun plan => key plan.2).Nodup := by
    rw [hkeys]
    exact t.reliefrqstItem.nodup.sublist (List.filter_sublist.map key)
  have hget : ∀ plan ∈ plans, t'.reliefrqstItem.get? (key plan.2) = some plan.2 := fun plan hm => by
    rw [h.items]
    refine Table.get?_foldl_set (f := Prod.snd) hn hm ?_
    obtain ⟨item, hitem, hk⟩ := hrow plan hm
    rw [hk, Table.get?_key (Tables.mem_rqstItems.1 hitem).1]
    exact Option.some_ne_none item
  constructor
  · intro hall plan hm
    refine hall plan.2 (Tables.mem_rqstItems.2 ⟨Table.mem_of_get? (hget plan hm), ?_⟩)
    obtain ⟨item, hitem, hk⟩ := hrow plan hm
    exact (congrArg Prod.fst hk).trans (Tables.mem_rqstItems.1 hitem).2
  · intro hall i hi
    obtain ⟨hi, hid⟩ := Tables.mem_rqstItems.1 hi
    -- a row of the request has the key of a planned one
    have hk : key i ∈ (t.rqstItems r.reliefrqstId).map key := by
      rw [h.items] at hi
      rcases Table.mem_foldl_set hi with hi | ⟨plan, hm, rfl⟩
      · exact List.mem_map_of_mem (Tables.mem_rqstItems.2 ⟨hi, hid⟩)
      · rw [← hkeys]
        exact List.mem_map_of_mem hm
    rw [← hkeys] at hk
    obtain ⟨plan, hm, hk⟩ := List.mem_map.1 hk
    have hsame := (Table.get?_key hi).symm.trans (hk ▸ hget plan hm)
    cases Option.some.inj hsame
    exact hall plan hm

/-- The settled status is allowed exactly when it is new, or was kept and is allowed now. -/
theorem planned_allowed (hc : t.Consistent) (h : Processed ctx form vc r t t' new old p t₁ plans)
    (hplan : planItem ctx form vc t.itembatch t.inventory old item = .ok plan) :
    plan.2.statusCode ∈ t.allowed ctx r.reliefrqstId form item ↔
      (form.requestedStatus item = .code item.statusCode → item.statusCode ∈ t.allowed ctx r.reliefrqstId form item) := by
  obtain ⟨hask, hgiven⟩ := planItem_status hplan
  rw [h.activity hc] at hgiven
  constructor
  · intro hal hkept
    have he : item.statusCode = plan.2.statusCode := FormStatus.code.inj (hkept.symm.trans hask)
    exact he ▸ hal
  · intro hfit
    rcases hgiven with he | hal
    · rw [he]
      exact hfit (he ▸ hask)
    · exact hal

/-- What is allocated to an item is between nothing and what was requested. -/
theorem planned_total (hplan : planItem ctx form vc batches totals old item = .ok plan) :
    0 ≤ form.total item.itemId ∧ form.total item.itemId ≤ item.requestQty := by
  have hok := planItem_ok hplan
  rw [Form.total, ← hok.typed]
  refine ⟨List.sum_nonneg fun q hq => ?_, hok.limit⟩
  obtain ⟨a, ha, rfl⟩ := List.mem_map.1 hq
  obtain ⟨f, -, hr⟩ := exists_of_forall₂_right hok.reads a ha
  exact safeQuantity_nonneg hr.qty

/-- A saved item agrees exactly when its status, if it was kept, could be given, and `s` keeps the part allocated. -/
theorem planned_agrees (hc : t.Consistent) (h : Processed ctx form vc r t t' new old p t₁ plans)
    (hitem : item ∈ t.rqstItems r.reliefrqstId)
    (hplan : planItem ctx form vc t.itembatch t.inventory old item = .ok plan) {i : ReliefRqstItem} {s : ℚ → ℚ}
    (hs : s 0 = 0) (hs2 : ∀ q, AtScale 2 q → s q = q) (hid : i.itemId = item.itemId)
    (hreq : i.requestQty = item.requestQty) (hst : i.statusCode = plan.2.statusCode)
    (hissue : i.issueQty = s plan.2.issueQty) :
    ItemAgrees (t.allowed ctx r.reliefrqstId form i) (form.total i.itemId) i ↔
      (form.requestedStatus item = .code item.statusCode → item.statusCode ∈ t.allowed ctx r.reliefrqstId form item) ∧
      (form.total item.itemId < item.requestQty →
        s (min (form.total item.itemId) (item.requestQty - 1 / 100)) = form.total item.itemId) := by
  have hok := planItem_ok hplan
  have hmem := (Tables.mem_rqstItems.1 hitem).1
  have hscale := (stored_requestQty hc hmem).1
  have hcent := cent_le hscale (hc.rqstItem item hmem).1
  obtain ⟨h0, hle⟩ := planned_total hplan
  have hissue' : i.issueQty = s (issueQtyFor i.statusCode (form.total item.itemId) i.requestQty) := by
    rw [hissue, hok.row, hok.typed, hst, hreq]
    rfl
  have hiff := itemAgrees_iff ctx.activeItemStatuses (t.hasActivity r.reliefrqstId form item.itemId) hs
    (by rw [hreq]; exact hs2 _ hscale) (by rw [hreq]; exact hcent) h0 (by rw [hreq]; exact hle) hissue'
  rw [Tables.allowed, hid, hiff, hreq, hst]
  exact and_congr_left fun _ => planned_allowed hc h hplan

/-- **What is saved agrees exactly when the kept statuses fit**, and `s`, by which it is stored, keeps the parts. -/
theorem processed_agrees (hc : t.Consistent) (h : Processed ctx form vc r t t' new old p t₁ plans)
    (hplans : List.Forall₂ (fun item plan => planItem ctx form vc t.itembatch t.inventory old item = .ok plan)
      (t.rqstItems r.reliefrqstId) plans) {s : ℚ → ℚ} (hs : s 0 = 0) (hs2 : ∀ q, AtScale 2 q → s q = q)
    {f : ReliefRqstItem → ReliefRqstItem} (hid : ∀ i, (f i).itemId = i.itemId)
    (hreq : ∀ i, AtScale 2 i.requestQty → (f i).requestQty = i.requestQty) (hst : ∀ i, (f i).statusCode = i.statusCode)
    (hissue : ∀ i, (f i).issueQty = s i.issueQty) :
    (∀ i ∈ t'.rqstItems r.reliefrqstId,
      ItemAgrees (t.allowed ctx r.reliefrqstId form (f i)) (form.total (f i).itemId) (f i)) ↔
      KeptStatusesFit ctx form r.reliefrqstId t ∧ ∀ i ∈ t.rqstItems r.reliefrqstId, form.total i.itemId < i.requestQty →
        s (min (form.total i.itemId) (i.requestQty - 1 / 100)) = form.total i.itemId := by
  rw [h.forall_rqstItems, KeptStatusesFit, ← forall₂_and]
  refine (forall_iff_of_forall₂ hplans fun item hitem plan hplan => ?_).symm
  have hscale := (stored_requestQty hc (Tables.mem_rqstItems.1 hitem).1).1
  have hrow := (planItem_ok hplan).row
  have hid' : plan.2.itemId = item.itemId := by rw [hrow]
  have hreq' : plan.2.requestQty = item.requestQty := by rw [hrow]
  exact (planned_agrees hc h hitem hplan hs hs2 ((hid _).trans hid') ((hreq _ (hreq' ▸ hscale)).trans hreq')
    (hst _) (hissue _)).symm

/-- Less than a request in cents is stored as it is, up to a cent less, exactly when it is in cents. -/
theorem numeric_cap_eq_iff {q r : ℚ} (hr : AtScale 2 r) (hlt : q < r) :
    numeric 2 (min q (r - 1 / 100)) = q ↔ AtScale 2 q := by
  constructor
  · intro h
    rw [← h]
    exact numeric_atScale 2 _
  · intro hq
    have hcent := cent_le (hr.sub hq) (sub_pos.2 hlt)
    rw [min_eq_left (by linarith)]
    exact hq

end

/-- **After a save the status, the issued quantity and the allocation of every item agree exactly when each status that
was kept could be given now**, and a part of a request leaves a cent of it, or, as it is stored, is in cents. -/
theorem items_agree (db : Database) (ctx : Ctx) (form : Form) (vc : Bool) (r : ReliefRqst) (t' : Tables)
    (new : List Alloc) (old : Allocations) (h : processAllocations ctx form vc r db.tables = .ok (t', new, old)) :
    (ItemsAgreeWith ctx form r.reliefrqstId db.tables t' ↔
      KeptStatusesFit ctx form r.reliefrqstId db.tables ∧ PartsLeaveACent form r.reliefrqstId db.tables) ∧
    (ItemsAgreeWith ctx form r.reliefrqstId db.tables t'.rounded ↔
      KeptStatusesFit ctx form r.reliefrqstId db.tables ∧ PartsInCents form r.reliefrqstId db.tables) := by
  have hc := db.consistent
  obtain ⟨p, t₁, plans, hp, hplans⟩ := processAllocations_plans h
  constructor
  · have hiff := processed_agrees hc hp hplans (s := id) rfl (fun q _ => rfl) (f := id) (fun i => rfl) (fun i _ => rfl)
      (fun i => rfl) fun i => rfl
    refine hiff.trans (and_congr_right fun _ => forall₂_congr fun i _ => imp_congr_right fun _ => ?_)
    exact min_eq_left_iff
  · have hiff := processed_agrees hc hp hplans (s := numeric 2) (numeric_zero 2) (fun q hq => hq)
      (f := ReliefRqstItem.rounded) (fun i => rfl) (fun i hi => hi) (fun i => rfl) fun i => rfl
    rw [ItemsAgreeWith, forall_rqstItems_rounded]
    refine hiff.trans (and_congr_right fun _ => forall₂_congr fun i hi => imp_congr_right fun hlt => ?_)
    exact numeric_cap_eq_iff (stored_requestQty hc (Tables.mem_rqstItems.1 hi).1).1 hlt

namespace Site

/-- The draft is emptied, and the item stays partly filled. -/
def emptied : Form := { form 0 with status := fun _ => some (.code .partlyFilled) }

end Site

theorem items_agree_site :
    ∃ t' new old, processAllocations Site.officer (Site.form 3) false Site.rqst Site.drafted.tables =
        .ok (t', new, old) ∧ ItemsAgreeWith Site.officer (Site.form 3) 1 Site.drafted.tables t'.rounded := by
  have hok : (processAllocations Site.officer (Site.form 3) false Site.rqst Site.drafted.tables).isOk = true := by
    decide +kernel
  cases h : processAllocations Site.officer (Site.form 3) false Site.rqst Site.drafted.tables with
  | error e =>
    rw [h] at hok
    cases hok
  | ok x =>
    obtain ⟨t', new, old⟩ := x
    refine ⟨t', new, old, rfl, ((items_agree Site.drafted Site.officer (Site.form 3) false Site.rqst t' new old h).2).2
      ⟨?_, ?_⟩⟩
    · unfold KeptStatusesFit
      decide +kernel
    · unfold PartsInCents
      decide +kernel

/-- Nothing is allocated, and the item stays partly filled. -/
theorem kept_status_disagrees :
    ∃ t' new old, processAllocations Site.officer Site.emptied false Site.rqst Site.drafted.tables =
        .ok (t', new, old) ∧ t'.rounded.Consistent ∧
      (t'.rounded.rqstItems 1).map (fun i => (i.statusCode, i.issueQty, Site.emptied.total i.itemId)) =
        [(.partlyFilled, 0, 0)] ∧
      ¬ ItemsAgreeWith Site.officer Site.emptied 1 Site.drafted.tables t'.rounded := by
  have hval : (processAllocations Site.officer Site.emptied false Site.rqst Site.drafted.tables).toOption.map (fun x =>
      (decide x.1.rounded.Consistent, (x.1.rounded.rqstItems 1).map fun i =>
        (i.statusCode, i.issueQty, Site.emptied.total i.itemId))) = some (true, [(.partlyFilled, 0, 0)]) := by
    decide +kernel
  cases h : processAllocations Site.officer Site.emptied false Site.rqst Site.drafted.tables with
  | error e =>
    rw [h] at hval
    cases hval
  | ok x =>
    obtain ⟨t', new, old⟩ := x
    simp only [h, Except.toOption, Option.map_some, Option.some.injEq, Prod.mk.injEq, decide_eq_true_eq] at hval
    obtain ⟨hcon, hrows⟩ := hval
    refine ⟨t', new, old, rfl, hcon, hrows, fun hall => ?_⟩
    cases hitems : t'.rounded.rqstItems 1 with
    | nil =>
      rw [hitems] at hrows
      cases hrows
    | cons i is =>
      rw [hitems, List.map_cons] at hrows
      have hrow := (List.cons.inj hrows).1
      have hst : i.statusCode = .partlyFilled := congrArg Prod.fst hrow
      have htot : Site.emptied.total i.itemId = 0 := congrArg (fun x => x.2.2) hrow
      have hi := hall i (hitems ▸ List.mem_cons_self)
      have hpos := (hi.partly.1 (by rw [hst]; decide)).1
      exact hpos.ne' htot

end Dmis
