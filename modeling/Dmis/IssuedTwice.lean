import Dmis.PlanWrites

/-!
# Issued twice

`issue_qty` is written when a package is prepared (`packaging.py:1970-1988`), by the status of the item, and added to
when Workflow C dispatches it (`dispatch_service.py:464-476`). What the officer had saved is still in it then, whether
or not the manager's plan has the item, and `status_code` stays the officer's. So `issue_qty`, a column of two decimals,
is what was dispatched exactly for the items it was zero for before and that go out in whole cents, and the rule of the
table holds by the officer's status (`issued_as_dispatched`, for quantities of four decimals).
-/

namespace Dmis

open Relational Keyed

/-- What the dispatched packages of a request have of an item. -/
def Tables.dispatchedQty (t : Tables) (rqstId itemId : Nat) : ℚ :=
  (((t.packages rqstId).filter fun p => p.statusCode = .dispatched).map fun p =>
    itemTotal (t.pkgItems p.reliefpkgId) itemId).sum

/-- Every item of the request was issued what was dispatched, and passes `c_reliefrqst_item_2a`. -/
def IssuedAsDispatched (t : Tables) (rqstId : Nat) : Prop :=
  ∀ i ∈ t.rqstItems rqstId, i.issueQty = t.dispatchedQty rqstId i.itemId ∧ i.C2a

/-- What a plan leaves in the rows of an item: of each batch the last entry. -/
def lastPlanned (plan : List PlanEntry) (itemId : Nat) : ℚ :=
  ∑ k ∈ ((plan.filter fun e => e.itemId = itemId).map PlanEntry.batch).toFinset,
    lastAt PlanEntry.batch PlanEntry.lmQty (plan.filter fun e => e.itemId = itemId) k

/-- Nothing of the request was issued before; what the plan has of an item, in cents, is what it leaves in the rows, and
fits the status. -/
def IssuesAnew (t : Tables) (rqstId : Nat) (plan : List PlanEntry) : Prop :=
  ∀ i ∈ t.rqstItems rqstId, i.issueQty = 0 ∧
    lastPlanned plan i.itemId = numeric 2 (planned plan i.itemId).sum ∧
    { i with issueQty := numeric 2 (planned plan i.itemId).sum }.C2a

section
variable {t t' : Tables} {ctx : Ctx} {p : ReliefPkg} {r : ReliefRqst} {plan : List PlanEntry} {pkgId : Nat}
  {field : PlanField}

/-- A plan only has positive quantities. -/
theorem lmPlan_pos (h : lmPlan pkgId field t = .ok plan) : ∀ e ∈ plan, 0 < e.lmQty := by
  unfold lmPlan at h
  split at h
  · cases h
    intro e he
    obtain ⟨i, hi, rfl⟩ := List.mem_map.1 he
    exact (mem_positiveItems.1 hi).2
  · cases h
  · exact buildLmPlanFromForm_pos h

/-! ## The request's items -/

/-- A dispatch adds to every item of the request what the plan has of it. -/
theorem rqstItems_dispatched (hpos : ∀ e ∈ plan, 0 < e.lmQty)
    (hi : t'.reliefrqstItem = issueDispatched r plan t.reliefrqstItem) {P : ReliefRqstItem → Prop}
    (hP : ∀ i v, P { i with versionNbr := v } ↔ P i) :
    (∀ i ∈ t'.rqstItems r.reliefrqstId, P i) ↔
      ∀ i ∈ t.rqstItems r.reliefrqstId, P { i with issueQty := i.issueQty + (planned plan i.itemId).sum } := by
  have hrows : t'.rqstItems r.reliefrqstId = (t.rqstItems r.reliefrqstId).map fun i =>
      if i.reliefrqstId = r.reliefrqstId ∧ i.itemId ∈ plan.map PlanEntry.itemId then
        { i with issueQty := i.issueQty + (planned plan i.itemId).sum, versionNbr := i.versionNbr + 1 }
      else i := by
    simp only [Tables.rqstItems, Table.select, hi, issueDispatched, Table.mapRows, filter_positive hpos,
      List.filter_map]
    refine congrArg (List.map _) (List.filter_congr fun i _ => ?_)
    simp only [Function.comp]
    split <;> rfl
  rw [hrows, List.forall_mem_map]
  refine forall₂_congr fun i hm => ?_
  split_ifs with hplan
  · exact hP { i with issueQty := i.issueQty + (planned plan i.itemId).sum } (i.versionNbr + 1)
  · have hnot : i.itemId ∉ plan.map PlanEntry.itemId := fun hmem => hplan ⟨(Tables.mem_rqstItems.1 hm).2, hmem⟩
    rw [planned_eq_nil hnot, List.sum_nil, add_zero]

/-! ## The request's packages -/

/-- A request has one package, so what was dispatched for it is what this package has. -/
theorem PlanDispatched.dispatchedQty (h : PlanDispatched ctx t t' p r plan) (hu : UniquePkg t)
    (hp : p ∈ t.reliefpkg.rows) (itemId : Nat) :
    t'.dispatchedQty p.reliefrqstId itemId = Dmis.itemTotal (t'.pkgItems p.reliefpkgId) itemId := by
  have hpkgs : t'.reliefpkg = (t.setPkg (p.dispatch ctx)).reliefpkg := by rw [h.rest]; rfl
  obtain ⟨hu', -⟩ := touches_setPkg (q := p.dispatch ctx) hu ((firstPkg_eq_some hu).2 ⟨hp, rfl⟩) rfl rfl
  have hmem : p.dispatch ctx ∈ (t.setPkg (p.dispatch ctx)).reliefpkg.rows :=
    Table.mem_of_get? (Table.get?_set_of_get? (Table.get?_key hp) rfl)
  have hone : t'.packages p.reliefrqstId = [p.dispatch ctx] := by
    have hfirst : (t.setPkg (p.dispatch ctx)).firstPkg p.reliefrqstId = some (p.dispatch ctx) :=
      (firstPkg_eq_some hu').2 ⟨hmem, rfl⟩
    have hall := packages_eq hu' p.reliefrqstId
    rw [hfirst] at hall
    rw [Tables.packages, hpkgs]
    exact hall
  have hsent : (p.dispatch ctx).statusCode = .dispatched := rfl
  rw [Tables.dispatchedQty, hone, List.filter_singleton, hsent]
  simp [ReliefPkg.dispatch]

/-- Rounding to cents moves less than a cent, so no cent issued before hides in it. -/
theorem issued_eq_iff {a x y : ℚ} (ha : AtScale 2 a) (h0 : 0 ≤ a) (hx : 0 ≤ x) (hle : y ≤ x) :
    numeric 2 (a + x) = y ↔ a = 0 ∧ y = numeric 2 x := by
  rw [numeric_add ha h0 hx]
  constructor
  · intro h
    have hnear := numeric_near 2 x
    have hle' : numeric 2 x - x ≤ |numeric 2 x - x| := le_abs_self _
    have habs : -(numeric 2 x - x) ≤ |numeric 2 x - x| := neg_le_abs _
    have hzero : a = 0 := by
      refine ha.eq_of_near AtScale.zero ?_
      rw [sub_zero, abs_of_nonneg h0]
      linarith
    rw [hzero, zero_add] at h
    exact ⟨hzero, h.symm⟩
  · rintro ⟨rfl, rfl⟩
    exact zero_add _

/-- What the plan has of an item is all that was issued, and all that was dispatched. -/
theorem issuedAsDispatched_iff (h : PlanDispatched ctx t t' p r plan) (hc : t.Consistent) (hu : UniquePkg t)
    (hn : IssuedNonneg t) (hp : p ∈ t.reliefpkg.rows) (hr : r.reliefrqstId = p.reliefrqstId)
    (hpos : ∀ e ∈ plan, 0 < e.lmQty) (hd : ∀ e ∈ plan, AtScale 4 e.lmQty) :
    IssuedAsDispatched t'.rounded p.reliefrqstId ↔ IssuesAnew t p.reliefrqstId plan := by
  have hitems : t'.reliefrqstItem = issueDispatched r plan t.reliefrqstItem := by rw [h.rest]
  have hdisp : ∀ itemId, t'.rounded.dispatchedQty p.reliefrqstId itemId = lastPlanned plan itemId := fun itemId => by
    have hpkgs : t'.rounded.reliefpkg = t'.reliefpkg := rfl
    rw [lastPlanned, ← h.itemTotal hc hpos, ← h.dispatchedQty hu hp]
    simp only [Tables.dispatchedQty, Tables.packages, Tables.pkgItems, (h.stored_tables hc hd).2, hpkgs]
  unfold IssuedAsDispatched IssuesAnew
  rw [forall_rqstItems_rounded, ← hr, rqstItems_dispatched hpos hitems fun i v => Iff.rfl]
  refine forall₂_congr fun i hi => ?_
  obtain ⟨hm, -⟩ := Tables.mem_rqstItems.1 hi
  obtain ⟨hreq, hissue⟩ := stored_requestQty hc hm
  have hle : lastPlanned plan i.itemId ≤ (planned plan i.itemId).sum :=
    sum_lastAt_le fun e he => hpos e (List.mem_filter.1 he).1
  have hnn : 0 ≤ (planned plan i.itemId).sum := List.sum_nonneg fun q hq => by
    obtain ⟨e, he, rfl⟩ := List.mem_map.1 hq
    exact (hpos e (List.mem_filter.1 he).1).le
  have hiff := issued_eq_iff hissue (hn i hm) hnn hle
  have hst : numeric 2 i.requestQty = i.requestQty := hreq
  simp only [ReliefRqstItem.rounded, hr, hdisp, hst]
  constructor
  · rintro ⟨heq, h2a⟩
    obtain ⟨hzero, hlast⟩ := hiff.1 heq
    rw [hzero, zero_add] at h2a
    exact ⟨hzero, hlast, h2a⟩
  · rintro ⟨hzero, hlast, h2a⟩
    rw [hzero, zero_add]
    exact ⟨hlast.symm, h2a⟩

end

/-- **After Workflow C the issued quantities are the dispatched ones exactly when nothing had been issued before**, the
plan leaves in the rows what it has of each item in cents, and the officer's statuses fit it. The quantities have the
four decimals of the rows; what is compared is what is stored. -/
theorem issued_as_dispatched (db : Database) (hu : UniquePkg db.tables) (hn : IssuedNonneg db.tables) (ops : List Op)
    (ctx : Ctx) (p : ReliefPkg) (version : ℤ) (field : PlanField) (plan : List PlanEntry) (t' : Tables)
    (hp : (run step db ops).tables.reliefpkg.get? p.reliefpkgId = some p)
    (hplan : lmPlan p.reliefpkgId field (run step db ops).tables = .ok plan) (hdec : ∀ e ∈ plan, AtScale 4 e.lmQty)
    (h : workflowC ctx p.reliefpkgId plan version (run step db ops).tables = .ok t') :
    IssuedAsDispatched t'.rounded p.reliefrqstId ↔ IssuesAnew (run step db ops).tables p.reliefrqstId plan := by
  obtain ⟨hu', hn'⟩ := run_invariant (I := fun d : Database => UniquePkg d.tables ∧ IssuedNonneg d.tables)
    (fun d op hd => ⟨(step_header hd.1 op).1, (step_itemsKept d op).issued hd.2⟩) ⟨hu, hn⟩ ops
  have hc := (run step db ops).consistent
  obtain ⟨q, r, hq, -, -, hr, hd⟩ := workflowC_ok hc h
  cases Option.mem_unique hp hq
  exact issuedAsDispatched_iff hd hc hu' hn' (Table.mem_of_get? hp) (Table.key_of_get? hr) (lmPlan_pos hplan) hdec

namespace Site

/-- The quantity is taken back, and the status kept. -/
def keptForm : Form := { form 0 with status := fun _ => some (.code .partlyFilled) }

def keeping : List Op :=
  [.preparePackage officer 1 .saveDraft (post 3 .absent 2),
    .preparePackage officer 1 .saveDraft ⟨.num 4, .absent, keptForm⟩]

end Site

/-- What was prepared is taken back with its status kept, so that nothing is issued when two units are dispatched. -/
theorem issued_as_dispatched_site :
    ∃ t', workflowC Site.manager 1 [⟨1, 1, 1, 2, "EA"⟩] 1 (run step Site.db Site.keeping).tables = .ok t' ∧
      IssuedAsDispatched t'.rounded 1 := by
  have hok : (workflowC Site.manager 1 [⟨1, 1, 1, 2, "EA"⟩] 1 (run step Site.db Site.keeping).tables).isOk = true := by
    decide +kernel
  have hplan : lmPlan 1 (.entries [Site.entry 2]) (run step Site.db Site.keeping).tables =
      .ok [⟨1, 1, 1, 2, "EA"⟩] := by decide +kernel
  have hanew : IssuesAnew (run step Site.db Site.keeping).tables 1 [⟨1, 1, 1, 2, "EA"⟩] := by
    unfold IssuesAnew
    decide +kernel
  cases h : workflowC Site.manager 1 [⟨1, 1, 1, 2, "EA"⟩] 1 (run step Site.db Site.keeping).tables with
  | error e =>
    rw [h] at hok
    cases hok
  | ok t' =>
    exact ⟨t', rfl, (issued_as_dispatched Site.db (by decide) (by unfold IssuedNonneg; decide +kernel) Site.keeping
      Site.manager Site.draftedPkg 1 (.entries [Site.entry 2]) [⟨1, 1, 1, 2, "EA"⟩] t' (by decide +kernel) hplan
      (by decide +kernel) h).2 hanew⟩

/-- Two units are prepared and dispatched, and four are issued. -/
theorem issued_twice :
    ∃ t', workflowC Site.manager 1 [⟨1, 1, 1, 2, "EA"⟩] 1 Site.drafted.tables = .ok t' ∧ t'.rounded.Consistent ∧
      (t'.rounded.issued 1 1, t'.rounded.dispatchedQty 1 1) = (4, 2) ∧ ¬ IssuedAsDispatched t'.rounded 1 := by
  have hval : (workflowC Site.manager 1 [⟨1, 1, 1, 2, "EA"⟩] 1 Site.drafted.tables).toOption.map (fun t' =>
      (decide t'.rounded.Consistent, t'.rounded.issued 1 1, t'.rounded.dispatchedQty 1 1,
        (t'.rounded.rqstItems 1).map ReliefRqstItem.issueQty)) = some (true, 4, 2, [4]) := by decide +kernel
  have hkept : (workflowC Site.manager 1 [⟨1, 1, 1, 2, "EA"⟩] 1 Site.drafted.tables).toOption.map (fun t' =>
      (t'.rounded.rqstItems 1).map ReliefRqstItem.itemId) = some [1] := by decide +kernel
  cases h : workflowC Site.manager 1 [⟨1, 1, 1, 2, "EA"⟩] 1 Site.drafted.tables with
  | error e =>
    rw [h] at hval
    cases hval
  | ok t' =>
    simp only [h, Except.toOption, Option.map_some, Option.some.injEq, Prod.mk.injEq, decide_eq_true_eq] at hval hkept
    obtain ⟨hcon, hissued, hdisp, hqtys⟩ := hval
    refine ⟨t', rfl, hcon, by rw [hissued, hdisp], fun hall => ?_⟩
    cases hitems : t'.rounded.rqstItems 1 with
    | nil =>
      rw [hitems] at hqtys
      cases hqtys
    | cons i is =>
      rw [hitems] at hqtys hkept
      have hq : i.issueQty = 4 := (List.cons.inj hqtys).1
      have hid : i.itemId = 1 := (List.cons.inj hkept).1
      have heq := (hall i (hitems ▸ List.mem_cons_self)).1
      rw [hq, hid, hdisp] at heq
      norm_num at heq

end Dmis
