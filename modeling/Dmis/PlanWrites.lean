import Dmis.PlannedStock
import Dmis.IssueChecks

/-!
# What a plan writes

Workflow C goes through the manager's plan three times. The rows of the package are overwritten entry by entry
(`dispatch_service.py:293-331`), the batches are depleted entry by entry (`:360-405`), and the quantities are
collected for each item and added to `issue_qty` (`:452-476`), if the request has the item. Of two entries for one
batch the row keeps the last, where the batch and the item get both; and `issue_qty` has two decimals where rows and
batches have four (`writes_agree`, for quantities of four decimals).
-/

namespace Dmis

open Relational Keyed

/-- `issue_qty` of an item, `0` when the request does not have it. -/
def Tables.issued (t : Tables) (rqstId itemId : Nat) : ℚ :=
  ((t.reliefrqstItem.get? (rqstId, itemId)).map ReliefRqstItem.issueQty).getD 0

/-- What left a batch is what the package has of it. -/
def RowsAgree (t t' : Tables) (pkgId : Nat) : Prop := ∀ k, t.usable k = (t'.usable k).map (· + t'.pkgQty pkgId k)

/-- What the package has of an item is what was added to its `issue_qty`. -/
def ItemsAgree (t t' : Tables) (p : ReliefPkg) : Prop :=
  ∀ itemId, itemTotal (t'.pkgItems p.reliefpkgId) itemId =
    t'.issued p.reliefrqstId itemId - t.issued p.reliefrqstId itemId

structure WritesAgree (t t' : Tables) (p : ReliefPkg) : Prop where
  rows : RowsAgree t t' p.reliefpkgId
  items : ItemsAgree t t' p

/-- No batch twice, only items of the request, and of each of them an amount in whole cents. -/
structure PlanAsRequested (t : Tables) (p : ReliefPkg) (plan : List PlanEntry) : Prop where
  batches : (plan.map PlanEntry.batch).Nodup
  items : ∀ e ∈ plan, t.reliefrqstItem.get? (p.reliefrqstId, e.itemId) ≠ none
  cents : ∀ e ∈ plan, AtScale 2 (planned plan e.itemId).sum

section
variable {t t' u : Tables} {ctx : Ctx} {p : ReliefPkg} {r : ReliefRqst} {plan : List PlanEntry} {pkgId itemId : Nat}
  {k : BatchKey}

/-! ## The request's items -/

/-- What is added to `issue_qty`: all that is dispatched of an item the request has. -/
theorem issued_dispatched (hi : t'.reliefrqstItem = issueDispatched r plan t.reliefrqstItem) (itemId : Nat) :
    t'.issued r.reliefrqstId itemId = t.issued r.reliefrqstId itemId +
      if t.reliefrqstItem.get? (r.reliefrqstId, itemId) = none then 0
      else (planned (plan.filter (0 < ·.lmQty)) itemId).sum := by
  simp only [Tables.issued, hi, issueDispatched, Table.get?_mapRows]
  cases hg : t.reliefrqstItem.get? (r.reliefrqstId, itemId) with
  | none => simp
  | some i =>
    obtain ⟨hid, hitem⟩ := Prod.ext_iff.1 (Table.key_of_get? hg)
    have hid : i.reliefrqstId = r.reliefrqstId := hid
    have hitem : i.itemId = itemId := hitem
    simp only [Option.map_some, Option.getD_some, reduceCtorEq, if_false, hid, hitem, true_and]
    split_ifs with hm
    · rfl
    · rw [planned_eq_nil hm, List.sum_nil, add_zero]

/-! ## The rows -/

/-- A row of a dispatched package holds the last entry for its batch. -/
theorem PlanDispatched.pkgQty (h : PlanDispatched ctx t t' p r plan) (hc : t.Consistent) (k : BatchKey) :
    t'.pkgQty p.reliefpkgId k = lastAt PlanEntry.batch PlanEntry.lmQty plan k := by
  have hrows : t'.reliefpkgItem = (overwritePackageItems p.reliefpkgId plan t).reliefpkgItem := by rw [h.rest]
  rw [Tables.pkgQty, hrows, overwritePackageItems_own hc.pkgItem, lastAt]
  cases (plan.filter fun e => e.batch = k).getLast? with
  | some e => rfl
  | none => cases t.reliefpkgItem.get? (p.reliefpkgId, k) <;> rfl

theorem PlanDispatched.usable (h : PlanDispatched ctx t t' p r plan) (k : BatchKey) :
    t'.usable k = (t.usable k).map (· - drawn plan k) := by
  rw [Tables.usable, h.batch, Tables.usable, Option.map_map, Option.map_map]
  rfl

/-- Every entry is for a batch there is. -/
theorem workflowC_batches {version : ℤ} (hc : t.Consistent) (h : workflowC ctx pkgId plan version t = .ok t')
    {e : PlanEntry} (he : e ∈ plan) (hpos : 0 < e.lmQty) : t.usable e.batch ≠ none := by
  simp only [workflowC, bind_ok, require_ok, check_ok, pure_ok, exists_const] at h
  obtain ⟨p, hp, -, -, -, r, -, t₁, hundo, t₂, hdep, -⟩ := h
  obtain rfl : p.reliefpkgId = pkgId := Table.key_of_get? hp
  obtain ⟨-, -, -, hb₁, -⟩ := undoLoReservations_ok hc hundo
  simp only [depleteUsableStock, bind_ok, pure_ok] at hdep
  obtain ⟨b₂, hb₂, -⟩ := hdep
  obtain ⟨b, hb⟩ := depleteBatch_takes.found hb₂ e (positive_plan.2 ⟨he, hpos⟩)
  have hb : t₁.itembatch.get? e.batch = some b := hb
  rw [hb₁, Option.map_eq_some_iff] at hb
  obtain ⟨b₀, hb₀, -⟩ := hb
  simp [Tables.usable, hb₀]

/-- **Rows and batches agree exactly on a plan that names no batch twice.** -/
theorem rowsAgree_iff (h : PlanDispatched ctx t t' p r plan) (hc : t.Consistent) (hpos : ∀ e ∈ plan, 0 < e.lmQty)
    (hex : ∀ e ∈ plan, t.usable e.batch ≠ none) :
    RowsAgree t t' p.reliefpkgId ↔ (plan.map PlanEntry.batch).Nodup := by
  rw [← sum_eq_lastAt_iff hpos]
  have hdrawn : ∀ k, drawn plan k = ((plan.filter fun e => e.batch = k).map PlanEntry.lmQty).sum := fun k => by
    rw [drawn, filter_positive hpos]
    rfl
  refine forall_congr' fun k => ?_
  rw [h.usable, h.pkgQty hc, ← hdrawn]
  cases hu : t.usable k with
  | some q =>
    simp only [Option.map_some, Option.some.injEq]
    constructor <;> intro heq <;> linarith
  | none =>
    have hnil : plan.filter (fun e => decide (e.batch = k)) = [] := by
      refine filter_key_eq_nil fun hk => ?_
      obtain ⟨e, he, rfl⟩ := List.mem_map.1 hk
      exact hex e he hu
    simp [hdrawn, lastAt, hnil]

/-- The package has of an item what the last entries for its batches say. -/
theorem PlanDispatched.itemTotal (h : PlanDispatched ctx t t' p r plan) (hc : t.Consistent)
    (hpos : ∀ e ∈ plan, 0 < e.lmQty) (itemId : Nat) :
    Dmis.itemTotal (t'.pkgItems p.reliefpkgId) itemId =
      ∑ k ∈ ((plan.filter fun e => e.itemId = itemId).map PlanEntry.batch).toFinset,
        lastAt PlanEntry.batch PlanEntry.lmQty (plan.filter fun e => e.itemId = itemId) k := by
  have hof : ∀ k : BatchKey, k.itemId = itemId →
      t'.pkgQty p.reliefpkgId k = lastAt PlanEntry.batch PlanEntry.lmQty (plan.filter fun e => e.itemId = itemId) k :=
    fun k hk => by
      rw [h.pkgQty hc, lastAt, lastAt, List.filter_filter]
      have hsame : ∀ e : PlanEntry, decide (e.batch = k) = (decide (e.batch = k) && decide (e.itemId = itemId)) := by
        intro e
        by_cases he : e.batch = k
        · have hi : e.itemId = itemId := (congrArg BatchKey.itemId he).trans hk
          simp [he, hi]
        · simp [he]
      rw [List.filter_congr fun e _ => hsame e]
  refine sum_rows_eq_lastAt ((nodup_pkgItems t' p.reliefpkgId).sublist (List.filter_sublist.map _))
    (fun e he => hpos e (List.mem_filter.1 he).1) (fun i hi => ?_) fun e he => ?_
  · obtain ⟨hi, hid⟩ := List.mem_filter.1 hi
    rw [← hof i.batch (of_decide_eq_true hid), pkgQty_of_mem hi]
  · obtain ⟨he, hid⟩ := List.mem_filter.1 he
    have hpos' : 0 < lastAt PlanEntry.batch PlanEntry.lmQty (plan.filter fun e => e.itemId = itemId) e.batch :=
      lastAt_pos (fun e he => hpos e (List.mem_filter.1 he).1) (List.mem_filter.2 ⟨he, hid⟩)
    rw [← hof e.batch (of_decide_eq_true hid)] at hpos'
    obtain ⟨i, hi, hk, -⟩ := exists_of_pkgQty_ne_zero hpos'.ne'
    refine ⟨i, List.mem_filter.2 ⟨hi, ?_⟩, hk⟩
    rw [← of_decide_eq_true hid]
    exact decide_eq_true (congrArg BatchKey.itemId hk)

/-- Over distinct batches that is what the plan says, and only then. -/
theorem PlanDispatched.itemTotal_eq_iff (h : PlanDispatched ctx t t' p r plan) (hc : t.Consistent)
    (hpos : ∀ e ∈ plan, 0 < e.lmQty) (itemId : Nat) :
    Dmis.itemTotal (t'.pkgItems p.reliefpkgId) itemId ≤ (planned plan itemId).sum ∧
    (Dmis.itemTotal (t'.pkgItems p.reliefpkgId) itemId = (planned plan itemId).sum ↔
      ((plan.filter fun e => e.itemId = itemId).map PlanEntry.batch).Nodup) := by
  have hq : ∀ e ∈ plan.filter fun e => e.itemId = itemId, 0 < e.lmQty := fun e he => hpos e (List.mem_filter.1 he).1
  rw [h.itemTotal hc hpos]
  exact ⟨sum_lastAt_le hq, sum_lastAt_eq_iff hq⟩

theorem PlanDispatched.itemTotal_of_nodup (h : PlanDispatched ctx t t' p r plan) (hc : t.Consistent)
    (hn : (plan.map PlanEntry.batch).Nodup) (hpos : ∀ e ∈ plan, 0 < e.lmQty) (itemId : Nat) :
    Dmis.itemTotal (t'.pkgItems p.reliefpkgId) itemId = (planned plan itemId).sum :=
  (h.itemTotal_eq_iff hc hpos itemId).2.2 (hn.sublist (List.filter_sublist.map _))

/-- What the package has of an item is never less than one of its entries. -/
theorem PlanDispatched.le_itemTotal (h : PlanDispatched ctx t t' p r plan) (hc : t.Consistent)
    (hn : (plan.map PlanEntry.batch).Nodup) (hpos : ∀ e ∈ plan, 0 < e.lmQty) {e : PlanEntry} (he : e ∈ plan) :
    e.lmQty ≤ Dmis.itemTotal (t'.pkgItems p.reliefpkgId) e.itemId := by
  rw [h.itemTotal_of_nodup hc hn hpos]
  refine List.single_le_sum (fun q hq => ?_) _ (List.mem_map_of_mem (List.mem_filter.2 ⟨he, decide_eq_true rfl⟩))
  obtain ⟨e', he', rfl⟩ := List.mem_map.1 hq
  exact (hpos e' (List.mem_filter.1 he').1).le

theorem issued_rounded (t : Tables) (rqstId itemId : Nat) :
    t.rounded.issued rqstId itemId = numeric 2 (t.issued rqstId itemId) := by
  simp only [Tables.issued, Tables.rounded, Table.get?_mapRows, Option.map_map]
  cases t.reliefrqstItem.get? (rqstId, itemId) with
  | none => exact (numeric_zero 2).symm
  | some i => rfl

theorem issued_atScale (hc : t.Consistent) (rqstId itemId : Nat) : AtScale 2 (t.issued rqstId itemId) := by
  rw [← hc.stored, issued_rounded]
  exact numeric_atScale 2 _

/-- What is added to a stored column of the same scale is added as it is, and nothing else is. -/
theorem add_stored_iff {s : ℕ} {a x : ℚ} (ha : AtScale s a) : x = numeric s (a + x) - a ↔ AtScale s x := by
  constructor
  · intro h
    rw [h]
    exact (numeric_atScale s _).sub ha
  · intro h
    rw [show numeric s (a + x) = a + x from ha.add h, add_sub_cancel_left]

/-- **The stored writes agree on a plan that keeps to the request, and on no other.** -/
theorem writesAgree_iff (h : PlanDispatched ctx t t' p r plan) (hc : t.Consistent) (hr : r.reliefrqstId = p.reliefrqstId)
    (hpos : ∀ e ∈ plan, 0 < e.lmQty) (hd : ∀ e ∈ plan, AtScale 4 e.lmQty)
    (hex : ∀ e ∈ plan, t.usable e.batch ≠ none) : WritesAgree t t'.rounded p ↔ PlanAsRequested t p plan := by
  obtain ⟨hbatch, hrow⟩ := h.stored_tables hc hd
  have hrows : RowsAgree t t'.rounded p.reliefpkgId ↔ (plan.map PlanEntry.batch).Nodup := by
    rw [← rowsAgree_iff h hc hpos hex]
    simp only [RowsAgree, Tables.usable, Tables.pkgQty, hbatch, hrow]
  have hitems : t'.reliefrqstItem = issueDispatched r plan t.reliefrqstItem := by rw [h.rest]
  have hissue := issued_dispatched hitems
  rw [filter_positive hpos, hr] at hissue
  have htotal : (plan.map PlanEntry.batch).Nodup → ∀ itemId,
      itemTotal (t'.rounded.pkgItems p.reliefpkgId) itemId = (planned plan itemId).sum := fun hn itemId => by
    rw [Tables.pkgItems, hrow]
    exact h.itemTotal_of_nodup hc hn hpos itemId
  have hadded := issued_atScale hc p.reliefrqstId
  constructor
  · intro hw
    have hn := hrows.1 hw.rows
    have hreq : ∀ e ∈ plan, t.reliefrqstItem.get? (p.reliefrqstId, e.itemId) ≠ none := fun e he hnone => by
      -- the package has something of an item that nothing was added to
      have hzero := hw.items e.itemId
      rw [htotal hn, issued_rounded, hissue, if_pos hnone, add_zero,
        show numeric 2 _ = _ from hadded e.itemId, sub_self] at hzero
      have hle := h.le_itemTotal hc hn hpos he
      rw [h.itemTotal_of_nodup hc hn hpos, hzero] at hle
      exact absurd hle (not_le.2 (hpos e he))
    refine ⟨hn, hreq, fun e he => ?_⟩
    have hsum := hw.items e.itemId
    rw [htotal hn, issued_rounded, hissue, if_neg (hreq e he)] at hsum
    exact (add_stored_iff (hadded e.itemId)).1 hsum
  · intro ha
    refine ⟨hrows.2 ha.batches, fun itemId => ?_⟩
    rw [htotal ha.batches, issued_rounded, hissue]
    by_cases hmem : itemId ∈ plan.map PlanEntry.itemId
    · obtain ⟨e, he, rfl⟩ := List.mem_map.1 hmem
      rw [if_neg (ha.items e he)]
      exact (add_stored_iff (hadded e.itemId)).2 (ha.cents e he)
    · rw [planned_eq_nil hmem, List.sum_nil, ite_self]
      exact (add_stored_iff (hadded itemId)).2 AtScale.zero

end

/-- **The three writes agree exactly on a plan that names no batch twice and only items of the request**, and dispatches
whole cents of each. The quantities have the four decimals of the columns of rows and batches; what is compared is what
is stored. -/
theorem writes_agree (db : Database) (ctx : Ctx) (p : ReliefPkg) (version : ℤ) (es : List JsonEntry)
    (plan : List PlanEntry) (hplan : buildLmPlanFromForm es = .ok plan) (hdec : ∀ e ∈ plan, AtScale 4 e.lmQty)
    (hp : db.tables.reliefpkg.get? p.reliefpkgId = some p) (t' : Tables)
    (h : workflowC ctx p.reliefpkgId plan version db.tables = .ok t') :
    WritesAgree db.tables t'.rounded p ↔ PlanAsRequested db.tables p plan := by
  have hc := db.consistent
  have hpos := buildLmPlanFromForm_pos hplan
  obtain ⟨q, r, hq, -, -, hr, hd⟩ := workflowC_ok hc h
  cases Option.mem_unique hp hq
  exact writesAgree_iff hd hc (Table.key_of_get? hr) hpos hdec fun e he => workflowC_batches hc h he (hpos e he)

/-- One entry for the batch of the draft. -/
def Site.entry (q : ℚ) : JsonEntry := ⟨some 1, some 1, some 1, some (.finite q), "EA"⟩

def Site.draftedPkg : ReliefPkg := newPkg officer rqst 1

theorem writes_agree_site :
    ∃ t', workflowC Site.manager 1 [⟨1, 1, 1, 2, "EA"⟩] 1 Site.drafted.tables = .ok t' ∧
      WritesAgree Site.drafted.tables t'.rounded Site.draftedPkg := by
  have hok : (workflowC Site.manager 1 [⟨1, 1, 1, 2, "EA"⟩] 1 Site.drafted.tables).isOk = true := by decide +kernel
  have hplan : buildLmPlanFromForm [Site.entry 2] = .ok [⟨1, 1, 1, 2, "EA"⟩] := by decide +kernel
  cases h : workflowC Site.manager 1 [⟨1, 1, 1, 2, "EA"⟩] 1 Site.drafted.tables with
  | error e =>
    rw [h] at hok
    cases hok
  | ok t' =>
    exact ⟨t', rfl, (writes_agree Site.drafted Site.manager Site.draftedPkg 1 [Site.entry 2] [⟨1, 1, 1, 2, "EA"⟩] hplan
      (by decide +kernel) (by decide +kernel) t' h).2 ⟨by decide, by decide +kernel, by decide +kernel⟩⟩

/-- Two entries of one unit each: two units leave the batch and are issued, and the package has one. -/
theorem writes_disagree :
    (buildLmPlanFromForm [Site.entry 1, Site.entry 1] = .ok [⟨1, 1, 1, 1, "EA"⟩, ⟨1, 1, 1, 1, "EA"⟩]) ∧
    (Site.drafted.tables.usable ⟨1, 1, 1⟩, Site.drafted.tables.issued 1 1) = (some 10, 2) ∧
    ∃ t', workflowC Site.manager 1 [⟨1, 1, 1, 1, "EA"⟩, ⟨1, 1, 1, 1, "EA"⟩] 1 Site.drafted.tables = .ok t' ∧
      t'.rounded.Consistent ∧
      (t'.rounded.usable ⟨1, 1, 1⟩, t'.rounded.issued 1 1, t'.rounded.pkgQty 1 ⟨1, 1, 1⟩) = (some 8, 4, 1) ∧
      ¬ WritesAgree Site.drafted.tables t'.rounded Site.draftedPkg := by
  have hval : (workflowC Site.manager 1 [⟨1, 1, 1, 1, "EA"⟩, ⟨1, 1, 1, 1, "EA"⟩] 1 Site.drafted.tables).toOption.map
      (fun t' => (decide t'.rounded.Consistent, t'.rounded.usable ⟨1, 1, 1⟩, t'.rounded.issued 1 1,
        t'.rounded.pkgQty 1 ⟨1, 1, 1⟩)) = some (true, some 8, 4, 1) := by decide +kernel
  refine ⟨by decide +kernel, by decide +kernel, ?_⟩
  cases h : workflowC Site.manager 1 [⟨1, 1, 1, 1, "EA"⟩, ⟨1, 1, 1, 1, "EA"⟩] 1 Site.drafted.tables with
  | error e =>
    rw [h] at hval
    cases hval
  | ok t' =>
    simp only [h, Except.toOption, Option.map_some, Option.some.injEq, Prod.mk.injEq, decide_eq_true_eq] at hval
    obtain ⟨hcon, husable, hissued, hqty⟩ := hval
    refine ⟨t', rfl, hcon, by rw [husable, hissued, hqty], fun hw => ?_⟩
    have hbefore : Site.drafted.tables.usable ⟨1, 1, 1⟩ = some 10 := by decide +kernel
    have hrow := hw.rows ⟨1, 1, 1⟩
    rw [hbefore, husable, show Site.draftedPkg.reliefpkgId = 1 from rfl, hqty] at hrow
    norm_num at hrow

end Dmis
