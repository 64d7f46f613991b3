import Dmis.OnePlan
import Dmis.ItemAgreement
import Dmis.PlanWrites

/-!
# Dispatching what was saved

A saved quantity is in the row of the package and in `itembatch.reserved_qty` with four decimals, and in `issue_qty`
and `inventory.reserved_qty` with two. The review page compares `issue_qty` with the rows, up to a thousandth
(`packaging.py:190-208`); Workflow C wants the rows in the reservations of the batches and in those of the warehouses
(`dispatch_service.py:203-271`). The batches always have them. A warehouse where nothing else is reserved has only the
rounded sum, and `issue_qty` goes by the status, so a plan in thousandths, or one whose status was kept, can be saved
and not be dispatched: `saved_plan_dispatchable`.
-/

namespace Dmis

open Relational Keyed

/-- The ledger, for quantities of any scale. -/
structure StockLedger (t : Tables) : Prop where
  reserved : ∀ b ∈ t.itembatch.rows, b.reservedQty = t.pledged b.key
  bounds : ∀ b ∈ t.itembatch.rows, 0 ≤ b.reservedQty ∧ b.reservedQty ≤ b.usableQty
  reservedTotal : ∀ v ∈ t.inventory.rows, v.reservedQty = batchSum t.itembatch v.key ItemBatch.reservedQty
  usableTotal : ∀ v ∈ t.inventory.rows, v.usableQty = batchSum t.itembatch v.key ItemBatch.usableQty

theorem Ledger.stock {t : Tables} (h : Ledger t) : StockLedger t :=
  ⟨h.reserved, h.bounds, h.reservedTotal, h.usableTotal⟩

/-! ## The checks -/

/-- `issue_qty` is what the rows have, up to a thousandth. -/
def IssuesMatch (items : List ReliefRqstItem) (rows : List ReliefPkgItem) : Prop :=
  ∀ i ∈ items, ¬ (0 < i.issueQty ∧ itemTotal rows i.itemId = 0) ∧ |i.issueQty - itemTotal rows i.itemId| ≤ 1 / 1000

/-- The comparison of the review page, and the first step of Workflow C. -/
structure Dispatchable (t : Tables) (p : ReliefPkg) : Prop where
  issues : IssuesMatch (t.rqstItems p.reliefrqstId) (t.pkgItems p.reliefpkgId)
  undo : ∃ t', undoLoReservations (t.pkgItems p.reliefpkgId) t = .ok t'

/-! ## What a form saves -/

/-- Of several fields for one batch the last positive one is reserved. -/
def Tables.reservedBy (t : Tables) (rqstId : Nat) (form : Form) (k : BatchKey) : ℚ :=
  ((t.postedQtys rqstId form k).filter (0 < ·)).getLast?.getD 0

/-- What the rows get of the batches selected by `P`. -/
def Tables.savedOf (t : Tables) (rqstId : Nat) (form : Form) (P : BatchKey → Bool) : ℚ :=
  t.itembatch.sum (fun b => P b.key) fun b => numeric 4 (t.posted rqstId form b.key)

/-- What comes to be reserved at a warehouse: what the package did not hold, and what the form reserves. -/
def Tables.reservedThen (t : Tables) (rqstId : Nat) (form : Form) (s : StockKey) : ℚ :=
  batchSum t.itembatch s fun b => b.reservedQty - t.held rqstId b.key + numeric 4 (t.reservedBy rqstId form b.key)

/-- What the rows may have of an item with this status. -/
def Savable (s : ItemStatus) (total requested saved : ℚ) : Prop :=
  match s with
  | .requested | .unavailable | .waiting | .denied => saved ≤ 1 / 1000
  | .partlyFilled | .limitAllowed => |numeric 2 (min total (requested - 1 / 100)) - saved| ≤ 1 / 1000
  | .filled => |requested - saved| ≤ 1 / 1000

/-- The rows get what the status of each item allows, and of each warehouse no more than comes to be reserved there. -/
structure FormFits (t : Tables) (rqstId : Nat) (form : Form) : Prop where
  items : ∀ i ∈ t.rqstItems rqstId, ∀ s, form.requestedStatus i = .code s →
    Savable s (form.total i.itemId) i.requestQty (t.savedOf rqstId form fun k => k.itemId = i.itemId)
  stock : ∀ s, t.savedOf rqstId form (fun k => k.stock = s) ≤ numeric 2 (t.reservedThen rqstId form s)

section
variable {t t' u t₀ t₁ : Tables} {ctx : Ctx} {form : Form} {vc : Bool} {r : ReliefRqst} {p q : ReliefPkg}
  {new : List Alloc} {old : Allocations} {plans : List ItemPlan} {rqstId pkgId : Nat} {k : BatchKey} {s : StockKey}

/-- The check of the review page: a package without rows is for a request that has nothing, and the rest is the
comparison. -/
theorem checkPackageItems_ok {items : List ReliefRqstItem} {rows : List ReliefPkgItem} {u : Unit} :
    checkPackageItems items rows = .ok u ↔ (rows ≠ [] ∨ AllUnavailable items) ∧ IssuesMatch items rows := by
  simp only [checkPackageItems, bind_ok, check_ok, checkAll_ok, exists_const]
  rfl

/-- Undoing goes through when every batch and every warehouse has what the rows take from it. -/
theorem undoLoReservations_ok_iff (hc : t.Consistent) :
    (∃ t', undoLoReservations (t.pkgItems p.reliefpkgId) t = .ok t') ↔
      (∀ i ∈ t.positiveItems p.reliefpkgId, ∃ b, t.itembatch.get? i.batch = some b ∧ i.itemQty ≤ b.reservedQty) ∧
      ∀ i ∈ t.positiveItems p.reliefpkgId, ∃ v, t.inventory.get? i.batch.stock = some v ∧
        t.taken p i.batch.stock ≤ v.reservedQty := by
  have hrows := nodup_positiveItems t p.reliefpkgId
  have htotals := nodup_inventoryTotals ReliefPkgItem.batch ReliefPkgItem.itemQty (t.positiveItems p.reliefpkgId)
  simp only [undoLoReservations, bind_ok, pure_ok]
  constructor
  · rintro ⟨t', b₁, hb, v₁, hv, -⟩
    refine ⟨fun i hi => undoBatch_takes.fits hrows hb i hi, fun i hi => ?_⟩
    exact undoTotal_takes.fits htotals hv (i.batch.stock, t.taken p i.batch.stock)
      (mem_inventoryTotals.2 ⟨⟨i, hi, rfl⟩, rfl⟩)
  · rintro ⟨hb, hv⟩
    obtain ⟨b₁, hb₁, -⟩ := undoBatch_takes.run (x := t.pkgQty p.reliefpkgId) hrows
      (fun i hi => (pkgQty_of_mem (mem_positiveItems.1 hi).1).symm)
      (fun y hy => positive_qty hc (mt mem_map_positiveItems.2 hy)) hb
    obtain ⟨v₁, hv₁, -⟩ := undoTotal_takes.run (t := t.inventory) (k := Prod.fst) (x := t.taken p) htotals
      (fun e he => (mem_inventoryTotals.1 he).2) (fun y hy => taken_eq_zero (map_fst_inventoryTotals ▸ hy))
      fun e he => by
        obtain ⟨⟨i, hi, hs⟩, hq⟩ := mem_inventoryTotals.1 he
        obtain ⟨v, hg, hle⟩ := hv i hi
        rw [hs] at hg hle
        exact ⟨v, hg, hq ▸ hle⟩
    exact ⟨_, b₁, hb₁, v₁, hv₁, rfl⟩

/-- The rows of a package add up over the batches. -/
theorem rows_sum (hc : t.Consistent) (pkgId : Nat) (P : BatchKey → Bool) :
    (((t.pkgItems pkgId).filter fun i => P i.batch).map ReliefPkgItem.itemQty).sum =
      t.itembatch.sum (fun b => P b.key) fun b => t.pkgQty pkgId b.key := by
  have hn : ((t.itembatch.rows.filter fun b => P b.key).map ItemBatch.key).Nodup :=
    t.itembatch.nodup.sublist (List.filter_sublist.map ItemBatch.key)
  refine sum_eq_of_entries (f := ReliefPkgItem.batch) (g := ItemBatch.key)
    ((nodup_pkgItems t pkgId).sublist (List.filter_sublist.map _)) hn (fun i hi => ?_)
    (fun b _ => pkgQty_nonneg hc.pkgItem _ _) (fun i hi hpos => ?_) fun b hb hpos => ?_
  · exact hc.pkgItem i (mem_pkgItems.1 (List.mem_filter.1 hi).1).1
  · obtain ⟨hi, hP⟩ := List.mem_filter.1 hi
    obtain ⟨b, hb, hk⟩ := List.mem_map.1 (hc.fkBatch i (mem_pkgItems.1 hi).1)
    have hk : b.key = i.batch := hk
    exact ⟨b, List.mem_filter.2 ⟨hb, by rw [hk]; exact hP⟩, hk, by rw [hk, pkgQty_of_mem hi]⟩
  · obtain ⟨hb, hP⟩ := List.mem_filter.1 hb
    obtain ⟨i, hi, hk, hq⟩ := exists_of_pkgQty_ne_zero hpos.ne'
    exact ⟨i, List.mem_filter.2 ⟨hi, by rw [hk]; exact hP⟩, hk, hq⟩

/-! ## Saving -/

/-- What saving a form does: `q` is the package it is processed for, and `p` the package it leaves. -/
structure Saved (ctx : Ctx) (form : Form) (r : ReliefRqst) (t t' : Tables) (q p : ReliefPkg) (t₁ t₂ : Tables)
    (new : List Alloc) (old : Allocations) : Prop where
  processed : processAllocations ctx form false r t = .ok (t₁, new, old)
  reserve : reserveInventory new old t₂ = .ok t'
  /-- Only headers are written in between. -/
  frame : t₂ = { t₁ with reliefpkg := t₂.reliefpkg, reliefrqst := t₂.reliefrqst }
  before : t₁.firstPkg r.reliefrqstId = some q
  after : t'.firstPkg r.reliefrqstId = some p
  id : p.reliefpkgId = q.reliefpkgId
  dtime : p.dispatchDtime = q.dispatchDtime

theorem saveDraft_saved {post : Post} (h : saveDraft ctx r post t = .ok t') :
    ∃ q p t₁ t₂ new old, Saved ctx post.form r t t' q p t₁ t₂ new old := by
  simp only [saveDraft, saveDraftAllocations, bind_ok, pure_ok] at h
  obtain ⟨⟨t₂, new, old⟩, ⟨_, _, _, _, ⟨t₁, _, _⟩, hproc, he⟩, hres⟩ := h
  cases he
  obtain ⟨q, _, _, hp⟩ := processAllocations_ok hproc
  have hfirst := hp.firstPkg
  simp only [hfirst] at hres
  have hid := unmarked_id q
  have hr : q.unmarked.reliefrqstId = q.reliefrqstId := by unfold ReliefPkg.unmarked; split <;> rfl
  have hd : q.unmarked.dispatchDtime = q.dispatchDtime := by unfold ReliefPkg.unmarked; split <;> rfl
  have hafter := firstPkg_setPkg hfirst hid hr
  refine ⟨q, q.unmarked, t₁, _, _, _, hproc, hres, rfl, hfirst, ?_, hid, hd⟩
  rw [(reserveInventory_ok hres).1]
  exact hafter

theorem submitForApproval_saved {post : Post} (h : submitForApproval ctx r post t = .ok t') :
    ∃ q p t₁ t₂ new old, Saved ctx post.form r t t' q p t₁ t₂ new old := by
  simp only [submitForApproval, submitForApprovalAllocations, bind_ok, require_ok, pure_ok] at h
  obtain ⟨⟨t₂, new, old⟩, ⟨_, _, _, _, _, _, _, _, ⟨t₁, _, _⟩, hproc, q, hq, _, _, he⟩, hres⟩ := h
  cases he
  have hafter := firstPkg_setPkg (q := q.submitted ctx) hq rfl rfl
  refine ⟨q, q.submitted ctx, t₁, _, _, _, hproc, hres, rfl, hq, ?_, rfl, rfl⟩
  rw [(reserveInventory_ok hres).1]
  exact hafter

theorem route_saved {action : PrepareAction} {post : Post} (ha : action ≠ .sendForDispatch)
    (h : Op.route (.preparePackage ctx rqstId action post) t = .ok t') :
    ∃ r q p t₁ t₂ new old, r.reliefrqstId = rqstId ∧ Saved ctx post.form r t t' q p t₁ t₂ new old := by
  simp only [Op.route, preparePackage, bind_ok] at h
  obtain ⟨r, hg, h⟩ := h
  obtain ⟨-, -, -, hr⟩ := prepareGate_ok hg
  cases action with
  | saveDraft =>
    obtain ⟨q, p, t₁, t₂, new, old, hs⟩ := saveDraft_saved h
    exact ⟨r, q, p, t₁, t₂, new, old, hr, hs⟩
  | submitForApproval =>
    obtain ⟨q, p, t₁, t₂, new, old, hs⟩ := submitForApproval_saved h
    exact ⟨r, q, p, t₁, t₂, new, old, hr, hs⟩
  | sendForDispatch => exact absurd rfl ha

/-! ## What is saved -/

/-- What is reserved of a batch is the last positive quantity posted for it. -/
theorem Processed.new_qty_eq (h : Processed ctx form vc r t t₁ new old q t₀ plans) (k : BatchKey) :
    (newBatchReservations new).qty k = t.reservedBy r.reliefrqstId form k := by
  have hnew : (new.filter fun a => 0 < a.allocatedQty ∧ a.key = k).map Alloc.allocatedQty =
      (t.postedQtys r.reliefrqstId form k).filter (0 < ·) := by
    rw [h.postedQtys_eq, h.new_eq, List.filter_filter, List.filter_map, List.filter_map, List.map_map, List.filter_filter]
    refine congrArg (List.map _) (List.filter_congr fun a _ => ?_)
    simp only [Function.comp, Bool.decide_and]
    cases decide (0 < a.1.allocatedQty) <;> cases decide (a.1.key = k) <;> rfl
  rw [newBatchReservations_qty, Tables.reservedBy, ← hnew, List.getLast?_map]

theorem Processed.posted_nonneg (h : Processed ctx form vc r t t₁ new old q t₀ plans) {x : ℚ}
    (hx : x ∈ t.postedQtys r.reliefrqstId form k) : 0 ≤ x := by
  rw [h.postedQtys_eq] at hx
  obtain ⟨a, ha, rfl⟩ := List.mem_map.1 hx
  exact h.qty_nonneg (List.mem_filter.1 ha).1

theorem Processed.posted_atScale (h : Processed ctx form vc r t t₁ new old q t₀ plans) {n : ℕ} (hn : 2 ≤ n)
    (hf : form.Decimals n) (k : BatchKey) : AtScale n (t.posted r.reliefrqstId form k) := by
  rw [← h.posted_eq, h.pkgQty_eq]
  cases hl : ((plans.flatMap Prod.fst).filter fun a => a.1.key = k).getLast? with
  | none => exact .zero
  | some a => exact h.qty_atScale hn hf (List.mem_filter.1 (List.mem_of_getLast? hl)).1

theorem reservedBy_nonneg : 0 ≤ t.reservedBy rqstId form k := by
  unfold Tables.reservedBy
  cases hl : ((t.postedQtys rqstId form k).filter (0 < ·)).getLast? with
  | none => exact le_rfl
  | some x => exact (of_decide_eq_true (List.mem_filter.1 (List.mem_of_getLast? hl)).2).le

/-- A positive row has its quantity reserved. -/
theorem reservedBy_of_posted (h : 0 < t.posted rqstId form k) : t.reservedBy rqstId form k = t.posted rqstId form k := by
  unfold Tables.posted at h ⊢
  unfold Tables.reservedBy
  rcases List.eq_nil_or_concat (t.postedQtys rqstId form k) with hnil | ⟨init, x, he⟩
  · rw [hnil] at h
    exact absurd h (lt_irrefl 0)
  · rw [he] at h ⊢
    simp only [List.concat_eq_append, List.getLast?_append, List.getLast?_singleton, Option.some_or,
      Option.getD_some] at h ⊢
    simp [List.filter_append, h]

/-- The package a form is processed for holds no more of a batch than is reserved. -/
theorem held_le_reserved (hl : StockLedger t) (hc : t.Consistent) (h : Processed ctx form vc r t t₁ new old q t₀ plans)
    (hq : q.statusCode ≠ .dispatched) {b : ItemBatch} (hb : b ∈ t.itembatch.rows) :
    t.held r.reliefrqstId b.key ≤ b.reservedQty := by
  rcases getOrCreatePkg_rows hc h.pkg with hf | ⟨hf, -, -⟩
  · rw [held_eq hc h, hl.reserved b hb]
    exact pkgQty_le_pledged hc.pkgItem (mem_of_firstPkg hf).1 hq b.key
  · rw [Tables.held, hf]
    exact (hl.bounds b hb).1

variable {t₂ : Tables}

theorem Saved.planned (hs : Saved ctx form r t t' q p t₁ t₂ new old) :
    ∃ t₀ plans, Processed ctx form false r t t₁ new old q t₀ plans ∧
      List.Forall₂ (fun item plan => planItem ctx form false t.itembatch t.inventory old item = .ok plan)
        (t.rqstItems r.reliefrqstId) plans := by
  obtain ⟨q', t₀, plans, hp, hplans⟩ := processAllocations_plans hs.processed
  cases Option.mem_unique hs.before hp.firstPkg
  exact ⟨t₀, plans, hp, hplans⟩

/-- A package that is not dispatched now was not dispatched before. -/
theorem Saved.undispatched (hs : Saved ctx form r t t' q p t₁ t₂ new old) (hc : t.Consistent)
    (hc' : t'.rounded.Consistent) (hund : p.statusCode ≠ .dispatched) : q.statusCode ≠ .dispatched := by
  have hdtime : q.dispatchDtime = none := by
    rw [← hs.dtime]
    have hp : p ∈ t'.rounded.reliefpkg.rows := (mem_of_firstPkg hs.after).1
    rcases hc'.pkg p hp with ⟨hd, -⟩ | ⟨-, hst⟩
    · exact hd
    · exact absurd hst hund
  obtain ⟨t₀, plans, hp, -⟩ := hs.planned
  rcases getOrCreatePkg_rows hc hp.pkg with hf | ⟨-, rfl, -⟩
  · rcases hc.pkg q (mem_of_firstPkg hf).1 with ⟨-, hst⟩ | ⟨hd, -⟩
    · exact hst
    · rw [hdtime] at hd
      cases hd
  · simp [newPkg]

theorem Saved.rows (hs : Saved ctx form r t t' q p t₁ t₂ new old) (k : BatchKey) :
    t'.rounded.pkgQty p.reliefpkgId k = numeric 4 (t.posted r.reliefrqstId form k) := by
  obtain ⟨t₀, plans, hp, -⟩ := hs.planned
  have hitems : t'.reliefpkgItem = t₁.reliefpkgItem := by rw [(reserveInventory_ok hs.reserve).1, hs.frame]
  have hqty : t'.pkgQty p.reliefpkgId k = t₁.pkgQty q.reliefpkgId k := by
    simp only [Tables.pkgQty, hitems, hs.id]
  rw [pkgQty_rounded, hqty, hp.posted_eq]

/-- Every batch has the package's quantities reserved in place of those it held. -/
theorem Saved.batch (hs : Saved ctx form r t t' q p t₁ t₂ new old) (hl : StockLedger t) (hc : t.Consistent)
    (hq : q.statusCode ≠ .dispatched) (k : BatchKey) :
    t'.rounded.itembatch.get? k = (t.itembatch.get? k).map fun b =>
      { b with reservedQty := b.reservedQty - t.held r.reliefrqstId k + numeric 4 (t.reservedBy r.reliefrqstId form k) } := by
  obtain ⟨t₀, plans, hp, -⟩ := hs.planned
  have hb₂ : t₂.itembatch = t.itembatch := by rw [hs.frame, ← hp.itembatch_eq]
  rw [rounded_itembatch, (reserveInventory_ok hs.reserve).2.1, hb₂, Option.map_map]
  cases hg : t.itembatch.get? k with
  | none => rfl
  | some b =>
    have hm := Table.mem_of_get? hg
    obtain rfl : b.key = k := Table.key_of_get? hg
    have hheld := held_le_reserved hl hc hp hq hm
    have hnn : 0 ≤ t.reservedBy r.reliefrqstId form b.key := reservedBy_nonneg
    have hdelta : (newBatchReservations new).qty b.key - old.qty b.key =
        t.reservedBy r.reliefrqstId form b.key - t.held r.reliefrqstId b.key := by
      rw [hp.new_qty_eq, hp.old_qty, held_eq hc hp]
    have hsum : numeric 4 (b.reservedQty + (t.reservedBy r.reliefrqstId form b.key - t.held r.reliefrqstId b.key)) =
        b.reservedQty - t.held r.reliefrqstId b.key + numeric 4 (t.reservedBy r.reliefrqstId form b.key) := by
      have hscale : AtScale 4 (b.reservedQty - t.held r.reliefrqstId b.key) := by
        refine AtScale.sub ?_ ?_
        · exact congrArg ItemBatch.reservedQty (rounded_batch hc hm)
        · rw [held_eq hc hp]
          exact stored_pkgQty hc q.reliefpkgId b.key
      rw [← numeric_add hscale (by linarith) hnn]
      ring_nf
    have hround := rounded_batch hc hm
    have hset : ∀ x, ({ b with reservedQty := x } : ItemBatch).rounded = { b.rounded with reservedQty := numeric 4 x } :=
      fun _ => rfl
    rw [Option.map_some, Option.map_some, Function.comp, hset, hround, hdelta, bumped_of_nonneg (by linarith), hsum]

theorem Saved.keys (hs : Saved ctx form r t t' q p t₁ t₂ new old) :
    t'.rounded.itembatch.keys = t.itembatch.keys := by
  obtain ⟨t₀, plans, hp, -⟩ := hs.planned
  have hround : t'.rounded.itembatch.keys = t'.itembatch.keys := by
    simp only [Tables.rounded, Table.keys, Table.mapRows, List.map_map]
    rfl
  rw [hround, reserveInventory_keys hs.reserve, hs.frame, hp.itembatch_eq]

/-- The rows add up to what is saved of the batches. -/
theorem Saved.sum (hs : Saved ctx form r t t' q p t₁ t₂ new old) (hc' : t'.rounded.Consistent) (P : BatchKey → Bool) :
    (((t'.rounded.pkgItems p.reliefpkgId).filter fun i => P i.batch).map ReliefPkgItem.itemQty).sum =
      t.savedOf r.reliefrqstId form P := by
  rw [rows_sum hc']
  refine Table.sum_congr hs.keys fun k b b' hb hb' => ?_
  have hk : b.key = k := Table.key_of_get? hb
  have hk' : b'.key = k := Table.key_of_get? hb'
  exact ⟨by rw [hk, hk'], fun _ => by rw [hk, hk', hs.rows]⟩

/-- A warehouse that a row takes from has as reserved, in cents, what comes to be reserved there. -/
theorem Saved.total (hs : Saved ctx form r t t' q p t₁ t₂ new old) (hl : StockLedger t) (hc : t.Consistent)
    (hq : q.statusCode ≠ .dispatched) {i : ReliefPkgItem} (hi : i ∈ t'.rounded.positiveItems p.reliefpkgId) :
    ∃ v, t'.rounded.inventory.get? i.batch.stock = some v ∧
      v.reservedQty = numeric 2 (t.reservedThen r.reliefrqstId form i.batch.stock) := by
  obtain ⟨t₀, plans, hp, -⟩ := hs.planned
  obtain ⟨-, -, -, htot, -⟩ := reserveInventory_ok hs.reserve
  have hpos : 0 < t.posted r.reliefrqstId form i.batch := by
    obtain ⟨hi, hpos⟩ := mem_positiveItems.1 hi
    rw [← pkgQty_of_mem hi, hs.rows] at hpos
    exact pos_of_numeric_pos hpos
  have hnew : i.batch ∈ (newBatchReservations new).keys := by
    by_contra hno
    have hzero := Allocations.qty_of_not_mem hno
    rw [hp.new_qty_eq, reservedBy_of_posted hpos] at hzero
    exact hpos.ne' hzero
  obtain ⟨v, -, -, -, hv⟩ := htot i.batch.stock ⟨i.batch, mem_allBatchKeys.2 (.inr hnew), rfl⟩
  have hsum : sumReserved t'.itembatch i.batch.stock = t.reservedThen r.reliefrqstId form i.batch.stock := by
    have hround : sumReserved t'.itembatch i.batch.stock =
        batchSum t'.rounded.itembatch i.batch.stock ItemBatch.reservedQty :=
      (Table.sum_mapRows (p := fun b => decide (b.key.stock = i.batch.stock)) key_rounded_itembatch
        ItemBatch.reservedQty).symm
    rw [hround]
    refine Table.sum_congr hs.keys fun k b b' hb hb' => ?_
    have hk : b.key = k := Table.key_of_get? hb
    rw [hs.batch hl hc hq, hb, Option.map_some, Option.some.injEq] at hb'
    rw [← hb']
    exact ⟨rfl, fun _ => by rw [hk]⟩
  rw [hsum] at hv
  refine ⟨Inventory.rounded { v with reservedQty := t.reservedThen r.reliefrqstId form i.batch.stock }, ?_, rfl⟩
  simp only [Tables.rounded, Table.get?_mapRows, hv, Option.map_some]

/-- Every item gets the `issue_qty` of the status the form asks for. -/
theorem Saved.issues (hs : Saved ctx form r t t' q p t₁ t₂ new old) {P : Nat → ℚ → Prop} :
    (∀ i ∈ t'.rounded.rqstItems r.reliefrqstId, P i.itemId i.issueQty) ↔
      ∀ i ∈ t.rqstItems r.reliefrqstId, ∀ s, form.requestedStatus i = .code s →
        P i.itemId (numeric 2 (issueQtyFor s (form.total i.itemId) i.requestQty)) := by
  obtain ⟨t₀, plans, hp, hplans⟩ := hs.planned
  have hitems : t'.rqstItems r.reliefrqstId = t₁.rqstItems r.reliefrqstId := by
    rw [Tables.rqstItems, (reserveInventory_ok hs.reserve).1, hs.frame]
    rfl
  rw [forall_rqstItems_rounded, hitems, hp.forall_rqstItems]
  refine (forall_iff_of_forall₂ hplans fun item _ plan hplan => ?_).symm
  have hok := planItem_ok hplan
  obtain ⟨hask, -⟩ := planItem_status hplan
  have hid : plan.2.itemId = item.itemId := by rw [hok.row]
  have hissue : plan.2.issueQty = issueQtyFor plan.2.statusCode (form.total item.itemId) item.requestQty := by
    rw [hok.row, hok.typed]
    rfl
  have hrow : P plan.2.rounded.itemId plan.2.rounded.issueQty ↔
      P item.itemId (numeric 2 (issueQtyFor plan.2.statusCode (form.total item.itemId) item.requestQty)) := by
    rw [show plan.2.rounded.itemId = item.itemId from hid, ← hissue]
    rfl
  rw [hrow]
  constructor
  · intro hall
    exact hall plan.2.statusCode hask
  · intro hone s hst
    rw [hask] at hst
    cases hst
    exact hone

/-! ## Both comparisons -/

/-- `issue_qty` is in cents, so a positive one is more than a thousandth. -/
theorem savable_iff {s : ItemStatus} {total requested saved : ℚ} (hr : AtScale 2 requested) (h0 : 0 ≤ saved) :
    (¬ (0 < numeric 2 (issueQtyFor s total requested) ∧ saved = 0) ∧
      |numeric 2 (issueQtyFor s total requested) - saved| ≤ 1 / 1000) ↔ Savable s total requested saved := by
  have hcents : ∀ x : ℚ, |numeric 2 x - saved| ≤ 1 / 1000 → ¬ (0 < numeric 2 x ∧ saved = 0) := by
    rintro x hle ⟨hpos, rfl⟩
    have hcent := cent_le (numeric_atScale 2 x) hpos
    rw [sub_zero, abs_of_pos hpos] at hle
    linarith
  rw [and_iff_right_of_imp (hcents _)]
  have hfill : numeric 2 requested = requested := hr
  have hnone : |numeric 2 0 - saved| ≤ 1 / 1000 ↔ saved ≤ 1 / 1000 := by
    rw [numeric_zero, zero_sub, abs_neg, abs_of_nonneg h0]
  cases s with
  | requested | unavailable | waiting | denied => exact hnone
  | partlyFilled | limitAllowed => exact Iff.rfl
  | filled =>
    have hf : issueQtyFor .filled total requested = requested := rfl
    rw [hf, hfill]
    rfl

theorem Saved.issuesMatch_iff (hs : Saved ctx form r t t' q p t₁ t₂ new old) (hc : t.Consistent)
    (hc' : t'.rounded.Consistent) :
    IssuesMatch (t'.rounded.rqstItems r.reliefrqstId) (t'.rounded.pkgItems p.reliefpkgId) ↔
      ∀ i ∈ t.rqstItems r.reliefrqstId, ∀ s, form.requestedStatus i = .code s →
        Savable s (form.total i.itemId) i.requestQty (t.savedOf r.reliefrqstId form fun k => k.itemId = i.itemId) := by
  have htotal : ∀ itemId, itemTotal (t'.rounded.pkgItems p.reliefpkgId) itemId =
      t.savedOf r.reliefrqstId form fun k => k.itemId = itemId := fun itemId => hs.sum hc' fun k => k.itemId = itemId
  have hnn : ∀ itemId, 0 ≤ t.savedOf r.reliefrqstId form fun k => k.itemId = itemId := fun itemId => by
    rw [← htotal]
    refine List.sum_nonneg fun x hx => ?_
    obtain ⟨i, hi, rfl⟩ := List.mem_map.1 hx
    exact hc'.pkgItem i (mem_pkgItems.1 (List.mem_filter.1 hi).1).1
  simp only [IssuesMatch, htotal]
  refine (hs.issues (P := fun itemId x => ¬ (0 < x ∧ (t.savedOf r.reliefrqstId form fun k => k.itemId = itemId) = 0) ∧
    |x - t.savedOf r.reliefrqstId form fun k => k.itemId = itemId| ≤ 1 / 1000)).trans ?_
  refine forall₂_congr fun i hi => forall₂_congr fun s _ => ?_
  exact savable_iff (stored_requestQty hc (Tables.mem_rqstItems.1 hi).1).1 (hnn i.itemId)

theorem Saved.taken (hs : Saved ctx form r t t' q p t₁ t₂ new old) (hc' : t'.rounded.Consistent) (s : StockKey) :
    t'.rounded.taken p s = t.savedOf r.reliefrqstId form fun k => k.stock = s := by
  rw [← hs.sum hc', Tables.taken, takenFrom, Tables.positiveItems, List.filter_comm]
  refine sum_filter_pos fun i hi => ?_
  exact hc'.pkgItem i (mem_pkgItems.1 (List.mem_filter.1 hi).1).1

/-- Every row has its quantity reserved of its batch. -/
theorem Saved.batch_has (hs : Saved ctx form r t t' q p t₁ t₂ new old) (hl : StockLedger t) (hc : t.Consistent)
    (hc' : t'.rounded.Consistent) (hq : q.statusCode ≠ .dispatched) {i : ReliefPkgItem}
    (hi : i ∈ t'.rounded.positiveItems p.reliefpkgId) :
    ∃ b, t'.rounded.itembatch.get? i.batch = some b ∧ i.itemQty ≤ b.reservedQty := by
  obtain ⟨t₀, plans, hp, -⟩ := hs.planned
  obtain ⟨hm, hpos⟩ := mem_positiveItems.1 hi
  obtain ⟨b', hb', hk⟩ := List.mem_map.1 (hc'.fkBatch i (mem_pkgItems.1 hm).1)
  have hg : t'.rounded.itembatch.get? i.batch = some b' := Table.get?_eq_some.2 ⟨hb', hk⟩
  refine ⟨b', hg, ?_⟩
  rw [hs.batch hl hc hq] at hg
  obtain ⟨b, hb, rfl⟩ := Option.map_eq_some_iff.1 hg
  have hheld := held_le_reserved hl hc hp hq (Table.mem_of_get? hb)
  rw [show b.key = i.batch from Table.key_of_get? hb] at hheld
  rw [← pkgQty_of_mem hm, hs.rows] at hpos ⊢
  rw [← reservedBy_of_posted (pos_of_numeric_pos hpos)]
  simp only
  linarith

theorem Saved.reservedThen_nonneg (hs : Saved ctx form r t t' q p t₁ t₂ new old) (hl : StockLedger t)
    (hc : t.Consistent) (hq : q.statusCode ≠ .dispatched) (s : StockKey) :
    0 ≤ t.reservedThen r.reliefrqstId form s := by
  obtain ⟨t₀, plans, hp, -⟩ := hs.planned
  refine List.sum_nonneg fun x hx => ?_
  obtain ⟨b, hb, rfl⟩ := List.mem_map.1 hx
  have hheld := held_le_reserved hl hc hp hq (List.mem_filter.1 hb).1
  have hnn : 0 ≤ numeric 4 (t.reservedBy r.reliefrqstId form b.key) := numeric_nonneg reservedBy_nonneg
  linarith

/-- The batches always have the rows; the warehouses have them when they have the sums. -/
theorem Saved.undo_iff (hs : Saved ctx form r t t' q p t₁ t₂ new old) (hl : StockLedger t) (hc : t.Consistent)
    (hc' : t'.rounded.Consistent) (hq : q.statusCode ≠ .dispatched) :
    (∃ u, undoLoReservations (t'.rounded.pkgItems p.reliefpkgId) t'.rounded = .ok u) ↔
      ∀ s, t.savedOf r.reliefrqstId form (fun k => k.stock = s) ≤ numeric 2 (t.reservedThen r.reliefrqstId form s) := by
  rw [undoLoReservations_ok_iff hc', and_iff_right fun i hi => hs.batch_has hl hc hc' hq hi]
  constructor
  · intro hall s
    rw [← hs.taken hc']
    by_cases hs0 : s ∈ affectedInventory ((t'.rounded.positiveItems p.reliefpkgId).map ReliefPkgItem.batch)
    · obtain ⟨k, hk, rfl⟩ := mem_affectedInventory.1 hs0
      obtain ⟨i, hi, rfl⟩ := List.mem_map.1 hk
      obtain ⟨v, hv, hle⟩ := hall i hi
      obtain ⟨v', hv', hr⟩ := hs.total hl hc hq hi
      cases Option.mem_unique hv hv'
      rw [← hr]
      exact hle
    · -- nothing is taken from there
      rw [taken_eq_zero hs0]
      exact numeric_nonneg (hs.reservedThen_nonneg hl hc hq s)
  · intro hall i hi
    obtain ⟨v, hv, hr⟩ := hs.total hl hc hq hi
    refine ⟨v, hv, ?_⟩
    rw [hs.taken hc', hr]
    exact hall i.batch.stock

/-! ## Quantities in cents -/

/-- With one field for a batch there is no other one. -/
theorem Form.OneFieldPerBatch.lastCounts (h : form.OneFieldPerBatch) : LastCounts t form rqstId := by
  intro k x hx
  unfold Tables.postedQtys at hx
  split_ifs at hx
  · have hone := filter_of_nodup_map h (k.itemId, k.batchId)
    have hpair : (((form.allocations.filter AllocField.named).filter fun f => f.itemId = k.itemId).filter fun f =>
        safeId f.batchPart = k.batchId) =
        (form.allocations.filter AllocField.named).filter fun f =>
          (f.itemId, safeId f.batchPart) = (k.itemId, k.batchId) := by
      rw [List.filter_filter]
      refine List.filter_congr fun f _ => ?_
      simp only [Prod.mk.injEq, Bool.decide_and]
      exact Bool.and_comm _ _
    rw [hpair, hone] at hx
    generalize (form.allocations.filter AllocField.named).find? _ = o at hx
    cases o <;> cases hx
  · cases hx

/-- Then a batch has reserved what is in its row. -/
theorem reservedBy_of_lastCounts (h : LastCounts t form rqstId) (hnn : ∀ x ∈ t.postedQtys rqstId form k, 0 ≤ x) :
    t.reservedBy rqstId form k = t.posted rqstId form k := by
  by_cases hpos : 0 < t.posted rqstId form k
  · exact reservedBy_of_posted hpos
  · have hlast := h k
    unfold Tables.posted at hpos ⊢
    unfold Tables.reservedBy
    rcases List.eq_nil_or_concat (t.postedQtys rqstId form k) with hnil | ⟨init, x, he⟩
    · rw [hnil]
      rfl
    · rw [he] at hpos hlast hnn ⊢
      simp only [List.concat_eq_append, List.getLast?_append, List.getLast?_singleton, Option.some_or,
        Option.getD_some, List.dropLast_concat] at hpos hlast hnn ⊢
      have hx : x = 0 := le_antisymm (not_lt.1 hpos) (hnn x (by simp))
      have hnil : (init ++ [x]).filter (fun y => 0 < y) = [] := by
        rw [List.filter_eq_nil_iff]
        intro y hy hpos
        rcases List.mem_append.1 hy with hy | hy
        · exact absurd (hlast y hy) (of_decide_eq_true hpos).ne'
        · exact absurd (List.mem_singleton.1 hy ▸ hx) (of_decide_eq_true hpos).ne'
      rw [hnil, hx]
      rfl

/-- An allowed status lets the rows have what was posted, in cents. -/
theorem savable_of_allowed {status : ItemStatus} {total requested : ℚ} {active : Bool} (hreq : AtScale 2 requested)
    (htotal : AtScale 2 total) (hle : total ≤ requested) (hs : status ∈ (statusOptions total requested active).2) :
    Savable status total requested total := by
  rcases mem_statusOptions hle hs with ⟨rfl, hs'⟩ | ⟨-, rfl, rfl⟩ | ⟨-, hlt, hs'⟩
  · cases status <;> first | exact (by norm_num : (0 : ℚ) ≤ 1 / 1000) | simp at hs'
  · rw [Savable, sub_self, abs_zero]
    norm_num
  · have hcap := (numeric_cap_eq_iff hreq hlt).2 htotal
    cases status with
    | partlyFilled | limitAllowed =>
      rw [Savable, hcap, sub_self, abs_zero]
      norm_num
    | _ => simp at hs'

/-- The rows of an item add up to what was checked, when no quantity is lost on the way. -/
theorem Saved.savedOf_item (hs : Saved ctx form r t t' q p t₁ t₂ new old) (hc' : t'.rounded.Consistent)
    (hlast : LastCounts t form r.reliefrqstId) (hfit : FitsColumn t form r.reliefrqstId) {item : ReliefRqstItem}
    (hitem : item ∈ t.rqstItems r.reliefrqstId) :
    (t.savedOf r.reliefrqstId form fun k => k.itemId = item.itemId) = form.total item.itemId := by
  obtain ⟨t₀, plans, hp, -⟩ := hs.planned
  have hplan := (hp.onePlan_iff (u := t₁.rounded) (numeric_zero 4) (fun x hx => numeric_nonneg hx)
    (pkgQty_rounded t₁ q.reliefpkgId) fun i hi => by
      obtain ⟨j, hj, rfl⟩ := mem_pkgItems_rounded.1 hi
      exact ⟨j, hj, rfl⟩).2 ⟨hlast, hfit⟩
  have hitems : t'.rounded.pkgItems p.reliefpkgId = t₁.rounded.pkgItems q.reliefpkgId := by
    rw [(reserveInventory_ok hs.reserve).1, hs.frame, hs.id]
    rfl
  rw [← hs.sum hc', hitems]
  exact (hplan.checked item hitem).symm

/-- In cents, and with nothing reserved but what is written, a warehouse has the sum of the rows. -/
theorem Saved.cents_stock (hs : Saved ctx form r t t' q p t₁ t₂ new old) (hl : StockLedger t) (hc : t.Consistent)
    (hq : q.statusCode ≠ .dispatched) (hlast : LastCounts t form r.reliefrqstId) (hdec : form.Decimals 2)
    (s : StockKey) :
    t.savedOf r.reliefrqstId form (fun k => k.stock = s) ≤ numeric 2 (t.reservedThen r.reliefrqstId form s) := by
  obtain ⟨t₀, plans, hp, -⟩ := hs.planned
  have hscale : AtScale 2 (t.savedOf r.reliefrqstId form fun k => k.stock = s) := by
    refine AtScale.sum fun x hx => ?_
    obtain ⟨b, -, rfl⟩ := List.mem_map.1 hx
    have hb := hp.posted_atScale le_rfl hdec b.key
    rw [show numeric 4 (t.posted r.reliefrqstId form b.key) = _ from hb.mono (by norm_num : 2 ≤ 4)]
    exact hb
  have hle : (t.savedOf r.reliefrqstId form fun k => k.stock = s) ≤ t.reservedThen r.reliefrqstId form s := by
    refine List.sum_le_sum fun b hb => ?_
    have hheld := held_le_reserved hl hc hp hq (List.mem_filter.1 hb).1
    rw [reservedBy_of_lastCounts hlast fun x hx => hp.posted_nonneg hx]
    linarith
  calc (t.savedOf r.reliefrqstId form fun k => k.stock = s)
      = numeric 2 (t.savedOf r.reliefrqstId form fun k => k.stock = s) := hscale.symm
    _ ≤ numeric 2 (t.reservedThen r.reliefrqstId form s) := numeric_mono hle

/-- **Cents, in one field for each batch, fit**, when the statuses that were kept do. -/
theorem Saved.cents_fit (hs : Saved ctx form r t t' q p t₁ t₂ new old) (hl : StockLedger t) (hc : t.Consistent)
    (hc' : t'.rounded.Consistent) (hq : q.statusCode ≠ .dispatched) (hone : form.OneFieldPerBatch)
    (hdec : form.Decimals 2) (hkept : KeptStatusesFit ctx form r.reliefrqstId t) :
    FormFits t r.reliefrqstId form := by
  obtain ⟨t₀, plans, hp, hplans⟩ := hs.planned
  have hlast : LastCounts t form r.reliefrqstId := hone.lastCounts
  have htyped : ∀ i ∈ t.rqstItems r.reliefrqstId, ∀ x ∈ form.typed i.itemId, AtScale 2 x :=
    hp.typed_iff.2 fun a ha => hp.qty_atScale le_rfl hdec ha
  have hfit : FitsColumn t form r.reliefrqstId := fun i hi x hx => (htyped i hi x hx).mono (by norm_num : 2 ≤ 4)
  refine ⟨fun item hitem s hst => ?_, hs.cents_stock hl hc hq hlast hdec⟩
  obtain ⟨plan, -, hplanned⟩ := exists_of_forall₂_left hplans item hitem
  obtain ⟨-, hle⟩ := planned_total hplanned
  have hasked : plan.2.statusCode = s := FormStatus.code.inj ((planItem_status hplanned).1.symm.trans hst)
  have hal := (planned_allowed hc hp hplanned).2 (hkept item hitem)
  rw [hasked] at hal
  rw [hs.savedOf_item hc' hlast hfit hitem]
  exact savable_of_allowed (stored_requestQty hc (Tables.mem_rqstItems.1 hitem).1).1 (AtScale.sum (htyped item hitem))
    hle (statusOptions_of_allowed hal)

end

/-- **A saved plan can be dispatched exactly when the rows get what the status of each item allows, and of each
warehouse no more than the rounded sum of what comes to be reserved there.** With more than twelve decimals the
differences are not those of Python's context. -/
theorem saved_plan_dispatchable (db : Database) (hl : StockLedger db.tables) (ctx : Ctx) (rqstId : Nat)
    (action : PrepareAction) (post : Post) (_hdec : post.form.Decimals 12) (ha : action ≠ .sendForDispatch)
    (hcom : Commits db (.preparePackage ctx rqstId action post)) (p : ReliefPkg)
    (hp : (step db (.preparePackage ctx rqstId action post)).tables.firstPkg rqstId = some p)
    (hund : p.statusCode ≠ .dispatched) :
    Dispatchable (step db (.preparePackage ctx rqstId action post)).tables p ↔ FormFits db.tables rqstId post.form := by
  obtain ⟨t', ht, hc', he⟩ := step_of_commits hcom
  obtain ⟨r, q, p', t₁, t₂, new, old, rfl, hs⟩ := route_saved ha ht
  have hc := db.consistent
  rw [he] at hp ⊢
  have hpp : p' = p := Option.some.inj (hs.after.symm.trans hp)
  subst hpp
  have hq := hs.undispatched hc hc' hund
  have hr : p'.reliefrqstId = r.reliefrqstId := (mem_of_firstPkg hs.after).2
  constructor
  · intro hd
    have hissues := hd.issues
    rw [hr] at hissues
    exact ⟨(hs.issuesMatch_iff hc hc').1 hissues, (hs.undo_iff hl hc hc' hq).1 hd.undo⟩
  · intro hf
    refine ⟨?_, (hs.undo_iff hl hc hc' hq).2 hf.stock⟩
    rw [hr]
    exact (hs.issuesMatch_iff hc hc').2 hf.items

/-- A plan in cents, with one field for each batch and no status kept that does not fit, is saved so that it fits. -/
theorem cents_fit (db : Database) (hl : StockLedger db.tables) (ctx : Ctx) (rqstId : Nat) (action : PrepareAction)
    (post : Post) (ha : action ≠ .sendForDispatch) (hcom : Commits db (.preparePackage ctx rqstId action post))
    (p : ReliefPkg) (hp : (step db (.preparePackage ctx rqstId action post)).tables.firstPkg rqstId = some p)
    (hund : p.statusCode ≠ .dispatched) (hf : post.form.Exact)
    (hkept : KeptStatusesFit ctx post.form rqstId db.tables) : FormFits db.tables rqstId post.form := by
  obtain ⟨t', ht, hc', he⟩ := step_of_commits hcom
  obtain ⟨r, q, p', t₁, t₂, new, old, rfl, hs⟩ := route_saved ha ht
  rw [he] at hp
  have hpp : p' = p := Option.some.inj (hs.after.symm.trans hp)
  subst hpp
  exact hs.cents_fit hl db.consistent hc' (hs.undispatched db.consistent hc' hund) hf.oneField hf.decimals hkept

namespace Site

/-- A form that is saved as a draft. -/
def saving (q : ℚ) : Op := .preparePackage officer 1 .saveDraft (post 3 .absent q)

end Site

theorem saved_plan_dispatchable_site :
    Dispatchable (step Site.db (Site.saving 2)).tables Site.draftedPkg := by
  have hcom : Commits Site.db (Site.saving 2) := by decide +kernel
  have hp : (step Site.db (Site.saving 2)).tables.firstPkg 1 = some Site.draftedPkg := by decide +kernel
  have hund : Site.draftedPkg.statusCode ≠ .dispatched := by decide
  have hsave : PrepareAction.saveDraft ≠ .sendForDispatch := by decide
  have hexact : (Site.post 3 .absent 2).form.Exact := Site.form_exact (by decide +kernel)
  refine (saved_plan_dispatchable Site.db Site.ledger.stock Site.officer 1 .saveDraft (Site.post 3 .absent 2)
    (fun a ha q hv => (hexact.decimals a ha q hv).mono (by norm_num)) hsave hcom Site.draftedPkg hp hund).2 ?_
  refine cents_fit Site.db Site.ledger.stock Site.officer 1 .saveDraft (Site.post 3 .absent 2) hsave hcom
    Site.draftedPkg hp hund hexact ?_
  unfold KeptStatusesFit
  decide +kernel

/-- Four thousandths more than a unit, at a warehouse where nothing else is reserved. -/
theorem saved_plan_stuck :
    Commits Site.db (Site.saving 1.004) ∧
    (step Site.db (Site.saving 1.004)).tables.firstPkg 1 = some Site.draftedPkg ∧
    ((step Site.db (Site.saving 1.004)).tables.pkgQty 1 ⟨1, 1, 1⟩, (step Site.db (Site.saving 1.004)).tables.issued 1 1) =
      (1.004, 1) ∧ ¬ Dispatchable (step Site.db (Site.saving 1.004)).tables Site.draftedPkg := by
  have hundo : (undoLoReservations ((step Site.db (Site.saving 1.004)).tables.pkgItems 1)
      (step Site.db (Site.saving 1.004)).tables).isOk = false := by decide +kernel
  refine ⟨by decide +kernel, by decide +kernel, by decide +kernel, fun hd => ?_⟩
  obtain ⟨u, hu⟩ := hd.undo
  rw [show Site.draftedPkg.reliefpkgId = 1 from rfl] at hu
  rw [hu] at hundo
  cases hundo

end Dmis
