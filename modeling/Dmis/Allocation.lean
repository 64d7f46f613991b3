import Dmis.Reservation

/-!
# Processing a posted allocation

`_process_allocations` (`packaging.py:1785-2058`): for every item of the request, read the posted
batch quantities, validate them (`validate_batch_allocation`, `batch_allocation_service.py:337-391`),
settle the item's status, and upsert the package rows; at the end, delete the rows that were not
posted. It returns the positive quantities (`new_allocations`) and the quantities the package had
before (`_old_allocations`).
-/

namespace Dmis

open Relational Keyed

/-! ## One batch -/

/-- `ItemBatch.query.get(batch_id)`. -/
def batchById (batches : Table ItemBatch) (batchId : Nat) : Option ItemBatch :=
  batches.rows.find? fun b => decide (b.batchId = batchId)

def ItemBatch.Expired (today : Day) (b : ItemBatch) : Prop := ∃ d ∈ b.expiryDate, d < today

instance (today : Day) (b : ItemBatch) : Decidable (b.Expired today) := by
  unfold ItemBatch.Expired; infer_instance

/-- `validate_batch_allocation`. The package's own quantity counts as available. -/
def validateBatchAllocation (today : Day) (b : ItemBatch) (itemId : Nat) (allocated current : ℚ) :
    Except Err Unit := do
  check (b.itemId = itemId) (.batchOfOtherItem b.batchId itemId)
  check (b.statusCode = .active) (.batchNotAvailable b.batchNo b.statusCode)
  check (¬ b.Expired today) (.batchExpired b.batchNo b.expiryDate)
  let available := b.usableQty - (b.reservedQty - current)
  check (¬ (available < allocated ∧ available ≤ 0)) (.noAvailableInventory b.batchNo b.usableQty)
  check (¬ available < allocated) (.onlyAvailable b.batchNo available allocated)
  check (0 < allocated) .quantityNotPositive

/-! ## One item -/

/-- What a posted positive quantity must pass; `batch.inventory` of a batch without a warehouse row is
`None`, and reading its id raises. -/
def checkAllocation (ctx : Ctx) (totals : Table Inventory) (old : Allocations) (itemId : Nat) (b : ItemBatch)
    (allocated : ℚ) : Except Err Unit :=
  if 0 < allocated then do
    validateBatchAllocation ctx.today b itemId allocated (old.qty ⟨itemId, b.inventoryId, b.batchId⟩)
    check (totals.get? b.key.stock ≠ none) (.inventoryMissing b.key.stock)
  else .ok ()

/-- One posted field: `none` when its batch id is no positive number. A zero quantity is kept, as a
marker that the drawer was opened. -/
def readField (ctx : Ctx) (batches : Table ItemBatch) (totals : Table Inventory) (old : Allocations)
    (itemId : Nat) (f : AllocField) : Except Err (Option (Alloc × String)) :=
  if safeId f.batchPart = 0 then .ok none
  else do
    let allocated ← safeQuantity f.value
    let b ← require (batchById batches (safeId f.batchPart)) (.batchNotFound (safeId f.batchPart))
    checkAllocation ctx totals old itemId b allocated
    pure (some (⟨itemId, b.batchId, b.inventoryId, allocated⟩, b.uomCode))

/-- The posted fields of an item, in key order. -/
def readFields (ctx : Ctx) (batches : Table ItemBatch) (totals : Table Inventory) (old : Allocations)
    (itemId : Nat) : List AllocField → Except Err (List (Alloc × String))
  | [] => .ok []
  | f :: fs => do
    let a ← readField ctx batches totals old itemId f
    let as ← readFields ctx batches totals old itemId fs
    pure (a.toList ++ as)

/-- The status without one in the form. -/
def calculatedStatus (total requested : ℚ) : ItemStatus :=
  if total = 0 then .requested else if requested ≤ total then .filled else .partlyFilled

/-- `issue_qty` by status, as `c_reliefrqst_item_2a` wants it. -/
def issueQtyFor (s : ItemStatus) (total requested : ℚ) : ℚ :=
  match s with
  | .requested | .unavailable | .waiting | .denied => 0
  | .partlyFilled | .limitAllowed => min total (requested - 1 / 100)
  | .filled => requested

/-- A decimal that is not negative, with `s` digits behind the point. -/
def decimalText (s : ℕ) (q : ℚ) : String :=
  let scaled := (q * 10 ^ s).floor.toNat
  let digits := String.ofList (List.leftpad s '0' (Nat.toDigits 10 (scaled % 10 ^ s)))
  if s = 0 then s!"{scaled}" else s!"{scaled / 10 ^ s}.{digits}"

/-- The digits behind the point that a decimal needs. -/
def neededDigits (q : ℚ) : ℕ := ((List.range (Nat.log2 q.den + 1)).find? fun s => q.den ∣ 10 ^ s).getD 0

/-- `status_reason_desc`: a denied or limited item gets the typed reason or a default one. What was requested is read
from a column of two decimals; the total is printed as the page types it, with no zeros behind. -/
def reasonFor (s : ItemStatus) (custom : String) (total requested : ℚ) : Option String :=
  match s with
  | .limitAllowed =>
    let allocated := decimalText (neededDigits total) total
    let asked := decimalText 2 requested
    some (if custom = "" then s!"Allocated {allocated} of {asked} based on available stock" else custom)
  | .denied => some (if custom = "" then "Item denied due to logistics constraints" else custom)
  | _ => none

/-- Statuses that may be sent for dispatch with part of the request allocated. -/
def allowsPartial : Option FormStatus → Bool
  | some (.code s) => s ∈ [ItemStatus.unavailable, .denied, .waiting, .limitAllowed, .partlyFilled]
  | _ => false

/-- The loop body of `_process_allocations` up to the item's fields: what is allocated to the item
and the item's new row. -/
def planItem (ctx : Ctx) (form : Form) (validateComplete : Bool) (batches : Table ItemBatch)
    (totals : Table Inventory) (old : Allocations) (item : ReliefRqstItem) :
    Except Err (List (Alloc × String) × ReliefRqstItem) := do
  let fields := form.allocations.filter fun f => f.itemId = item.itemId
  let allocs ← readFields ctx batches totals old item.itemId fields
  let total := (allocs.map fun a => a.1.allocatedQty).sum
  validateQuantityLimit item.itemId total item.requestQty
  let formStatus := form.status item.itemId
  check (¬ (validateComplete = true ∧ total < item.requestQty ∧ ¬ allowsPartial formStatus))
    (.notFullyAllocated item.itemId total item.requestQty)
  let requested := formStatus.getD (.code (calculatedStatus total item.requestQty))
  let hasActivity := decide (item.itemId ∈ old.keys.map BatchKey.itemId ∨ fields ≠ [])
  let status ← validateStatusTransition ctx.activeItemStatuses item.itemId item.statusCode requested
    total item.requestQty hasActivity
  pure (allocs, { item with
    statusCode := status
    issueQty := issueQtyFor status total item.requestQty
    statusReasonDesc := reasonFor status (form.statusReason item.itemId) total item.requestQty
    actionById := if status = .requested then none else some ctx.userName
    versionNbr := item.versionNbr + 1 })

/-! ## The package -/

def allocRow (pkgId : Nat) (a : Alloc × String) : ReliefPkgItem :=
  ⟨pkgId, a.1.warehouseId, a.1.batchId, a.1.itemId, a.1.allocatedQty, a.2⟩

/-- Upsert by the map of the rows that existed before: a second new row with one key is an `INSERT`
that violates the primary key. -/
def writeRows (pkgId : Nat) (old : Allocations) : List (Alloc × String) → Table ReliefPkgItem →
    Except Err (Table ReliefPkgItem)
  | [], rows => .ok rows
  | a :: as, rows =>
    if a.1.key ∈ old.keys then writeRows pkgId old as (rows.set (allocRow pkgId a))
    else do
      let rows ← require (rows.insert (allocRow pkgId a)) .integrityError
      writeRows pkgId old as rows

/-- The loop over the items of the request; it also collects every posted quantity, zeros included. -/
def processItems (ctx : Ctx) (form : Form) (validateComplete : Bool) (pkgId : Nat) (old : Allocations) :
    List ReliefRqstItem → Tables → Except Err (Tables × List Alloc)
  | [], t => .ok (t, [])
  | item :: items, t => do
    let (allocs, item') ← planItem ctx form validateComplete t.itembatch t.inventory old item
    let rows ← writeRows pkgId old allocs t.reliefpkgItem
    let (t', rest) ← processItems ctx form validateComplete pkgId old items
      { t with reliefrqstItem := t.reliefrqstItem.set item', reliefpkgItem := rows }
    pure (t', allocs.map Prod.fst ++ rest)

/-- A package as `_process_allocations` creates it. -/
def newPkg (ctx : Ctx) (r : ReliefRqst) (id : Nat) : ReliefPkg :=
  { reliefpkgId := id
    reliefrqstId := r.reliefrqstId
    agencyId := r.agencyId
    statusCode := .pending
    dispatchDtime := none
    createById := ctx.userName
    updateById := ctx.userName
    verifyById := none
    receivedById := none
    receivedDtime := none
    versionNbr := 1 }

def getOrCreatePkg (ctx : Ctx) (r : ReliefRqst) (t : Tables) : Except Err (ReliefPkg × Tables) :=
  match t.firstPkg r.reliefrqstId with
  | some p => .ok (p, t)
  | none => do
    let p := newPkg ctx r t.nextReliefpkgId
    let pkgs ← require (t.reliefpkg.insert p) .integrityError
    pure (p, { t with reliefpkg := pkgs, nextReliefpkgId := t.nextReliefpkgId + 1 })

/-- `existing_allocations_map`. -/
def Tables.allocations (t : Tables) (pkgId : Nat) : Allocations :=
  ⟨(t.pkgItems pkgId).map fun i => (i.batch, i.itemQty), by
    rw [List.map_map]; exact nodup_pkgItems t pkgId⟩

/-- The items of a request, `relief_request.items`. -/
def Tables.rqstItems (t : Tables) (rqstId : Nat) : List ReliefRqstItem :=
  t.reliefrqstItem.select fun i => i.reliefrqstId = rqstId

def processAllocations (ctx : Ctx) (form : Form) (validateComplete : Bool) (r : ReliefRqst) (t : Tables) :
    Except Err (Tables × List Alloc × Allocations) := do
  let (p, t) ← getOrCreatePkg ctx r t
  let old := t.allocations p.reliefpkgId
  let (t, entries) ← processItems ctx form validateComplete p.reliefpkgId old
    (t.rqstItems r.reliefrqstId) t
  let kept := entries.map Alloc.key
  let rows := t.reliefpkgItem.deleteWhere fun i =>
    i.reliefpkgId = p.reliefpkgId ∧ i.batch ∈ old.keys ∧ i.batch ∉ kept
  pure ({ t with reliefpkgItem := rows }, entries.filter (0 < ·.allocatedQty), old)

/-! ## Reading the form -/

/-- A quantity `validate_batch_allocation` accepts. -/
structure Allocatable (today : Day) (b : ItemBatch) (itemId : Nat) (allocated current : ℚ) : Prop where
  item : b.itemId = itemId
  active : b.statusCode = .active
  fresh : ¬ b.Expired today
  fits : allocated ≤ b.usableQty - (b.reservedQty - current)
  pos : 0 < allocated

theorem validateBatchAllocation_ok {today : Day} {b : ItemBatch} {itemId : Nat} {q current : ℚ} {u : Unit}
    (h : validateBatchAllocation today b itemId q current = .ok u) : Allocatable today b itemId q current := by
  simp only [validateBatchAllocation, bind_ok, check_ok, exists_const] at h
  obtain ⟨h1, h2, h3, -, h4, h5⟩ := h
  exact ⟨h1, h2, h3, not_lt.1 h4, h5⟩

theorem batchById_eq_some {batches : Table ItemBatch} {id : Nat} {b : ItemBatch}
    (h : batchById batches id = some b) : b ∈ batches.rows ∧ b.batchId = id :=
  ⟨List.mem_of_find?_eq_some h, by simpa using List.find?_some h⟩

/-- The allocation `a` is what the field `f` posts for the item. -/
structure ReadsAs (ctx : Ctx) (batches : Table ItemBatch) (totals : Table Inventory) (old : Allocations)
    (itemId : Nat) (f : AllocField) (a : Alloc × String) : Prop where
  batch : a.1.batchId = safeId f.batchPart
  item : a.1.itemId = itemId
  qty : safeQuantity f.value = .ok a.1.allocatedQty
  /-- A positive quantity comes from a batch of the item that can give it. -/
  valid : 0 < a.1.allocatedQty → ∃ b, batches.get? a.1.key = some b ∧
    Allocatable ctx.today b itemId a.1.allocatedQty (old.qty a.1.key) ∧ totals.get? a.1.key.stock ≠ none
  /-- Two fields for one batch name one row. -/
  warehouse : ∃ b, batchById batches a.1.batchId = some b ∧ a.1.warehouseId = b.inventoryId

theorem readField_ok {ctx : Ctx} {batches : Table ItemBatch} {totals : Table Inventory} {old : Allocations}
    {itemId : Nat} {f : AllocField} {o : Option (Alloc × String)}
    (h : readField ctx batches totals old itemId f = .ok o) :
    (safeId f.batchPart = 0 ∧ o = none) ∨
    (safeId f.batchPart ≠ 0 ∧ ∃ a, o = some a ∧ ReadsAs ctx batches totals old itemId f a) := by
  unfold readField at h
  split_ifs at h with h0
  · cases h; exact .inl ⟨h0, rfl⟩
  · simp only [bind_ok, require_ok, pure_ok] at h
    obtain ⟨q, hq, b, hb, u, hc, rfl⟩ := h
    obtain ⟨hm, hid⟩ := batchById_eq_some hb
    refine .inr ⟨h0, _, rfl, hid, rfl, hq, fun hpos => ?_, b, by rw [← hb, ← hid], rfl⟩
    simp only [checkAllocation, if_pos hpos, bind_ok, check_ok] at hc
    obtain ⟨_, hv, hi⟩ := hc
    have ha := validateBatchAllocation_ok hv
    have hk : Alloc.key ⟨itemId, b.batchId, b.inventoryId, q⟩ = b.key := by
      rw [ItemBatch.key, ha.item]; rfl
    exact ⟨b, (congrArg batches.get? hk).trans (Table.get?_key hm), ha, by simpa only [hk] using hi⟩

/-- The posted fields that name a batch. -/
def AllocField.named (f : AllocField) : Bool := safeId f.batchPart ≠ 0

theorem readFields_ok {ctx : Ctx} {batches : Table ItemBatch} {totals : Table Inventory} {old : Allocations}
    {itemId : Nat} : ∀ {fs : List AllocField} {as : List (Alloc × String)},
      readFields ctx batches totals old itemId fs = .ok as →
      List.Forall₂ (ReadsAs ctx batches totals old itemId) (fs.filter AllocField.named) as
  | [], as, h => by cases h; exact .nil
  | f :: fs, as, h => by
    simp only [readFields, bind_ok, pure_ok] at h
    obtain ⟨o, ho, as', has, rfl⟩ := h
    have ih := readFields_ok has
    rcases readField_ok ho with ⟨h0, rfl⟩ | ⟨h0, a, rfl, ha⟩
    · simpa [AllocField.named, h0] using ih
    · simpa [AllocField.named, h0] using ⟨ha, ih⟩

/-! ## The plan of an item -/

/-- What `planItem` settles for an item: `allocs` is what the form posts for it. -/
structure PlanOk (ctx : Ctx) (form : Form) (validateComplete : Bool) (batches : Table ItemBatch)
    (totals : Table Inventory) (old : Allocations) (item : ReliefRqstItem)
    (plan : List (Alloc × String) × ReliefRqstItem) : Prop where
  reads : List.Forall₂ (ReadsAs ctx batches totals old item.itemId)
    ((form.allocations.filter AllocField.named).filter fun f => f.itemId = item.itemId) plan.1
  limit : (plan.1.map fun a => a.1.allocatedQty).sum ≤ item.requestQty
  /-- The status is the old one or fits what is allocated. -/
  status : plan.2.statusCode = item.statusCode ∨ ∃ a,
    plan.2.statusCode ∈ (statusOptions (plan.1.map fun a => a.1.allocatedQty).sum item.requestQty a).2
  row : plan.2 = { item with
    statusCode := plan.2.statusCode
    issueQty := issueQtyFor plan.2.statusCode (plan.1.map fun a => a.1.allocatedQty).sum item.requestQty
    statusReasonDesc := reasonFor plan.2.statusCode (form.statusReason item.itemId)
      (plan.1.map fun a => a.1.allocatedQty).sum item.requestQty
    actionById := if plan.2.statusCode = .requested then none else some ctx.userName
    versionNbr := item.versionNbr + 1 }

theorem planItem_ok {ctx : Ctx} {form : Form} {vc : Bool} {batches : Table ItemBatch}
    {totals : Table Inventory} {old : Allocations} {item : ReliefRqstItem}
    {plan : List (Alloc × String) × ReliefRqstItem}
    (h : planItem ctx form vc batches totals old item = .ok plan) :
    PlanOk ctx form vc batches totals old item plan := by
  simp only [planItem, bind_ok, pure_ok, validateQuantityLimit, check_ok, exists_const] at h
  obtain ⟨as, has, hl, -, s, hs, rfl⟩ := h
  have hreads := readFields_ok has
  rw [List.filter_comm] at hreads
  exact ⟨hreads, not_lt.1 hl, (validateStatusTransition_ok hs).2.imp_right fun hm => ⟨_, hm⟩, rfl⟩

/-! ## Writing the rows -/

section
variable {pkgId : Nat} {old : Allocations}

theorem writeRows_append : ∀ {as bs : List (Alloc × String)} {rows : Table ReliefPkgItem},
    writeRows pkgId old (as ++ bs) rows = (writeRows pkgId old as rows >>= writeRows pkgId old bs)
  | [], _, _ => rfl
  | a :: as, bs, rows => by
    simp only [List.cons_append, writeRows]
    split_ifs
    · exact writeRows_append
    · cases h : require (rows.insert (allocRow pkgId a)) Err.integrityError with
      | error e => rfl
      | ok r => exact writeRows_append

/-- Where a row is written: at the package's key for the allocation's batch. -/
theorem writeRows_get? : ∀ {as : List (Alloc × String)} {rows rows' : Table ReliefPkgItem},
    (∀ k ∈ old.keys, rows.get? (pkgId, k) ≠ none) → writeRows pkgId old as rows = .ok rows' →
    (∀ p k, p ≠ pkgId → rows'.get? (p, k) = rows.get? (p, k)) ∧
    (∀ k, rows'.get? (pkgId, k) = ((as.filter fun a => a.1.key = k).getLast?).elim
      (rows.get? (pkgId, k)) fun a => some (allocRow pkgId a))
  | [], _, _, _, h => by cases h; exact ⟨fun _ _ _ => rfl, fun _ => rfl⟩
  | a :: as, rows, rows', hold, h => by
    have hkey : key (allocRow pkgId a) = (pkgId, a.1.key) := rfl
    obtain ⟨mid, hmid, h⟩ : ∃ mid : Table ReliefPkgItem,
        (∀ x, mid.get? x = if key (allocRow pkgId a) = x then some (allocRow pkgId a) else rows.get? x) ∧
        writeRows pkgId old as mid = .ok rows' := by
      unfold writeRows at h
      split_ifs at h with hk
      · refine ⟨_, fun x => ?_, h⟩
        rw [Table.get?_set]
        split_ifs with hx
        · subst hx
          rw [hkey]
          cases hg : rows.get? (pkgId, a.1.key) with
          | none => exact absurd hg (hold _ hk)
          | some _ => rfl
        · rfl
      · simp only [bind_ok, require_ok] at h
        obtain ⟨mid, hi, h⟩ := h
        exact ⟨mid, Table.get?_insert hi, h⟩
    have hold' : ∀ k ∈ old.keys, mid.get? (pkgId, k) ≠ none := fun k hk => by
      rw [hmid]; split
      · simp
      · exact hold k hk
    obtain ⟨h1, h2⟩ := writeRows_get? hold' h
    refine ⟨fun p k hp => ?_, fun k => ?_⟩
    · rw [h1 p k hp, hmid, if_neg]
      rw [hkey]; exact fun e => hp (congrArg Prod.fst e).symm
    · rw [h2, hmid, hkey]
      by_cases hk : a.1.key = k
      · subst hk
        simp only [if_true, List.filter_cons, decide_true]
        rw [List.getLast?_cons]
        cases (as.filter fun b => b.1.key = a.1.key).getLast? <;> rfl
      · have hne : ¬ ((pkgId, a.1.key) = (pkgId, k)) := fun e => hk (Prod.ext_iff.1 e).2
        simp [hne, hk]

end

/-! ## The whole loop -/

/-- An item's plan: what is allocated to it, and its new row. -/
abbrev ItemPlan := List (Alloc × String) × ReliefRqstItem

/-- The items of a request are planned on the batches the loop started with, as the loop writes none. -/
theorem processItems_ok {ctx : Ctx} {form : Form} {vc : Bool} {pkgId : Nat} {old : Allocations} :
    ∀ {items : List ReliefRqstItem} {t t' : Tables} {entries : List Alloc},
      processItems ctx form vc pkgId old items t = .ok (t', entries) →
      ∃ plans : List ItemPlan,
        List.Forall₂ (fun item plan => planItem ctx form vc t.itembatch t.inventory old item = .ok plan) items plans ∧
        entries = (plans.flatMap Prod.fst).map Prod.fst ∧
        ∃ rows, writeRows pkgId old (plans.flatMap Prod.fst) t.reliefpkgItem = .ok rows ∧
          t' = { t with
            reliefrqstItem := plans.foldl (fun items plan => items.set plan.2) t.reliefrqstItem
            reliefpkgItem := rows }
  | [], t, _, _, h => by cases h; exact ⟨[], .nil, rfl, _, rfl, rfl⟩
  | item :: items, t, t', entries, h => by
    simp only [processItems, bind_ok, pure_ok] at h
    obtain ⟨⟨allocs, item'⟩, hplan, rows, hrows, ⟨t'', rest⟩, hrest, he⟩ := h
    cases he
    obtain ⟨plans, hplans, rfl, rows', hrows', rfl⟩ := processItems_ok hrest
    refine ⟨(allocs, item') :: plans, .cons hplan hplans, by simp, rows', ?_, rfl⟩
    rw [List.flatMap_cons, writeRows_append, hrows]
    exact hrows'

theorem Tables.mem_rqstItems {t : Tables} {rqstId : Nat} {i : ReliefRqstItem} :
    i ∈ t.rqstItems rqstId ↔ i ∈ t.reliefrqstItem.rows ∧ i.reliefrqstId = rqstId := by
  simp [Tables.rqstItems, Table.select]

theorem nodup_rqstItems (t : Tables) (rqstId : Nat) : ((t.rqstItems rqstId).map ReliefRqstItem.itemId).Nodup := by
  refine List.Nodup.map_on (fun i hi j hj e => ?_) (List.Nodup.of_map _ (t.reliefrqstItem.nodup.sublist
    (List.filter_sublist.map key)))
  obtain ⟨hi, hir⟩ := Tables.mem_rqstItems.1 hi
  obtain ⟨hj, hjr⟩ := Tables.mem_rqstItems.1 hj
  exact List.inj_on_of_nodup_map t.reliefrqstItem.nodup hi hj (Prod.ext (hir.trans hjr.symm) e)

theorem Tables.allocations_qty (t : Tables) (pkgId : Nat) (k : BatchKey) :
    (t.allocations pkgId).qty k = t.pkgQty pkgId k := by
  unfold Allocations.qty
  cases h : (t.allocations pkgId).get? k with
  | none =>
    by_contra hne
    obtain ⟨i, hi, rfl, -⟩ := exists_of_pkgQty_ne_zero (Ne.symm hne)
    refine Table.get?_eq_none.1 h (List.mem_map.2 ⟨(i.batch, i.itemQty), ?_, rfl⟩)
    exact List.mem_map.2 ⟨i, hi, rfl⟩
  | some e =>
    obtain ⟨hm, hk⟩ := Table.get?_eq_some.1 h
    obtain ⟨i, hi, rfl⟩ := List.mem_map.1 hm
    cases hk
    exact (pkgQty_of_mem hi).symm

theorem Tables.mem_allocations_keys {t : Tables} {pkgId : Nat} {k : BatchKey} :
    k ∈ (t.allocations pkgId).keys ↔ t.reliefpkgItem.get? (pkgId, k) ≠ none := by
  have hk : (t.allocations pkgId).keys = (t.pkgItems pkgId).map ReliefPkgItem.batch := by
    simp only [Table.keys, Tables.allocations, List.map_map]; rfl
  rw [hk, List.mem_map, ne_eq, Table.get?_eq_none, not_not]
  constructor
  · rintro ⟨i, hi, rfl⟩
    have hi := mem_pkgItems.1 hi
    exact List.mem_map.2 ⟨i, hi.1, Prod.ext hi.2 rfl⟩
  · intro hm
    obtain ⟨i, hi, he⟩ := List.mem_map.1 hm
    exact ⟨i, mem_pkgItems.2 ⟨hi, congrArg Prod.fst he⟩, congrArg Prod.snd he⟩

/-- What a successful `_process_allocations` did: `p` is the request's package and `t₁` the tables
with it. -/
structure Processed (ctx : Ctx) (form : Form) (vc : Bool) (r : ReliefRqst) (t t' : Tables)
    (new : List Alloc) (old : Allocations) (p : ReliefPkg) (t₁ : Tables) (plans : List ItemPlan) : Prop where
  pkg : getOrCreatePkg ctx r t = .ok (p, t₁)
  old_eq : old = t₁.allocations p.reliefpkgId
  planOk : List.Forall₂ (PlanOk ctx form vc t.itembatch t.inventory old) (t.rqstItems r.reliefrqstId) plans
  new_eq : new = ((plans.flatMap Prod.fst).map Prod.fst).filter (0 < ·.allocatedQty)
  /-- Batches, totals and headers are not touched. -/
  frame : t' = { t₁ with reliefrqstItem := t'.reliefrqstItem, reliefpkgItem := t'.reliefpkgItem }
  items : t'.reliefrqstItem = plans.foldl (fun items plan => items.set plan.2) t.reliefrqstItem
  others : ∀ q k, q ≠ p.reliefpkgId → t'.reliefpkgItem.get? (q, k) = t.reliefpkgItem.get? (q, k)
  /-- The package's rows are exactly the posted ones. -/
  rows : ∀ k, t'.reliefpkgItem.get? (p.reliefpkgId, k) =
    (((plans.flatMap Prod.fst).filter fun a => a.1.key = k).getLast?).map (allocRow p.reliefpkgId)

section
variable {ctx : Ctx} {r : ReliefRqst} {t t₁ : Tables} {p : ReliefPkg}

/-- The request's first package is taken, or a new one inserted. -/
theorem getOrCreatePkg_cases (h : getOrCreatePkg ctx r t = .ok (p, t₁)) :
    (t.firstPkg r.reliefrqstId = some p ∧ t₁ = t) ∨
    (t.firstPkg r.reliefrqstId = none ∧ p = newPkg ctx r t.nextReliefpkgId ∧
      ∃ pkgs, t.reliefpkg.insert p = some pkgs ∧
        t₁ = { t with reliefpkg := pkgs, nextReliefpkgId := t.nextReliefpkgId + 1 }) := by
  unfold getOrCreatePkg at h
  cases hf : t.firstPkg r.reliefrqstId with
  | some q =>
    simp only [hf] at h
    cases h
    exact .inl ⟨rfl, rfl⟩
  | none =>
    simp only [hf, bind_ok, require_ok, pure_ok] at h
    obtain ⟨pkgs, hins, he⟩ := h
    cases he
    exact .inr ⟨rfl, rfl, pkgs, hins, rfl⟩

theorem getOrCreatePkg_frame (h : getOrCreatePkg ctx r t = .ok (p, t₁)) :
    t₁ = { t with reliefpkg := t₁.reliefpkg, nextReliefpkgId := t₁.nextReliefpkgId } := by
  rcases getOrCreatePkg_cases h with ⟨-, rfl⟩ | ⟨-, -, pkgs, -, rfl⟩ <;> rfl

theorem firstPkg_getOrCreatePkg (h : getOrCreatePkg ctx r t = .ok (p, t₁)) :
    t₁.firstPkg r.reliefrqstId = some p := by
  rcases getOrCreatePkg_cases h with ⟨hf, rfl⟩ | ⟨hnone, rfl, pkgs, hins, rfl⟩
  · exact hf
  · have hnil : t.packages r.reliefrqstId = [] := List.head?_eq_none_iff.1 hnone
    simp only [Tables.packages, Table.select] at hnil
    simp [Tables.firstPkg, Tables.packages, Table.select, (Table.insert_eq_some.1 hins).2, hnil, newPkg]

end

/-- The plans are those the loop made on the tables as they were. -/
theorem processAllocations_plans {ctx : Ctx} {form : Form} {vc : Bool} {r : ReliefRqst} {t t' : Tables}
    {new : List Alloc} {old : Allocations} (h : processAllocations ctx form vc r t = .ok (t', new, old)) :
    ∃ p t₁ plans, Processed ctx form vc r t t' new old p t₁ plans ∧
      List.Forall₂ (fun item plan => planItem ctx form vc t.itembatch t.inventory old item = .ok plan)
        (t.rqstItems r.reliefrqstId) plans := by
  simp only [processAllocations, bind_ok, pure_ok] at h
  obtain ⟨⟨p, t₁⟩, hp, ⟨t₂, entries⟩, hitems, he⟩ := h
  have hframe := getOrCreatePkg_frame hp
  obtain ⟨plans, hplans, rfl, rows, hrows, rfl⟩ := processItems_ok hitems
  have hb : t₁.itembatch = t.itembatch := by rw [hframe]
  have hv : t₁.inventory = t.inventory := by rw [hframe]
  have hi : t₁.reliefrqstItem = t.reliefrqstItem := by rw [hframe]
  have hpi : t₁.reliefpkgItem = t.reliefpkgItem := by rw [hframe]
  cases he
  obtain ⟨hother, hown⟩ := writeRows_get? (fun k hk => Tables.mem_allocations_keys.1 hk) hrows
  rw [hb, hv, show t₁.rqstItems r.reliefrqstId = t.rqstItems r.reliefrqstId by
    simp only [Tables.rqstItems, hi]] at hplans
  refine ⟨p, t₁, plans, ⟨hp, rfl, hplans.imp fun _ _ hplan => planItem_ok hplan, rfl, rfl, ?_, fun q k hq => ?_,
    fun k => ?_⟩, hplans⟩
  · rw [hi]
  · rw [Table.get?_deleteWhere, hother q k hq, hpi]
    cases hg : t.reliefpkgItem.get? (q, k) with
    | none => rfl
    | some i =>
      have : i.reliefpkgId = q := congrArg Prod.fst (Table.key_of_get? hg)
      simp [this, hq]
  · rw [Table.get?_deleteWhere, hown]
    cases hl : ((plans.flatMap Prod.fst).filter fun a => a.1.key = k).getLast? with
    | some a =>
      obtain ⟨ha, hk⟩ := List.mem_filter.1 (List.mem_of_getLast? hl)
      have hk : a.1.key = k := by simpa using hk
      simp only [Option.elim_some, Option.map_some, Option.filter_some]
      rw [if_pos]
      have hkept : (allocRow p.reliefpkgId a).batch ∈ ((plans.flatMap Prod.fst).map Prod.fst).map Alloc.key :=
        List.mem_map.2 ⟨a.1, List.mem_map.2 ⟨a, ha, rfl⟩, rfl⟩
      simp only [hkept, not_true, and_false, decide_false, Bool.not_false]
    | none =>
      simp only [Option.elim_none, Option.map_none]
      cases hg : t₁.reliefpkgItem.get? (p.reliefpkgId, k) with
      | none => rfl
      | some i =>
        have hi := Table.key_of_get? hg
        have h1 : i.reliefpkgId = p.reliefpkgId := congrArg Prod.fst hi
        have h2 : i.batch = k := congrArg Prod.snd hi
        have h3 : k ∈ (t₁.allocations p.reliefpkgId).keys := Tables.mem_allocations_keys.2 (by simp [hg])
        have h4 : k ∉ ((plans.flatMap Prod.fst).map Prod.fst).map Alloc.key := fun hm => by
          obtain ⟨x, hx, hxk⟩ := List.mem_map.1 hm
          obtain ⟨a, ha, rfl⟩ := List.mem_map.1 hx
          have hnil := List.getLast?_eq_none_iff.1 hl
          exact List.not_mem_nil (hnil ▸ List.mem_filter.2 ⟨ha, by simpa using hxk⟩)
        rw [Option.filter_some, if_neg]
        simp only [h1, h2, h3, h4, not_false_eq_true, and_self, decide_true, Bool.not_true,
          Bool.false_eq_true]

theorem processAllocations_ok {ctx : Ctx} {form : Form} {vc : Bool} {r : ReliefRqst} {t t' : Tables}
    {new : List Alloc} {old : Allocations} (h : processAllocations ctx form vc r t = .ok (t', new, old)) :
    ∃ p t₁ plans, Processed ctx form vc r t t' new old p t₁ plans := by
  obtain ⟨p, t₁, plans, hp, -⟩ := processAllocations_plans h
  exact ⟨p, t₁, plans, hp⟩

/-! ## The posted quantities -/

/-- At most one quantity field per item and batch. -/
def Form.OneFieldPerBatch (f : Form) : Prop :=
  ((f.allocations.filter AllocField.named).map fun a => (a.itemId, safeId a.batchPart)).Nodup

/-- Every typed quantity has at most `s` decimals. -/
def Form.Decimals (s : ℕ) (f : Form) : Prop :=
  ∀ a ∈ f.allocations, ∀ q, a.value = some (.finite q) → AtScale s q

namespace Processed

variable {ctx : Ctx} {form : Form} {vc : Bool} {r : ReliefRqst} {t t' t₁ : Tables} {new : List Alloc}
  {old : Allocations} {p : ReliefPkg} {plans : List ItemPlan}

/-- Every allocation was posted for an item of the request. -/
theorem exists_field (h : Processed ctx form vc r t t' new old p t₁ plans) {a : Alloc × String}
    (ha : a ∈ plans.flatMap Prod.fst) :
    ∃ item ∈ t.rqstItems r.reliefrqstId, ∃ f ∈ form.allocations, f.itemId = item.itemId ∧
      ReadsAs ctx t.itembatch t.inventory old item.itemId f a := by
  obtain ⟨plan, hplan, ha⟩ := List.mem_flatMap.1 ha
  obtain ⟨item, hitem, hok⟩ := exists_of_forall₂_right h.planOk plan hplan
  obtain ⟨f, hf, hr⟩ := exists_of_forall₂_right hok.reads a ha
  obtain ⟨hf, hid⟩ := List.mem_filter.1 hf
  exact ⟨item, hitem, f, (List.mem_filter.1 hf).1, of_decide_eq_true hid, hr⟩

theorem qty_nonneg (h : Processed ctx form vc r t t' new old p t₁ plans) {a : Alloc × String}
    (ha : a ∈ plans.flatMap Prod.fst) : 0 ≤ a.1.allocatedQty := by
  obtain ⟨_, _, _, _, -, hr⟩ := h.exists_field ha
  exact safeQuantity_nonneg hr.qty

theorem qty_atScale (h : Processed ctx form vc r t t' new old p t₁ plans) {s : ℕ} (hs : 2 ≤ s)
    (hf : form.Decimals s) {a : Alloc × String} (ha : a ∈ plans.flatMap Prod.fst) :
    AtScale s a.1.allocatedQty := by
  obtain ⟨_, _, f, hmem, -, hr⟩ := h.exists_field ha
  exact safeQuantity_atScale hs (hf f hmem) hr.qty

/-- The pairs (item, batch) of the allocations are those of the fields, item by item. -/
theorem pairs_eq {items : List ReliefRqstItem}
    (h : List.Forall₂ (PlanOk ctx form vc t.itembatch t.inventory old) items plans) :
    (plans.flatMap Prod.fst).map (fun a => (a.1.itemId, a.1.batchId)) =
      (items.flatMap fun item => (form.allocations.filter AllocField.named).filter fun f =>
        f.itemId = item.itemId).map fun f => (f.itemId, safeId f.batchPart) := by
  induction h with
  | nil => rfl
  | @cons item plan _ _ hok _ ih =>
    have hone : plan.1.map (fun a => (a.1.itemId, a.1.batchId)) =
        ((form.allocations.filter AllocField.named).filter fun f => f.itemId = item.itemId).map fun f =>
          (f.itemId, safeId f.batchPart) := by
      rw [← map_eq_of_forall₂ (f := fun f => (item.itemId, safeId f.batchPart))
        (fun f a hr => by rw [hr.item, hr.batch]) hok.reads]
      refine List.map_congr_left fun f hf => ?_
      rw [of_decide_eq_true (List.mem_filter.1 hf).2]
    rw [List.flatMap_cons, List.flatMap_cons, List.map_append, List.map_append, ih, hone]

/-- With one field per item and batch no two allocations name the same batch. -/
theorem nodup_keys (h : Processed ctx form vc r t t' new old p t₁ plans) (hf : form.OneFieldPerBatch) :
    ((plans.flatMap Prod.fst).map fun a => a.1.key).Nodup := by
  have hn : ((plans.flatMap Prod.fst).map fun a => (a.1.itemId, a.1.batchId)).Nodup := by
    rw [pairs_eq h.planOk]
    refine List.Nodup.map_on (fun f hm g hg e => ?_)
      (nodup_flatMap_filter hf.of_map (nodup_rqstItems t r.reliefrqstId))
    obtain ⟨_, _, hm⟩ := List.mem_flatMap.1 hm
    obtain ⟨_, _, hg⟩ := List.mem_flatMap.1 hg
    exact List.inj_on_of_nodup_map hf (List.mem_filter.1 hm).1 (List.mem_filter.1 hg).1 e
  refine List.Nodup.of_map (fun k : BatchKey => (k.itemId, k.batchId)) ?_
  rw [List.map_map]
  exact hn

theorem pkgQty_eq (h : Processed ctx form vc r t t' new old p t₁ plans) (k : BatchKey) :
    t'.pkgQty p.reliefpkgId k =
      ((((plans.flatMap Prod.fst).filter fun a => a.1.key = k).getLast?).map fun a => a.1.allocatedQty).getD 0 := by
  simp only [Tables.pkgQty, h.rows k, Option.map_map]
  rfl

/-- With one field per batch, `new_allocations` and the written rows agree. -/
theorem new_qty (h : Processed ctx form vc r t t' new old p t₁ plans) (hf : form.OneFieldPerBatch)
    (k : BatchKey) : (newBatchReservations new).qty k = t'.pkgQty p.reliefpkgId k := by
  have hnew : (new.filter fun a => 0 < a.allocatedQty ∧ a.key = k) =
      (((plans.flatMap Prod.fst).filter fun a => a.1.key = k).map Prod.fst).filter (0 < ·.allocatedQty) := by
    rw [h.new_eq, List.filter_filter, List.filter_map, List.filter_map, List.filter_filter]
    congr 1
    refine List.filter_congr fun a _ => ?_
    simp only [Function.comp, Bool.decide_and]
    cases decide (0 < a.1.allocatedQty) <;> cases decide (a.1.key = k) <;> rfl
  rw [newBatchReservations_qty, hnew, h.pkgQty_eq]
  rw [filter_of_nodup_map (h.nodup_keys hf) k]
  cases ha : (plans.flatMap Prod.fst).find? fun a => a.1.key = k with
  | none => rfl
  | some a =>
    have hnn := h.qty_nonneg (List.mem_of_find?_eq_some ha)
    by_cases hpos : 0 < a.1.allocatedQty
    · simp [hpos]
    · simp [le_antisymm (not_lt.1 hpos) hnn]

/-- A positive row is for a batch that can give it. -/
theorem row_pos (h : Processed ctx form vc r t t' new old p t₁ plans) {k : BatchKey}
    (hk : 0 < t'.pkgQty p.reliefpkgId k) :
    ∃ b, t.itembatch.get? k = some b ∧
      Allocatable ctx.today b k.itemId (t'.pkgQty p.reliefpkgId k) (old.qty k) := by
  rw [h.pkgQty_eq] at hk ⊢
  cases ha : ((plans.flatMap Prod.fst).filter fun a => a.1.key = k).getLast? with
  | none => simp [ha] at hk
  | some a =>
    obtain ⟨hm, hak⟩ := List.mem_filter.1 (List.mem_of_getLast? ha)
    have hak : a.1.key = k := of_decide_eq_true hak
    simp only [ha, Option.map_some, Option.getD_some] at hk ⊢
    obtain ⟨item, _, f, _, -, hr⟩ := h.exists_field hm
    obtain ⟨b, hb, hal, _⟩ := hr.valid hk
    subst hak
    have hi : a.1.key.itemId = item.itemId := hr.item
    exact ⟨b, hb, hi ▸ hal⟩

theorem pkgQty_other (h : Processed ctx form vc r t t' new old p t₁ plans) {q : Nat}
    (hq : q ≠ p.reliefpkgId) (k : BatchKey) : t'.pkgQty q k = t.pkgQty q k := by
  simp only [Tables.pkgQty, h.others q k hq]

theorem old_qty (h : Processed ctx form vc r t t' new old p t₁ plans) (k : BatchKey) :
    old.qty k = t.pkgQty p.reliefpkgId k := by
  rw [h.old_eq, Tables.allocations_qty, Tables.pkgQty, Tables.pkgQty, getOrCreatePkg_frame h.pkg]

theorem itembatch_eq (h : Processed ctx form vc r t t' new old p t₁ plans) : t'.itembatch = t.itembatch := by
  rw [h.frame, getOrCreatePkg_frame h.pkg]

theorem inventory_eq (h : Processed ctx form vc r t t' new old p t₁ plans) : t'.inventory = t.inventory := by
  rw [h.frame, getOrCreatePkg_frame h.pkg]

theorem reliefrqst_eq (h : Processed ctx form vc r t t' new old p t₁ plans) : t'.reliefrqst = t.reliefrqst := by
  rw [h.frame, getOrCreatePkg_frame h.pkg]

theorem reliefpkg_eq (h : Processed ctx form vc r t t' new old p t₁ plans) : t'.reliefpkg = t₁.reliefpkg := by
  rw [h.frame]

theorem firstPkg (h : Processed ctx form vc r t t' new old p t₁ plans) :
    t'.firstPkg r.reliefrqstId = some p := by
  rw [Tables.firstPkg, Tables.packages, h.reliefpkg_eq]
  exact firstPkg_getOrCreatePkg h.pkg

end Processed

end Dmis
