import Dmis.Ledger

/-!
# Two ways to dispatch

The review page takes the saved rows out with `commit_inventory`: batch by batch, then the totals summed
anew. Workflow C undoes the reservations and depletes the usable stock with a running total per warehouse.
Under the ledger both go through for every package that is not dispatched, and leave the same stock
(`two_dispatches_agree`): a package reserves no more than is reserved, and a loop that takes from batches
moves their sum by what it takes (`Takes.sum`).
-/

namespace Dmis

open Relational Keyed

/-! ## The stock parts of the two routes -/

/-- `commit_inventory` as the review page calls it. -/
def reviewStock (ctx : Ctx) (p : ReliefPkg) (t : Tables) : Except Err Tables :=
  commitInventory p.reliefrqstId (t.setPkg (p.dispatch ctx))

/-- Steps 4 to 6 of the dispatch service. -/
def workflowCStock (pkgId : Nat) (plan : List PlanEntry) (t : Tables) : Except Err Tables := do
  let t ← undoLoReservations (t.pkgItems pkgId) t
  depleteUsableStock plan (overwritePackageItems pkgId plan t)

/-- Batches, totals and package rows are the same. -/
structure SameStock (a b : Tables) : Prop where
  batch : ∀ k, a.itembatch.get? k = b.itembatch.get? k
  total : ∀ s, a.inventory.get? s = b.inventory.get? s
  rows : ∀ k, a.reliefpkgItem.get? k = b.reliefpkgItem.get? k

theorem SameStock.rounded {a b : Tables} (h : SameStock a b) : SameStock a.rounded b.rounded := by
  refine ⟨fun k => ?_, fun s => ?_, fun k => ?_⟩
  · rw [rounded_itembatch, rounded_itembatch, h.batch]
  · simp only [Tables.rounded, Table.get?_mapRows, h.total]
  · rw [rounded_pkgItem, rounded_pkgItem, h.rows]

/-- A warehouse that has batches of an item has the total it is in. -/
def Covered (t : Tables) : Prop := ∀ b ∈ t.itembatch.rows, t.inventory.get? b.key.stock ≠ none

/-! ## The four taking loops -/

theorem undoBatch_takes : Table.Takes ReliefPkgItem.itemQty ItemBatch.reservedQty
    (fun q b => { b with reservedQty := b.reservedQty - q }) undoBatch :=
  .of_ite (fun _ => rfl) (fun _ _ => rfl) (fun _ _ => rfl) (fun _ _ => rfl) fun b => by simp

theorem depleteBatch_takes : Table.Takes PlanEntry.lmQty ItemBatch.usableQty
    (fun q b => { b with usableQty := b.usableQty - q }) depleteBatch :=
  .of_ite (fun _ => rfl) (fun _ _ => rfl) (fun _ _ => rfl) (fun _ _ => rfl) fun b => by simp

theorem undoTotal_takes : Table.Takes (fun e : StockKey × ℚ => e.2) Inventory.reservedQty
    (fun q v => { v with reservedQty := v.reservedQty - q }) undoTotal :=
  .of_ite (fun _ => rfl) (fun _ _ => rfl) (fun _ _ => rfl) (fun _ _ => rfl) fun v => by simp

theorem depleteTotal_takes : Table.Takes (fun e : StockKey × ℚ => e.2) Inventory.usableQty
    (fun q v => { v with usableQty := v.usableQty - q }) depleteTotal :=
  .of_ite (fun _ => rfl) (fun _ _ => rfl) (fun _ _ => rfl) (fun _ _ => rfl) fun v => by simp

/-! ## What is taken from a warehouse -/

section
variable {α : Type} {batch : α → BatchKey} {qty : α → ℚ} {as : List α} {s : StockKey}

/-- The running total of a warehouse. -/
def takenFrom (batch : α → BatchKey) (qty : α → ℚ) (as : List α) (s : StockKey) : ℚ :=
  ((as.filter fun a => decide ((batch a).stock = s)).map qty).sum

theorem takenFrom_eq_zero (hs : s ∉ affectedInventory (as.map batch)) : takenFrom batch qty as s = 0 := by
  have hnil : as.filter (fun a => decide ((batch a).stock = s)) = [] := by
    rw [List.filter_eq_nil_iff]
    intro a ha he
    exact hs (mem_affectedInventory.2 ⟨batch a, List.mem_map_of_mem ha, of_decide_eq_true he⟩)
  rw [takenFrom, hnil]
  rfl

theorem mem_inventoryTotals {e : StockKey × ℚ} : e ∈ inventoryTotals batch qty as ↔
    (∃ a ∈ as, (batch a).stock = e.1) ∧ e.2 = takenFrom batch qty as e.1 := by
  simp only [inventoryTotals, List.mem_map, mem_affectedInventory]
  constructor
  · rintro ⟨s, ⟨k, ⟨a, ha, rfl⟩, rfl⟩, rfl⟩
    exact ⟨⟨a, ha, rfl⟩, rfl⟩
  · rintro ⟨⟨a, ha, hs⟩, he⟩
    exact ⟨e.1, ⟨batch a, ⟨a, ha, rfl⟩, hs⟩, Prod.ext rfl he.symm⟩

theorem map_fst_inventoryTotals : (inventoryTotals batch qty as).map Prod.fst = affectedInventory (as.map batch) := by
  simp only [inventoryTotals, List.map_map]
  exact List.map_id _

theorem nodup_inventoryTotals (batch : α → BatchKey) (qty : α → ℚ) (as : List α) :
    ((inventoryTotals batch qty as).map Prod.fst).Nodup := by
  rw [map_fst_inventoryTotals]
  exact nodup_affectedInventory _

end

/-- The plan entry of a saved row. -/
def ReliefPkgItem.entry (i : ReliefPkgItem) : PlanEntry := ⟨i.frInventoryId, i.batchId, i.itemId, i.itemQty, i.uomCode⟩

theorem buildLmPlanFromPkgItems_eq (pkgId : Nat) (t : Tables) :
    buildLmPlanFromPkgItems pkgId t = (t.positiveItems pkgId).map ReliefPkgItem.entry := rfl

theorem inventoryTotals_entries (is : List ReliefPkgItem) :
    inventoryTotals PlanEntry.batch PlanEntry.lmQty (is.map ReliefPkgItem.entry) =
      inventoryTotals ReliefPkgItem.batch ReliefPkgItem.itemQty is := by
  simp only [inventoryTotals, List.map_map, List.filter_map]
  rfl

/-! ## What a package has reserved -/

section
variable {t t₁ a : Tables} {p : ReliefPkg} {k : BatchKey} {s : StockKey} {ctx : Ctx}

/-- A state with an exact ledger, and an undispatched package in it. -/
structure Balanced (t : Tables) (p : ReliefPkg) : Prop where
  ledger : Ledger t
  consistent : t.Consistent
  covered : Covered t
  unique : UniquePkg t
  mem : p ∈ t.reliefpkg.rows
  undispatched : p.statusCode ≠ .dispatched

/-- What undoing the reservations of an undispatched package needs. -/
structure Undoable (t : Tables) (p : ReliefPkg) : Prop where
  ledger : Ledger t
  consistent : t.Consistent
  mem : p ∈ t.reliefpkg.rows
  undispatched : p.statusCode ≠ .dispatched
  totals : ∀ i ∈ t.positiveItems p.reliefpkgId, t.inventory.get? i.batch.stock ≠ none

theorem Balanced.undoable (h : Balanced t p) : Undoable t p := by
  refine ⟨h.ledger, h.consistent, h.mem, h.undispatched, fun i hi => ?_⟩
  obtain ⟨b, hb, hk⟩ := List.mem_map.1 (h.consistent.fkBatch i (mem_pkgItems.1 (mem_positiveItems.1 hi).1).1)
  have hcov := h.covered b hb
  rwa [show b.key = i.batch from hk] at hcov

/-- The positive rows of the package. -/
abbrev Tables.taken (t : Tables) (p : ReliefPkg) (s : StockKey) : ℚ :=
  takenFrom ReliefPkgItem.batch ReliefPkgItem.itemQty (t.positiveItems p.reliefpkgId) s

theorem Undoable.qty_nonneg (h : Undoable t p) (k : BatchKey) : 0 ≤ t.pkgQty p.reliefpkgId k :=
  pkgQty_nonneg h.consistent.pkgItem _ k

/-- **A package reserves no more than is reserved.** -/
theorem Undoable.qty_le_reserved (h : Undoable t p) {b : ItemBatch} (hb : t.itembatch.get? k = some b) :
    t.pkgQty p.reliefpkgId k ≤ b.reservedQty := by
  have hk : b.key = k := Table.key_of_get? hb
  rw [h.ledger.reserved b (Table.mem_of_get? hb), hk]
  exact pkgQty_le_pledged h.consistent.pkgItem h.mem h.undispatched k

theorem Undoable.qty_le_usable (h : Undoable t p) {b : ItemBatch} (hb : t.itembatch.get? k = some b) :
    t.pkgQty p.reliefpkgId k ≤ b.usableQty :=
  (h.qty_le_reserved hb).trans (h.ledger.bounds b (Table.mem_of_get? hb)).2

/-- A row's batch exists, and the row takes the package's quantity from it. -/
theorem Undoable.row (h : Undoable t p) {i : ReliefPkgItem} (hi : i ∈ t.positiveItems p.reliefpkgId) :
    ∃ b, t.itembatch.get? i.batch = some b ∧ i.itemQty = t.pkgQty p.reliefpkgId i.batch := by
  have hm := (mem_positiveItems.1 hi).1
  obtain ⟨b, hb, hk⟩ := List.mem_map.1 (h.consistent.fkBatch i (mem_pkgItems.1 hm).1)
  exact ⟨b, Table.get?_eq_some.2 ⟨hb, hk⟩, (pkgQty_of_mem hm).symm⟩

theorem Undoable.qty_eq_zero (h : Undoable t p) (hk : k ∉ (t.positiveItems p.reliefpkgId).map ReliefPkgItem.batch) :
    t.pkgQty p.reliefpkgId k = 0 := by
  rw [mem_map_positiveItems, not_lt] at hk
  exact le_antisymm hk (h.qty_nonneg k)

theorem taken_eq_zero (hs : s ∉ affectedInventory ((t.positiveItems p.reliefpkgId).map ReliefPkgItem.batch)) :
    t.taken p s = 0 :=
  takenFrom_eq_zero hs

/-- The warehouse of a row has a total, and the total's columns are the sums of its batches. -/
theorem Undoable.total (h : Undoable t p) {i : ReliefPkgItem} (hi : i ∈ t.positiveItems p.reliefpkgId) :
    ∃ v, t.inventory.get? i.batch.stock = some v ∧
      v.usableQty = batchSum t.itembatch i.batch.stock ItemBatch.usableQty ∧
      v.reservedQty = batchSum t.itembatch i.batch.stock ItemBatch.reservedQty := by
  obtain ⟨v, hv⟩ := Option.ne_none_iff_exists'.1 (h.totals i hi)
  have hkey : v.key = i.batch.stock := Table.key_of_get? hv
  have hm := Table.mem_of_get? hv
  refine ⟨v, hv, ?_, ?_⟩
  · rw [h.ledger.usableTotal v hm, hkey]
  · rw [h.ledger.reservedTotal v hm, hkey]

/-! ## Workflow C -/

theorem batchSum_nonneg {b : Table ItemBatch} {col : ItemBatch → ℚ} (h : ∀ r ∈ b.rows, 0 ≤ col r) (s : StockKey) :
    0 ≤ batchSum b s col := by
  refine List.sum_nonneg fun q hq => ?_
  obtain ⟨r, hr, rfl⟩ := List.mem_map.1 hq
  exact h r (List.mem_filter.1 hr).1

/-- The reservations of a package can be undone, and every batch and total loses exactly its part. -/
theorem Undoable.undo (h : Undoable t p) :
    ∃ t₁, undoLoReservations (t.pkgItems p.reliefpkgId) t = .ok t₁ ∧
      t₁ = { t with itembatch := t₁.itembatch, inventory := t₁.inventory } ∧
      t₁.itembatch.keys = t.itembatch.keys ∧
      (∀ k, t₁.itembatch.get? k = (t.itembatch.get? k).map fun b =>
        { b with reservedQty := b.reservedQty - t.pkgQty p.reliefpkgId k }) ∧
      (∀ s, t₁.inventory.get? s = (t.inventory.get? s).map fun v =>
        { v with reservedQty := v.reservedQty - t.taken p s }) ∧
      ∀ s, batchSum t₁.itembatch s ItemBatch.reservedQty =
        batchSum t.itembatch s ItemBatch.reservedQty - t.taken p s := by
  obtain ⟨b₁, hb₁, hget⟩ := undoBatch_takes.run (t := t.itembatch) (k := ReliefPkgItem.batch)
    (nodup_positiveItems t p.reliefpkgId) (x := t.pkgQty p.reliefpkgId)
    (fun i hi => by obtain ⟨_, _, hq⟩ := h.row hi; exact hq) (fun k hk => h.qty_eq_zero hk) fun i hi => by
      obtain ⟨b, hb, hq⟩ := h.row hi
      exact ⟨b, hb, hq ▸ h.qty_le_reserved hb⟩
  have hsum : ∀ s, batchSum b₁ s ItemBatch.reservedQty =
      batchSum t.itembatch s ItemBatch.reservedQty - t.taken p s := undoBatch_takes.sum BatchKey.stock hb₁
  have hnn : ∀ s, 0 ≤ batchSum b₁ s ItemBatch.reservedQty := batchSum_nonneg fun r hr => by
    obtain ⟨b, hb, he⟩ := Table.exists_of_map (k := r.key) hget hr rfl
    rw [← he]
    exact sub_nonneg.2 (h.qty_le_reserved hb)
  obtain ⟨v₁, hv₁, hvget⟩ := undoTotal_takes.run (t := t.inventory) (k := Prod.fst)
    (nodup_inventoryTotals ReliefPkgItem.batch ReliefPkgItem.itemQty (t.positiveItems p.reliefpkgId))
    (x := t.taken p)
    (fun e he => (mem_inventoryTotals.1 he).2) (fun s hs => taken_eq_zero (map_fst_inventoryTotals ▸ hs))
    fun e he => by
      obtain ⟨⟨i, hi, hs⟩, hq⟩ := mem_inventoryTotals.1 he
      obtain ⟨v, hv, -, hr⟩ := h.total hi
      rw [hs] at hv hr
      refine ⟨v, hv, ?_⟩
      have := hnn e.1
      rw [hsum] at this
      rw [hq, hr]
      exact sub_nonneg.1 this
  refine ⟨{ t with itembatch := b₁, inventory := v₁ }, ?_, rfl, Table.forRows_keys hb₁, hget, hvget, hsum⟩
  simp only [undoLoReservations, bind_ok, pure_ok]
  exact ⟨b₁, hb₁, v₁, hv₁, rfl⟩

/-- Overwriting the rows with themselves changes none. -/
theorem overwritePackageItems_self (t₁ : Tables) (hi : t₁.reliefpkgItem = t.reliefpkgItem) (pkgId : Nat)
    (k : Nat × BatchKey) : (overwritePackageItems pkgId (buildLmPlanFromPkgItems pkgId t) t₁).reliefpkgItem.get? k =
      t.reliefpkgItem.get? k := by
  have hup : ∀ (is : List ReliefPkgItem) (rows : Table ReliefPkgItem),
      (∀ i ∈ is, i.reliefpkgId = pkgId ∧ rows.get? (key i) = some i) →
      ∀ k, ((is.map ReliefPkgItem.entry).foldl (fun rows e => rows.upsert (planRow pkgId e)) rows).get? k =
        rows.get? k := by
    intro is
    induction is with
    | nil => intro rows _ k; rfl
    | cons i is ih =>
      intro rows his k
      obtain ⟨hid, hg⟩ := his i (by simp)
      have hrow : planRow pkgId i.entry = i := by subst hid; rfl
      have hsame : ∀ k, (rows.upsert (planRow pkgId i.entry)).get? k = rows.get? k := fun k => by
        rw [hrow, Table.get?_upsert]
        split
        · rename_i hk; rw [← hk, hg]
        · rfl
      rw [List.map_cons, List.foldl_cons, ih _ fun j hj => ?_, hsame]
      exact ⟨(his j (by simp [hj])).1, by rw [hsame]; exact (his j (by simp [hj])).2⟩
  have hrows := hup (t.positiveItems pkgId) t₁.reliefpkgItem (fun i hi' => by
    obtain ⟨hm, hid⟩ := mem_pkgItems.1 (mem_positiveItems.1 hi').1
    exact ⟨hid, by rw [hi]; exact Table.get?_key hm⟩) k
  rw [buildLmPlanFromPkgItems_eq, overwritePackageItems, Table.get?_mapRows, hrows, hi]
  cases hg : t.reliefpkgItem.get? k with
  | none => rfl
  | some i =>
    -- a positive row of the package is in the plan
    rw [Option.map_some, if_neg]
    rintro ⟨hid, hnot, hpos⟩
    refine hnot (List.mem_map.2 ⟨i.entry, List.mem_map_of_mem ?_, rfl⟩)
    exact mem_positiveItems.2 ⟨mem_pkgItems.2 ⟨Table.mem_of_get? hg, hid⟩, hpos⟩

/-- The batches, with the reservations undone, have what the saved rows take. -/
theorem Undoable.depleteBatches (h : Undoable t p) {b₁ : Table ItemBatch} (hkeys : b₁.keys = t.itembatch.keys)
    (hb : ∀ k, b₁.get? k = (t.itembatch.get? k).map fun b =>
      { b with reservedQty := b.reservedQty - t.pkgQty p.reliefpkgId k }) :
    ∃ b₂, Table.forRows PlanEntry.batch depleteBatch ((t.positiveItems p.reliefpkgId).map ReliefPkgItem.entry) b₁ =
        .ok b₂ ∧
      (∀ k, b₂.get? k = (t.itembatch.get? k).map (ItemBatch.committed (t.pkgQty p.reliefpkgId k))) ∧
      (∀ s, batchSum b₂ s ItemBatch.reservedQty = batchSum b₁ s ItemBatch.reservedQty) ∧
      ∀ s, batchSum b₂ s ItemBatch.usableQty = batchSum t.itembatch s ItemBatch.usableQty - t.taken p s := by
  have hkey : ((t.positiveItems p.reliefpkgId).map ReliefPkgItem.entry).map PlanEntry.batch =
      (t.positiveItems p.reliefpkgId).map ReliefPkgItem.batch := List.map_map
  obtain ⟨b₂, hb₂, hget⟩ := depleteBatch_takes.run (t := b₁) (k := PlanEntry.batch)
    (hkey ▸ nodup_positiveItems t p.reliefpkgId) (x := t.pkgQty p.reliefpkgId)
    (fun e he => by
      obtain ⟨i, hi, rfl⟩ := List.mem_map.1 he
      obtain ⟨_, _, hq⟩ := h.row hi
      exact hq)
    (fun k hk => h.qty_eq_zero (hkey ▸ hk)) fun e he => by
      obtain ⟨i, hi, rfl⟩ := List.mem_map.1 he
      obtain ⟨b, hb', hq⟩ := h.row hi
      refine ⟨{ b with reservedQty := b.reservedQty - t.pkgQty p.reliefpkgId i.batch }, ?_, ?_⟩
      · rw [show i.entry.batch = i.batch from rfl, hb, hb']
        rfl
      · exact (show i.itemQty ≤ b.usableQty from hq ▸ h.qty_le_usable hb')
  refine ⟨b₂, hb₂, fun k => ?_, fun s => ?_, fun s => ?_⟩
  · rw [hget, hb]
    cases hk : t.itembatch.get? k with
    | none => rfl
    | some b => simp [ItemBatch.committed, max_eq_right (sub_nonneg.2 (h.qty_le_reserved hk))]
  · refine batchSum_congr (Table.forRows_keys hb₂) (fun k r r' hr hr' => ?_) s
    rw [hget, hr] at hr'
    cases hr'; rfl
  · have hbefore : batchSum b₁ s ItemBatch.usableQty = batchSum t.itembatch s ItemBatch.usableQty :=
      batchSum_congr hkeys (fun k r r' hr hr' => by
        rw [hb, hr] at hr'
        cases hr'; rfl) s
    have htaken : ((((t.positiveItems p.reliefpkgId).map ReliefPkgItem.entry).filter fun e =>
        decide (e.batch.stock = s)).map PlanEntry.lmQty).sum = t.taken p s := by
      rw [List.filter_map, List.map_map]; rfl
    rw [← hbefore, ← htaken]
    exact depleteBatch_takes.sum BatchKey.stock hb₂ s

/-- The totals have it too, since the batches of every warehouse do. -/
theorem Undoable.depleteTotals (h : Undoable t p) {v₁ : Table Inventory}
    (hv : ∀ s, v₁.get? s = (t.inventory.get? s).map fun v => { v with reservedQty := v.reservedQty - t.taken p s })
    (hle : ∀ s, t.taken p s ≤ batchSum t.itembatch s ItemBatch.usableQty) :
    ∃ v₂, Table.forRows Prod.fst depleteTotal
        (inventoryTotals ReliefPkgItem.batch ReliefPkgItem.itemQty (t.positiveItems p.reliefpkgId)) v₁ = .ok v₂ ∧
      ∀ s, v₂.get? s = (t.inventory.get? s).map fun v =>
        { v with usableQty := v.usableQty - t.taken p s, reservedQty := v.reservedQty - t.taken p s } := by
  obtain ⟨v₂, hv₂, hget⟩ := depleteTotal_takes.run (t := v₁) (k := Prod.fst)
    (nodup_inventoryTotals ReliefPkgItem.batch ReliefPkgItem.itemQty (t.positiveItems p.reliefpkgId))
    (x := t.taken p) (fun e he => (mem_inventoryTotals.1 he).2)
    (fun s hs => taken_eq_zero (map_fst_inventoryTotals ▸ hs)) fun e he => by
      obtain ⟨⟨i, hi, hs⟩, hq⟩ := mem_inventoryTotals.1 he
      obtain ⟨v, hv', hu, -⟩ := h.total hi
      rw [hs] at hv' hu
      refine ⟨{ v with reservedQty := v.reservedQty - t.taken p e.1 }, by rw [hv, hv']; rfl, ?_⟩
      rw [hq]
      exact (show t.taken p e.1 ≤ v.usableQty from hu ▸ hle e.1)
  refine ⟨v₂, hv₂, fun s => ?_⟩
  rw [hget, hv, Option.map_map]
  rfl

/-- **Workflow C on the saved rows goes through**, and takes exactly them. -/
theorem Balanced.workflowC (h : Balanced t p) :
    ∃ b, workflowCStock p.reliefpkgId (buildLmPlanFromPkgItems p.reliefpkgId t) t = .ok b ∧
      b.itembatch.keys = t.itembatch.keys ∧
      (∀ k, b.itembatch.get? k = (t.itembatch.get? k).map (ItemBatch.committed (t.pkgQty p.reliefpkgId k))) ∧
      (∀ s, b.inventory.get? s = (t.inventory.get? s).map fun v =>
        { v with usableQty := v.usableQty - t.taken p s, reservedQty := v.reservedQty - t.taken p s }) ∧
      (∀ s, batchSum b.itembatch s ItemBatch.reservedQty =
        batchSum t.itembatch s ItemBatch.reservedQty - t.taken p s) ∧
      (∀ s, batchSum b.itembatch s ItemBatch.usableQty =
        batchSum t.itembatch s ItemBatch.usableQty - t.taken p s) ∧
      ∀ k, b.reliefpkgItem.get? k = t.reliefpkgItem.get? k := by
  have hun := h.undoable
  obtain ⟨t₁, hundo, hframe, hkeys, hb, hv, hsum⟩ := hun.undo
  have hrows : t₁.reliefpkgItem = t.reliefpkgItem := by rw [hframe]
  obtain ⟨b₂, hb₂, hget, hreserved, husable⟩ := hun.depleteBatches hkeys hb
  have hnn : ∀ s, 0 ≤ batchSum b₂ s ItemBatch.usableQty := batchSum_nonneg fun r hr => by
    obtain ⟨b, hb', he⟩ := Table.exists_of_map (k := r.key) hget hr rfl
    rw [← he]
    exact sub_nonneg.2 (hun.qty_le_usable hb')
  obtain ⟨v₂, hv₂, hvget⟩ := hun.depleteTotals hv fun s => sub_nonneg.1 (husable s ▸ hnn s)
  -- every saved row is positive, so that the plan is all of them
  have hplan : ((t.positiveItems p.reliefpkgId).map ReliefPkgItem.entry).filter (fun e => decide (0 < e.lmQty)) =
      (t.positiveItems p.reliefpkgId).map ReliefPkgItem.entry := by
    refine filter_positive fun e he => ?_
    obtain ⟨i, hi, rfl⟩ := List.mem_map.1 he
    exact (mem_positiveItems.1 hi).2
  refine ⟨{ overwritePackageItems p.reliefpkgId (buildLmPlanFromPkgItems p.reliefpkgId t) t₁ with
    itembatch := b₂, inventory := v₂ }, ?_, (Table.forRows_keys hb₂).trans hkeys, hget, hvget,
    fun s => (hreserved s).trans (hsum s), husable, fun k => overwritePackageItems_self t₁ hrows p.reliefpkgId k⟩
  simp only [workflowCStock, depleteUsableStock, bind_ok, pure_ok]
  refine ⟨t₁, hundo, b₂, ?_, v₂, ?_, rfl⟩
  · rw [buildLmPlanFromPkgItems_eq, hplan]; exact hb₂
  · rw [buildLmPlanFromPkgItems_eq, hplan, inventoryTotals_entries]; exact hv₂

/-! ## The review page -/

theorem Balanced.firstPkg (h : Balanced t p) : t.firstPkg p.reliefrqstId = some p :=
  (firstPkg_eq_some h.unique).2 ⟨h.mem, rfl⟩

theorem Balanced.firstPkg_dispatch (h : Balanced t p) (ctx : Ctx) :
    (t.setPkg (p.dispatch ctx)).firstPkg p.reliefrqstId = some (p.dispatch ctx) := by
  obtain ⟨r, hh⟩ := header_of_pkg h.unique h.consistent h.mem
  have ht := (touches_setPkg (q := p.dispatch ctx) h.unique h.firstPkg rfl rfl).2 p.reliefrqstId
  rw [if_pos rfl, hh] at ht
  exact (header_eq_some.1 ht).2

/-- A batch without a positive row is committed by nothing. -/
theorem Balanced.committed_eq (h : Balanced t p) {b : ItemBatch} (hb : t.itembatch.get? k = some b)
    (hq : ¬ 0 < t.pkgQty p.reliefpkgId k) : b.committed (t.pkgQty p.reliefpkgId k) = b := by
  have h0 : t.pkgQty p.reliefpkgId k = 0 := le_antisymm (not_lt.1 hq) (h.undoable.qty_nonneg k)
  have hr := (h.ledger.bounds b (Table.mem_of_get? hb)).1
  simp [ItemBatch.committed, h0, max_eq_right hr]

/-- **`commit_inventory` goes through on the saved rows**, and takes exactly them. -/
theorem Balanced.review (h : Balanced t p) (ctx : Ctx) :
    ∃ a, reviewStock ctx p t = .ok a ∧ a.itembatch.keys = t.itembatch.keys ∧
      (∀ k, a.itembatch.get? k = (t.itembatch.get? k).map (ItemBatch.committed (t.pkgQty p.reliefpkgId k))) ∧
      (∀ s, a.inventory.get? s =
        if s ∈ affectedInventory ((t.positiveItems p.reliefpkgId).map ReliefPkgItem.batch) then
          (t.inventory.get? s).map fun v =>
            { v with usableQty := sumUsable a.itembatch s, reservedQty := sumReserved a.itembatch s }
        else t.inventory.get? s) ∧
      a.reliefpkgItem = t.reliefpkgItem := by
  have hn := nodup_positiveItems t p.reliefpkgId
  obtain ⟨b, hb⟩ := Table.forRows_ok commitBatch_writesOwn hn (t := t.itembatch) fun i hi => by
    obtain ⟨b, hb, hq⟩ := h.undoable.row hi
    rw [hb]
    simp only [commitBatch, if_neg (not_lt.2 (hq ▸ h.undoable.qty_le_usable hb))]
    exact ⟨_, rfl⟩
  have hni := nodup_affectedInventory ((t.positiveItems p.reliefpkgId).map ReliefPkgItem.batch)
  rw [← List.map_id (affectedInventory _)] at hni
  obtain ⟨v, hv⟩ := Table.forRows_ok (commitTotal_writesOwn b) hni (t := t.inventory) fun s _ => by
    cases t.inventory.get? (id s) <;> exact ⟨_, rfl⟩
  have hrun : reviewStock ctx p t = .ok { t.setPkg (p.dispatch ctx) with itembatch := b, inventory := v } := by
    simp only [reviewStock, commitInventory, bind_ok, require_ok, pure_ok]
    exact ⟨p.dispatch ctx, h.firstPkg_dispatch ctx, b, hb, v, hv, rfl⟩
  obtain ⟨q, hq, -, hpos, hzero, htot, hrest⟩ := commitInventory_ok hrun
  rw [h.firstPkg_dispatch ctx] at hq
  cases hq
  refine ⟨_, hrun, Table.forRows_keys hb, fun k => ?_, fun s => ?_, rfl⟩
  · by_cases hk : 0 < t.pkgQty p.reliefpkgId k
    · obtain ⟨b₀, hb₀, -, hg⟩ := hpos k hk
      exact hg.trans (congrArg (Option.map _) (show t.itembatch.get? k = some b₀ from hb₀)).symm
    · refine (hzero k hk).trans ?_
      show t.itembatch.get? k = _
      cases hb₀ : t.itembatch.get? k with
      | none => rfl
      | some b₀ => rw [Option.map_some, h.committed_eq hb₀ hk]
  · have haff : s ∈ affectedInventory ((t.positiveItems p.reliefpkgId).map ReliefPkgItem.batch) ↔
        ∃ k, 0 < t.pkgQty p.reliefpkgId k ∧ k.stock = s := by
      simp only [mem_affectedInventory, mem_map_positiveItems]
    split
    · exact htot s (haff.1 ‹_›)
    · exact hrest s (mt haff.2 ‹_›)

/-- **The two stock parts agree.** -/
theorem Balanced.sameStock (h : Balanced t p) (ctx : Ctx) :
    ∃ a b, reviewStock ctx p t = .ok a ∧
      workflowCStock p.reliefpkgId (buildLmPlanFromPkgItems p.reliefpkgId t) t = .ok b ∧ SameStock a b := by
  obtain ⟨a, ha, hakeys, habatch, hatotal, harows⟩ := h.review ctx
  obtain ⟨b, hb, hbkeys, hbbatch, hbtotal, hreserved, husable, hbrows⟩ := h.workflowC
  have hbatch : ∀ k, a.itembatch.get? k = b.itembatch.get? k := fun k => (habatch k).trans (hbbatch k).symm
  have hscale : ∀ r ∈ a.itembatch.rows, AtScale 2 r.usableQty ∧ AtScale 2 r.reservedQty := fun r hr => by
    have hg : a.itembatch.get? r.key = some r := Table.get?_key hr
    rw [habatch] at hg
    obtain ⟨r₀, hr₀, he⟩ := Option.map_eq_some_iff.1 hg
    have hq := pkgQty_atScale h.ledger.rowScale p.reliefpkgId r.key
    obtain ⟨hu, hv⟩ := h.ledger.batchScale r₀ (Table.mem_of_get? hr₀)
    rw [← he]
    exact ⟨hu.sub hq, AtScale.zero.max (hv.sub hq)⟩
  have hsame : ∀ s (col : ItemBatch → ℚ), batchSum a.itembatch s col = batchSum b.itembatch s col := fun s col =>
    batchSum_congr (hakeys.trans hbkeys.symm) (fun k r r' hr hr' => by
      rw [hbatch, hr] at hr'
      cases hr'; rfl) s
  refine ⟨a, b, ha, hb, hbatch, fun s => ?_, fun k => by rw [harows, hbrows]⟩
  rw [hatotal, hbtotal]
  cases hv : t.inventory.get? s with
  | none => split <;> rfl
  | some v =>
    have hkey : v.key = s := Table.key_of_get? hv
    have hm := Table.mem_of_get? hv
    split
    · rw [sumUsable_eq (fun r hr => (hscale r hr).1), sumReserved_eq (fun r hr => (hscale r hr).2), hsame, hsame,
        husable, hreserved, ← hkey, ← h.ledger.usableTotal v hm, ← h.ledger.reservedTotal v hm]
      rfl
    · rename_i hs
      simp [taken_eq_zero hs]

/-! ## The routes -/

theorem reviewApproval_stock {post : Post} (h : Balanced t p)
    (hrun : reviewApproval ctx p.reliefrqstId .approveAndDispatch post t = .ok t₁) :
    ∃ a, reviewStock ctx p t = .ok a ∧ SameStock t₁ a := by
  simp only [reviewApproval, bind_ok] at hrun
  obtain ⟨⟨r, q⟩, hg, hrun⟩ := hrun
  obtain ⟨-, -, hr, hq, -, -⟩ := approveGate_ok h.unique hg
  rw [h.firstPkg] at hq
  cases hq
  simp only [reviewApproveAndDispatch, bind_ok, pure_ok, hr] at hrun
  obtain ⟨_, -, _, -, _, -, _, -, a, ha, rfl⟩ := hrun
  exact ⟨a, ha, fun _ => rfl, fun _ => rfl, fun _ => rfl⟩

theorem submitForDispatch_stock {version : VersionField}
    (hrun : submitForDispatch ctx p.reliefpkgId version .absent t = .ok t₁) :
    ∃ b, workflowCStock p.reliefpkgId (buildLmPlanFromPkgItems p.reliefpkgId t) t = .ok b ∧ SameStock t₁ b := by
  simp only [submitForDispatch, lmPlan, workflowC, bind_ok, pure_ok, Except.ok.injEq] at hrun
  obtain ⟨_, -, _, -, _, -, _, rfl, _, -, _, -, _, -, _, -, _, -, _, -, t₂, hundo, b, hdep, rfl⟩ := hrun
  refine ⟨b, ?_, fun _ => rfl, fun _ => rfl, fun _ => rfl⟩
  simp only [workflowCStock, bind_ok]
  exact ⟨t₂, hundo, hdep⟩

end

/-- **Both ways to dispatch a saved plan move the same stock.** Under the ledger neither fails a stock
check, whatever the package, and when both routes commit, the committed stock is the same. -/
theorem two_dispatches_agree (db : Database) (p : ReliefPkg) (h : Balanced db.tables p) (ctx : Ctx) (post : Post)
    (version : VersionField) :
    (∃ a b, reviewStock ctx p db.tables = .ok a ∧
      workflowCStock p.reliefpkgId (buildLmPlanFromPkgItems p.reliefpkgId db.tables) db.tables = .ok b ∧
      SameStock a b) ∧
    (Commits db (.reviewApproval ctx p.reliefrqstId .approveAndDispatch post) →
      Commits db (.submitForDispatch ctx p.reliefpkgId version .absent) →
      SameStock (step db (.reviewApproval ctx p.reliefrqstId .approveAndDispatch post)).tables
        (step db (.submitForDispatch ctx p.reliefpkgId version .absent)).tables) := by
  obtain ⟨a, b, ha, hb, hab⟩ := h.sameStock ctx
  refine ⟨⟨a, b, ha, hb, hab⟩, fun hreview hwork => ?_⟩
  obtain ⟨t₁, ht₁, -, he₁⟩ := step_of_commits hreview
  obtain ⟨t₂, ht₂, -, he₂⟩ := step_of_commits hwork
  obtain ⟨a', ha', h₁⟩ := reviewApproval_stock h ht₁
  obtain ⟨b', hb', h₂⟩ := submitForDispatch_stock ht₂
  cases ha.symm.trans ha'
  cases hb.symm.trans hb'
  rw [he₁, he₂]
  exact SameStock.rounded ⟨fun k => (h₁.batch k).trans ((hab.batch k).trans (h₂.batch k).symm),
    fun s => (h₁.total s).trans ((hab.total s).trans (h₂.total s).symm),
    fun k => (h₁.rows k).trans ((hab.rows k).trans (h₂.rows k).symm)⟩

/-- A submitted package of two units, dispatched either way. -/
theorem two_dispatches_agree_site :
    SameStock (step Site.submitted (.reviewApproval Site.manager 1 .approveAndDispatch (Site.post 4 (.num 2) 2))).tables
      (step Site.submitted (.submitForDispatch Site.manager 1 (.num 2) .absent)).tables := by
  have hledger : Ledger Site.submitted.tables :=
    (drafting_keeps_ledger Site.db Site.ledger [.preparePackage Site.officer 1 .submitForApproval
      (Site.post 3 .absent 2)] ⟨⟨Site.form_exact (by decide +kernel), by decide +kernel⟩, trivial⟩).1
  exact (two_dispatches_agree Site.submitted Site.submittedPkg
    ⟨hledger, Site.submitted.consistent, by unfold Covered; decide +kernel, by decide +kernel, by decide +kernel,
      by decide⟩
    Site.manager (Site.post 4 (.num 2) 2) (.num 2)).2 (by decide +kernel) (by decide +kernel)

end Dmis
