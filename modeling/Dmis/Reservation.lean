import Dmis.ItemStatus

/-!
# The reservation service

`app/services/inventory_reservation_service.py`. Every function is two row loops: one over the
batches a package takes from, one over the warehouse totals `(item_id, inventory_id)` of these
batches, which are recomputed as sums. Each loop body is a definition of its own, so that the
interleaving model can run the same bodies step by step.

| here | there |
| --- | --- |
| `reserveBatch`, `reserveTotal`, `reserveInventory` | `reserve_inventory` (`:73-200`) |
| `releaseBatch`, `releaseTotal`, `releaseAllReservations` | `release_all_reservations` (`:203-290`) |
| `commitBatch`, `commitTotal`, `commitInventory` | `commit_inventory` (`:293-378`) |
| `cancelBatch`, `cancelTotal`, `cancelReliefPackage` | `cancel_relief_package` (`:381-603`) |

Sets are iterated in some order in Python; here in the order their elements were added.
-/

namespace Dmis

open Relational Keyed

/-! ## Allocation maps -/

/-- An entry of `new_allocations`. -/
structure Alloc where
  itemId : Nat
  batchId : Nat
  warehouseId : Nat
  allocatedQty : ℚ
  deriving DecidableEq, Repr

def Alloc.key (a : Alloc) : BatchKey := ⟨a.itemId, a.warehouseId, a.batchId⟩

instance : Keyed (BatchKey × ℚ) BatchKey := ⟨Prod.fst⟩

/-- `{(item_id, inventory_id, batch_id): qty}`. -/
abbrev Allocations := Table (BatchKey × ℚ)

/-- `allocations.get(key, Decimal('0'))`. -/
def Allocations.qty (d : Allocations) (k : BatchKey) : ℚ := ((d.get? k).map Prod.snd).getD 0

/-- `new_batch_reservations`: of two entries for one batch the last counts. -/
def newBatchReservations (new : List Alloc) : Allocations :=
  (new.filter (0 < ·.allocatedQty)).foldl (fun d a => d.upsert (a.key, a.allocatedQty)) .empty

/-- `set(old.keys()) | set(new.keys())`. -/
def allBatchKeys (old new : Allocations) : List BatchKey :=
  old.keys ++ new.keys.filter (· ∉ old.keys)

/-- `affected_inventory` of these batches. -/
def affectedInventory (ks : List BatchKey) : List StockKey := (ks.map BatchKey.stock).dedup

/-! ## Rows and sums -/

/-- The rows of a package: `ReliefPkgItem.query.filter_by(reliefpkg_id=…).all()`. -/
def Tables.pkgItems (t : Tables) (pkgId : Nat) : List ReliefPkgItem :=
  t.reliefpkgItem.select fun i => i.reliefpkgId = pkgId

/-- The rows of a package that take something. -/
def Tables.positiveItems (t : Tables) (pkgId : Nat) : List ReliefPkgItem :=
  (t.pkgItems pkgId).filter (0 < ·.itemQty)

/-- The packages of a request, `relief_request.packages`. -/
def Tables.packages (t : Tables) (rqstId : Nat) : List ReliefPkg :=
  t.reliefpkg.select fun p => p.reliefrqstId = rqstId

/-- `ReliefPkg.query.filter_by(reliefrqst_id=…).first()`. -/
def Tables.firstPkg (t : Tables) (rqstId : Nat) : Option ReliefPkg := (t.packages rqstId).head?

/-- `SUM(itembatch.reserved_qty)` over the batches of an item at a warehouse, as stored. -/
def sumReserved (b : Table ItemBatch) (s : StockKey) : ℚ :=
  b.sum (fun r => decide (r.key.stock = s)) fun r => numeric 4 r.reservedQty

/-- `SUM(itembatch.usable_qty)`. -/
def sumUsable (b : Table ItemBatch) (s : StockKey) : ℚ :=
  b.sum (fun r => decide (r.key.stock = s)) fun r => numeric 4 r.usableQty

/-! ## reserve_inventory -/

/-- The batch part of `reserve_inventory`: apply the difference of the new and the old quantity. A
batch that went missing may only be released. -/
def reserveBatch (old new : Allocations) (k : BatchKey) (batch : Option ItemBatch) :
    Except Err (Option ItemBatch) :=
  let delta := new.qty k - old.qty k
  if delta = 0 then .ok none
  else match batch with
    | none => if 0 < delta then .error (.batchMissing k) else .ok none
    | some b =>
      if b.reservedQty + delta < 0 then .ok (some { b with reservedQty := 0 })
      else if b.usableQty < b.reservedQty + delta then
        .error (.cannotReserve k delta (b.usableQty - b.reservedQty))
      else .ok (some { b with reservedQty := b.reservedQty + delta })

/-- The branch of `reserveBatch` that clamps a negative reservation to `0`. -/
def clamps (old new : Allocations) (k : BatchKey) (batch : Option ItemBatch) : Prop :=
  ∃ b, batch = some b ∧ new.qty k - old.qty k ≠ 0 ∧ b.reservedQty + (new.qty k - old.qty k) < 0

/-- The warehouse part of `reserve_inventory`. -/
def reserveTotal (batches : Table ItemBatch) (s : StockKey) : Option Inventory → Except Err (Option Inventory)
  | none => .error (.noActiveInventory s)
  | some v =>
    if v.statusCode ≠ .active then .error (.noActiveInventory s)
    else if v.usableQty < sumReserved batches s then .error (.reservationsExceedInventory s)
    else .ok (some { v with reservedQty := sumReserved batches s })

def reserveInventory (new : List Alloc) (old : Allocations) (t : Tables) : Except Err Tables := do
  let newRes := newBatchReservations new
  let keys := allBatchKeys old newRes
  let batches ← Table.forRows id (reserveBatch old newRes) keys t.itembatch
  let totals ← Table.forRows id (reserveTotal batches) (affectedInventory keys) t.inventory
  pure { t with itembatch := batches, inventory := totals }

/-! ## release_all_reservations -/

/-- `get_current_batch_reservations` (`:50-70`): the positive rows of the request's package. -/
def currentBatchReservations (rqstId : Nat) (t : Tables) : List ReliefPkgItem :=
  match t.firstPkg rqstId with
  | none => []
  | some p => t.positiveItems p.reliefpkgId

def releaseBatch (i : ReliefPkgItem) : Option ItemBatch → Except Err (Option ItemBatch)
  | none => .ok none
  | some b => .ok (some { b with reservedQty := max 0 (b.reservedQty - i.itemQty) })

def releaseTotal (batches : Table ItemBatch) (s : StockKey) : Option Inventory → Except Err (Option Inventory)
  | none => .ok none
  | some v =>
    if v.statusCode = .active then .ok (some { v with reservedQty := sumReserved batches s }) else .ok none

def releaseAllReservations (rqstId : Nat) (t : Tables) : Except Err Tables := do
  let rows := currentBatchReservations rqstId t
  let batches ← Table.forRows ReliefPkgItem.batch releaseBatch rows t.itembatch
  let totals ← Table.forRows id (releaseTotal batches)
    (affectedInventory (rows.map ReliefPkgItem.batch)) t.inventory
  pure { t with itembatch := batches, inventory := totals }

/-! ## commit_inventory -/

def commitBatch (i : ReliefPkgItem) : Option ItemBatch → Except Err (Option ItemBatch)
  | none => .error (.batchMissing i.batch)
  | some b =>
    if b.usableQty < i.itemQty then
      .error (.insufficientInventory i.batch.stock i.itemQty b.usableQty)
    else .ok (some { b with
      usableQty := b.usableQty - i.itemQty
      reservedQty := max 0 (b.reservedQty - i.itemQty) })

/-- The total is left alone when the warehouse has no row for the item. -/
def commitTotal (batches : Table ItemBatch) (s : StockKey) : Option Inventory → Except Err (Option Inventory)
  | none => .ok none
  | some v => .ok (some { v with usableQty := sumUsable batches s, reservedQty := sumReserved batches s })

def commitInventory (rqstId : Nat) (t : Tables) : Except Err Tables := do
  let p ← require (t.firstPkg rqstId) .noPackage
  let rows := t.positiveItems p.reliefpkgId
  let batches ← Table.forRows ReliefPkgItem.batch commitBatch rows t.itembatch
  let totals ← Table.forRows id (commitTotal batches)
    (affectedInventory (rows.map ReliefPkgItem.batch)) t.inventory
  pure { t with itembatch := batches, inventory := totals }

/-! ## cancel_relief_package -/

def cancelBatch (i : ReliefPkgItem) : Option ItemBatch → Except Err (Option ItemBatch)
  | none => .ok none
  | some b =>
    if b.reservedQty < i.itemQty then .error (.inconsistentReservation i.batch b.reservedQty i.itemQty)
    else .ok (some { b with reservedQty := b.reservedQty - i.itemQty })

def cancelTotal (batches : Table ItemBatch) (s : StockKey) : Option Inventory → Except Err (Option Inventory)
  | none => .error (.inventoryMissing s)
  | some v =>
    if sumReserved batches s < 0 then .error (.inconsistentInventory s v.reservedQty (sumReserved batches s))
    else .ok (some { v with reservedQty := sumReserved batches s })

/-- The package goes, and its rows with it; the request stays as it is. -/
def cancelReliefPackage (pkgId : Nat) (t : Tables) : Except Err Tables := do
  let p ← require (t.reliefpkg.get? pkgId) .noPackage
  check (p.statusCode = .pending ∨ p.statusCode = .dispatched) (.wrongPackageStatus p.statusCode)
  let rows := t.positiveItems pkgId
  let batches ← Table.forRows ReliefPkgItem.batch cancelBatch rows t.itembatch
  let totals ← Table.forRows id (cancelTotal batches)
    (affectedInventory (rows.map ReliefPkgItem.batch)) t.inventory
  pure { t with
    itembatch := batches
    inventory := totals
    reliefpkgItem := t.reliefpkgItem.deleteWhere fun i => i.reliefpkgId = pkgId
    reliefpkg := t.reliefpkg.deleteWhere fun p => p.reliefpkgId = pkgId }

/-! ## Allocation maps, looked up -/

theorem Allocations.qty_of_not_mem {d : Allocations} {k : BatchKey} (h : k ∉ d.keys) : d.qty k = 0 := by
  simp [Allocations.qty, Table.get?_eq_none.2 h]

theorem nodup_allBatchKeys (old new : Allocations) : (allBatchKeys old new).Nodup := by
  refine List.nodup_append.2 ⟨old.nodup, new.nodup.filter _, ?_⟩
  rintro a ha b hb rfl
  simp only [List.mem_filter, decide_eq_true_eq] at hb
  exact hb.2 ha

theorem mem_allBatchKeys {old new : Allocations} {k : BatchKey} :
    k ∈ allBatchKeys old new ↔ k ∈ old.keys ∨ k ∈ new.keys := by
  simp only [allBatchKeys, List.mem_append, List.mem_filter, decide_eq_true_eq]
  tauto

theorem mem_affectedInventory {ks : List BatchKey} {s : StockKey} :
    s ∈ affectedInventory ks ↔ ∃ k ∈ ks, k.stock = s := by
  simp [affectedInventory]

theorem nodup_affectedInventory (ks : List BatchKey) : (affectedInventory ks).Nodup := List.nodup_dedup _

/-- The new reservation of a batch is the last positive entry for it. -/
theorem newBatchReservations_qty (new : List Alloc) (k : BatchKey) :
    (newBatchReservations new).qty k =
      (((new.filter fun a => 0 < a.allocatedQty ∧ a.key = k).getLast?).map Alloc.allocatedQty).getD 0 := by
  unfold newBatchReservations
  induction new using List.reverseRecOn with
  | nil => rfl
  | append_singleton as a ih =>
    by_cases hq : 0 < a.allocatedQty
    · have hkey : Keyed.key (a.key, a.allocatedQty) = a.key := rfl
      simp only [List.filter_append, List.filter_singleton, hq, decide_true, cond_true, List.foldl_append,
        List.foldl_cons, List.foldl_nil, Allocations.qty, Table.get?_upsert, hkey, true_and]
      by_cases hk : a.key = k
      · simp [hk]
      · simpa [hk, Allocations.qty] using ih
    · simpa [hq] using ih

/-! ## The rows of a package -/

/-- The quantity a package takes from a batch, `0` without a row. -/
def Tables.pkgQty (t : Tables) (pkgId : Nat) (k : BatchKey) : ℚ :=
  ((t.reliefpkgItem.get? (pkgId, k)).map ReliefPkgItem.itemQty).getD 0

section
variable {t : Tables} {pkgId : Nat} {k : BatchKey}

theorem mem_pkgItems {i : ReliefPkgItem} :
    i ∈ t.pkgItems pkgId ↔ i ∈ t.reliefpkgItem.rows ∧ i.reliefpkgId = pkgId := by
  simp [Tables.pkgItems, Table.select]

theorem pkgQty_of_mem {i : ReliefPkgItem} (h : i ∈ t.pkgItems pkgId) : t.pkgQty pkgId i.batch = i.itemQty := by
  obtain ⟨hi, rfl⟩ := mem_pkgItems.1 h
  have hg : t.reliefpkgItem.get? (i.reliefpkgId, i.batch) = some i := Table.get?_key hi
  simp [Tables.pkgQty, hg]

theorem exists_of_pkgQty_ne_zero (h : t.pkgQty pkgId k ≠ 0) :
    ∃ i ∈ t.pkgItems pkgId, i.batch = k ∧ i.itemQty = t.pkgQty pkgId k := by
  unfold Tables.pkgQty at h ⊢
  cases hg : t.reliefpkgItem.get? (pkgId, k) with
  | none => simp [hg] at h
  | some i =>
    obtain ⟨hi, hk⟩ := Table.get?_eq_some.1 hg
    cases hk
    exact ⟨i, mem_pkgItems.2 ⟨hi, rfl⟩, rfl, rfl⟩

theorem mem_positiveItems {i : ReliefPkgItem} :
    i ∈ t.positiveItems pkgId ↔ i ∈ t.pkgItems pkgId ∧ 0 < i.itemQty := by
  simp [Tables.positiveItems]

theorem mem_map_positiveItems :
    k ∈ (t.positiveItems pkgId).map ReliefPkgItem.batch ↔ 0 < t.pkgQty pkgId k := by
  rw [List.mem_map]
  constructor
  · rintro ⟨i, hi, rfl⟩
    obtain ⟨hi, hq⟩ := mem_positiveItems.1 hi
    rwa [pkgQty_of_mem hi]
  · intro h
    obtain ⟨i, hi, hk, hq⟩ := exists_of_pkgQty_ne_zero h.ne'
    exact ⟨i, mem_positiveItems.2 ⟨hi, hq ▸ h⟩, hk⟩

theorem nodup_pkgItems (t : Tables) (pkgId : Nat) : ((t.pkgItems pkgId).map ReliefPkgItem.batch).Nodup := by
  have hn : ((t.pkgItems pkgId).map key).Nodup := t.reliefpkgItem.nodup.sublist (List.filter_sublist.map key)
  refine List.Nodup.map_on (fun i hi j hj e => ?_) hn.of_map
  have hi' := mem_pkgItems.1 hi
  have hj' := mem_pkgItems.1 hj
  exact List.inj_on_of_nodup_map t.reliefpkgItem.nodup hi'.1 hj'.1 (Prod.ext (hi'.2.trans hj'.2.symm) e)

theorem nodup_positiveItems (t : Tables) (pkgId : Nat) :
    ((t.positiveItems pkgId).map ReliefPkgItem.batch).Nodup :=
  (nodup_pkgItems t pkgId).sublist (List.filter_sublist.map _)

/-- A loop over the positive rows of a package leaves alone every batch the package takes nothing
from, and treats every other batch once. -/
theorem forRows_positiveItems {f : ReliefPkgItem → Option ItemBatch → Except Err (Option ItemBatch)}
    (hw : Table.WritesOwn ReliefPkgItem.batch f) {b b' : Table ItemBatch}
    (h : Table.forRows ReliefPkgItem.batch f (t.positiveItems pkgId) b = .ok b') (k : BatchKey) :
    (¬ 0 < t.pkgQty pkgId k ∧ b'.get? k = b.get? k) ∨
    (0 < t.pkgQty pkgId k ∧ ∃ i ∈ t.pkgItems pkgId, i.batch = k ∧ i.itemQty = t.pkgQty pkgId k ∧
      ∃ o, f i (b.get? k) = .ok o ∧ b'.get? k = Table.left (b.get? k) o) := by
  rcases Table.forRows_get? hw h (nodup_positiveItems t pkgId) k with ⟨hk, hg⟩ | ⟨i, hi, rfl, o, ho, hg⟩
  · exact .inl ⟨fun hq => hk (mem_map_positiveItems.2 hq), hg⟩
  · obtain ⟨hi, hq⟩ := mem_positiveItems.1 hi
    rw [pkgQty_of_mem hi]
    exact .inr ⟨hq, i, hi, rfl, rfl, o, ho, hg⟩

end

/-! ## What the services do -/

/-- `reserve_inventory` on a batch: the difference is added, never below `0`. -/
def bumped (delta r : ℚ) : ℚ := if delta = 0 then r else max 0 (r + delta)

theorem reserveBatch_ok {old new : Allocations} {k : BatchKey} {batch o : Option ItemBatch}
    (h : reserveBatch old new k batch = .ok o) :
    Table.left batch o = batch.map (fun b =>
      { b with reservedQty := bumped (new.qty k - old.qty k) b.reservedQty }) ∧
    ∀ b ∈ batch, new.qty k - old.qty k ≠ 0 →
      bumped (new.qty k - old.qty k) b.reservedQty ≤ max 0 b.usableQty := by
  cases batch with
  | none =>
    simp only [reserveBatch] at h
    split_ifs at h <;> cases h <;> simp [Table.left]
  | some b =>
    simp only [reserveBatch] at h
    split_ifs at h with h0 hneg hle
    · cases h
      simp [Table.left, bumped, h0]
    · cases h
      refine ⟨by simp [Table.left, bumped, h0, max_eq_left hneg.le], fun b' hb' _ => ?_⟩
      cases hb'
      simp only [bumped, if_neg h0, max_eq_left hneg.le]
      exact le_max_left _ _
    · cases h
      simp only [not_lt] at hneg hle
      refine ⟨by simp [Table.left, bumped, h0, max_eq_right hneg], fun b' hb' _ => ?_⟩
      cases hb'
      simp only [bumped, if_neg h0]
      exact max_le_max le_rfl hle

theorem reserveBatch_writesOwn (old new : Allocations) : Table.WritesOwn id (reserveBatch old new) := by
  intro k o r hk h
  cases o with
  | none =>
    simp only [reserveBatch] at h
    split_ifs at h <;> cases h
  | some b =>
    simp only [reserveBatch] at h
    split_ifs at h <;> cases h <;> exact hk b rfl

theorem reserveTotal_writesOwn (b : Table ItemBatch) : Table.WritesOwn id (reserveTotal b) := by
  intro s o v hk h
  cases o with
  | none => cases h
  | some v' =>
    simp only [reserveTotal] at h
    split_ifs at h
    cases h; exact hk v' rfl

theorem reserveTotal_ok {b : Table ItemBatch} {s : StockKey} {total o : Option Inventory}
    (h : reserveTotal b s total = .ok o) :
    ∃ v, total = some v ∧ v.statusCode = .active ∧ sumReserved b s ≤ v.usableQty ∧
      o = some { v with reservedQty := sumReserved b s } := by
  cases total with
  | none => cases h
  | some v =>
    simp only [reserveTotal, ne_eq, ite_not] at h
    split_ifs at h with ha hle
    cases h
    exact ⟨v, rfl, ha, not_lt.1 hle, rfl⟩

/-- **`reserve_inventory`** adds to every batch the difference between the new and the old quantity
of the package, and rewrites the totals of the warehouses either map names. -/
theorem reserveInventory_ok {new : List Alloc} {old : Allocations} {t t' : Tables}
    (h : reserveInventory new old t = .ok t') :
    t' = { t with itembatch := t'.itembatch, inventory := t'.inventory } ∧
    (∀ k, t'.itembatch.get? k = (t.itembatch.get? k).map fun b =>
      { b with reservedQty := bumped ((newBatchReservations new).qty k - old.qty k) b.reservedQty }) ∧
    (∀ k b, t.itembatch.get? k = some b → (newBatchReservations new).qty k - old.qty k ≠ 0 →
      bumped ((newBatchReservations new).qty k - old.qty k) b.reservedQty ≤ max 0 b.usableQty) ∧
    (∀ s, (∃ k ∈ allBatchKeys old (newBatchReservations new), k.stock = s) →
      ∃ v, t.inventory.get? s = some v ∧ v.statusCode = .active ∧ sumReserved t'.itembatch s ≤ v.usableQty ∧
        t'.inventory.get? s = some { v with reservedQty := sumReserved t'.itembatch s }) ∧
    (∀ s, (¬ ∃ k ∈ allBatchKeys old (newBatchReservations new), k.stock = s) →
      t'.inventory.get? s = t.inventory.get? s) := by
  simp only [reserveInventory, bind_ok, pure_ok] at h
  obtain ⟨batches, hb, totals, hi, rfl⟩ := h
  have hnb := nodup_allBatchKeys old (newBatchReservations new)
  have hni := nodup_affectedInventory (allBatchKeys old (newBatchReservations new))
  rw [← List.map_id (allBatchKeys _ _)] at hnb
  rw [← List.map_id (affectedInventory _)] at hni
  have hw := reserveBatch_writesOwn old (newBatchReservations new)
  have hrow : ∀ k, ∃ o, reserveBatch old (newBatchReservations new) k (t.itembatch.get? k) = .ok o ∧
      batches.get? k = Table.left (t.itembatch.get? k) o := fun k => by
    rcases Table.forRows_get? hw hb hnb k with ⟨hk, hg⟩ | ⟨_, _, rfl, o, ho, hg⟩
    · rw [List.map_id, mem_allBatchKeys, not_or] at hk
      refine ⟨none, ?_, hg⟩
      simp [reserveBatch, Allocations.qty_of_not_mem hk.1, Allocations.qty_of_not_mem hk.2]
    · exact ⟨o, ho, hg⟩
  refine ⟨rfl, fun k => ?_, fun k b hk hd => ?_, fun s hs => ?_, fun s hs => ?_⟩
  · obtain ⟨o, ho, hg⟩ := hrow k
    exact hg.trans (reserveBatch_ok ho).1
  · obtain ⟨o, ho, -⟩ := hrow k
    exact (reserveBatch_ok ho).2 b hk hd
  · obtain ⟨o, ho, hg⟩ := Table.forRows_spec (reserveTotal_writesOwn batches) hi hni s
      (mem_affectedInventory.2 hs)
    obtain ⟨v, hv, ha, hle, rfl⟩ := reserveTotal_ok ho
    rw [hv] at hg
    exact ⟨v, hv, ha, hle, hg⟩
  · refine Table.forRows_other (reserveTotal_writesOwn batches) hi ?_
    rwa [List.map_id, mem_affectedInventory]

theorem reserveInventory_keys {new : List Alloc} {old : Allocations} {t t' : Tables}
    (h : reserveInventory new old t = .ok t') : t'.itembatch.keys = t.itembatch.keys := by
  simp only [reserveInventory, bind_ok, pure_ok] at h
  obtain ⟨batches, hb, _, _, rfl⟩ := h
  exact Table.forRows_keys hb

/-- What does not make a reservation negative is added to it. -/
theorem bumped_of_nonneg {delta r : ℚ} (h : 0 ≤ r + delta) : bumped delta r = r + delta := by
  unfold bumped
  split
  · rename_i h0
    rw [h0, add_zero]
  · exact max_eq_right h

/-- A batch after `commit_inventory` took `q` from it. -/
def ItemBatch.committed (q : ℚ) (b : ItemBatch) : ItemBatch :=
  { b with usableQty := b.usableQty - q, reservedQty := max 0 (b.reservedQty - q) }

theorem commitBatch_writesOwn : Table.WritesOwn ReliefPkgItem.batch commitBatch := by
  intro i o r hk h
  cases o with
  | none => cases h
  | some b =>
    simp only [commitBatch] at h
    split_ifs at h
    cases h; exact hk b rfl

theorem commitTotal_writesOwn (b : Table ItemBatch) : Table.WritesOwn id (commitTotal b) := by
  intro s o v hk h
  cases o with
  | none => cases h
  | some v' => cases h; exact hk v' rfl

theorem commitBatch_ok {i : ReliefPkgItem} {batch o : Option ItemBatch} (h : commitBatch i batch = .ok o) :
    ∃ b, batch = some b ∧ i.itemQty ≤ b.usableQty ∧ o = some (b.committed i.itemQty) := by
  cases batch with
  | none => cases h
  | some b =>
    simp only [commitBatch] at h
    split_ifs at h with hlt
    cases h
    exact ⟨b, rfl, not_lt.1 hlt, rfl⟩

/-- **`commit_inventory`** takes every positive quantity of the package out of its batch, and
rewrites the totals of the warehouses these batches are in. -/
theorem commitInventory_ok {rqstId : Nat} {t t' : Tables} (h : commitInventory rqstId t = .ok t') :
    ∃ p, t.firstPkg rqstId = some p ∧
    t' = { t with itembatch := t'.itembatch, inventory := t'.inventory } ∧
    (∀ k, 0 < t.pkgQty p.reliefpkgId k → ∃ b, t.itembatch.get? k = some b ∧
      t.pkgQty p.reliefpkgId k ≤ b.usableQty ∧
      t'.itembatch.get? k = some (b.committed (t.pkgQty p.reliefpkgId k))) ∧
    (∀ k, ¬ 0 < t.pkgQty p.reliefpkgId k → t'.itembatch.get? k = t.itembatch.get? k) ∧
    (∀ s, (∃ k, 0 < t.pkgQty p.reliefpkgId k ∧ k.stock = s) →
      t'.inventory.get? s = (t.inventory.get? s).map fun v =>
        { v with usableQty := sumUsable t'.itembatch s, reservedQty := sumReserved t'.itembatch s }) ∧
    (∀ s, (¬ ∃ k, 0 < t.pkgQty p.reliefpkgId k ∧ k.stock = s) →
      t'.inventory.get? s = t.inventory.get? s) := by
  simp only [commitInventory, bind_ok, pure_ok, require_ok] at h
  obtain ⟨p, hp, batches, hb, totals, hi, rfl⟩ := h
  have hrow := forRows_positiveItems commitBatch_writesOwn hb
  have haff : ∀ s, s ∈ affectedInventory ((t.positiveItems p.reliefpkgId).map ReliefPkgItem.batch) ↔
      ∃ k, 0 < t.pkgQty p.reliefpkgId k ∧ k.stock = s := fun s => by
    simp only [mem_affectedInventory, mem_map_positiveItems]
  have hni := nodup_affectedInventory ((t.positiveItems p.reliefpkgId).map ReliefPkgItem.batch)
  rw [← List.map_id (affectedInventory _)] at hni
  refine ⟨p, hp, rfl, fun k hk => ?_, fun k hk => ?_, fun s hs => ?_, fun s hs => ?_⟩
  · rcases hrow k with ⟨hn, _⟩ | ⟨_, i, _, _, hq, o, ho, hg⟩
    · exact absurd hk hn
    · obtain ⟨b, hb', hle, rfl⟩ := commitBatch_ok ho
      refine ⟨b, hb', hq ▸ hle, ?_⟩
      rw [hg, hb', hq]; rfl
  · rcases hrow k with ⟨_, hg⟩ | ⟨hk', _⟩
    · exact hg
    · exact absurd hk' hk
  · obtain ⟨o, ho, hg⟩ := Table.forRows_spec (commitTotal_writesOwn batches) hi hni s ((haff s).2 hs)
    simp only [id] at ho hg
    cases hv : t.inventory.get? s with
    | none => rw [hv] at ho hg; cases ho; exact hg
    | some v => rw [hv] at ho hg; cases ho; exact hg
  · refine Table.forRows_other (commitTotal_writesOwn batches) hi ?_
    rwa [List.map_id, haff]

theorem releaseBatch_writesOwn : Table.WritesOwn ReliefPkgItem.batch releaseBatch := by
  intro i o r hk h
  cases o with
  | none => cases h
  | some b => cases h; exact hk b rfl

theorem cancelBatch_writesOwn : Table.WritesOwn ReliefPkgItem.batch cancelBatch := by
  intro i o r hk h
  cases o with
  | none => cases h
  | some b =>
    simp only [cancelBatch] at h
    split_ifs at h
    cases h; exact hk b rfl

/-- `cancel_relief_package` removes the package and its rows, and leaves the usable stock alone. -/
theorem cancelReliefPackage_keys {pkgId : Nat} {t t' : Tables} (h : cancelReliefPackage pkgId t = .ok t') :
    t'.itembatch.keys = t.itembatch.keys := by
  simp only [cancelReliefPackage, bind_ok, pure_ok] at h
  obtain ⟨_, _, _, _, _, hb, _, _, rfl⟩ := h
  exact Table.forRows_keys hb

theorem cancelReliefPackage_ok {pkgId : Nat} {t t' : Tables} (h : cancelReliefPackage pkgId t = .ok t') :
    ∃ p, t.reliefpkg.get? pkgId = some p ∧ (p.statusCode = .pending ∨ p.statusCode = .dispatched) ∧
    t' = { t with
      itembatch := t'.itembatch
      inventory := t'.inventory
      reliefpkgItem := t.reliefpkgItem.deleteWhere fun i => i.reliefpkgId = pkgId
      reliefpkg := t.reliefpkg.deleteWhere fun p => p.reliefpkgId = pkgId } ∧
    (∀ k, ∃ f : ℚ → ℚ, t'.itembatch.get? k =
      (t.itembatch.get? k).map fun b => { b with reservedQty := f b.reservedQty }) := by
  simp only [cancelReliefPackage, bind_ok, pure_ok, require_ok, check_ok, exists_const] at h
  obtain ⟨p, hp, hs, batches, hb, totals, hi, rfl⟩ := h
  refine ⟨p, hp, hs, rfl, fun k => ?_⟩
  rcases forRows_positiveItems cancelBatch_writesOwn hb k with ⟨_, hg⟩ | ⟨_, i, _, _, _, o, ho, hg⟩
  · exact ⟨id, by simpa using hg⟩
  · cases hk : t.itembatch.get? k with
    | none => rw [hk] at ho hg; cases ho; exact ⟨id, by simpa [Table.left] using hg⟩
    | some b =>
      rw [hk] at ho hg
      simp only [cancelBatch] at ho
      split_ifs at ho
      cases ho
      exact ⟨fun q => q - i.itemQty, hg⟩

/-- Without rows there is nothing to release. -/
theorem releaseAllReservations_of_empty {rqstId : Nat} {t : Tables}
    (h : ∀ p ∈ t.firstPkg rqstId, t.pkgItems p.reliefpkgId = []) : releaseAllReservations rqstId t = .ok t := by
  have hr : currentBatchReservations rqstId t = [] := by
    unfold currentBatchReservations
    cases hp : t.firstPkg rqstId with
    | none => rfl
    | some p => simp [Tables.positiveItems, h p hp]
  simp [releaseAllReservations, hr, Table.forRows, affectedInventory, bind, Except.bind, pure, Except.pure]

end Dmis
