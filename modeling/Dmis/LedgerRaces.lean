import Dmis.Operations
import Dmis.Lib.Locks
import Dmis.Lib.Sessions

/-!
# The ledger under concurrent transactions

The four services of `inventory_reservation_service.py` as the steps they perform: lock and update the batch rows
one by one, read the SUM over the batches of each affected stock, lock its inventory row and write the sum, and
commit. Row locks are held until the end; a read sees what is committed and the session's own rows. The bodies
are the ones of the services.

| here | there |
| --- | --- |
| `LedgerOp.batchSteps` | the loops over batches (`:119-166`, `:235-263`, `:325-347`, `:458-516`) |
| `LedgerTask.sums` | `SELECT SUM(itembatch.reserved_qty)` (`:171-177`, `:268-274`, `:353-360`, `:523-530`) |
| `LedgerTask.locking` | the locked read of the inventory row and the write (`:179-194`, `:276-286`, `:362-372`, `:532-563`) |

The sum is read before the lock of the row it is written to. `ledger_updates_kept` says when the totals are the
sums of the batches in every state that is reached all the same.
-/

namespace Dmis

open Relational Keyed

/-! ## Transactions -/

/-- The treatment of one batch row, found or not. -/
structure BatchStep where
  batch : BatchKey
  body : Option ItemBatch → Except Err (Option ItemBatch)

/-- A call of one of the services; `rows` are the positive rows of its package. -/
inductive LedgerOp where
  | reserveInventory (new : List Alloc) (old : Allocations)
  | releaseAllReservations (rows : List ReliefPkgItem)
  | commitInventory (rows : List ReliefPkgItem)
  | cancelReliefPackage (rows : List ReliefPkgItem)

namespace LedgerOp

/-- A batch whose reservation does not change is not read. -/
def batchSteps : LedgerOp → List BatchStep
  | .reserveInventory new old =>
    ((allBatchKeys old (newBatchReservations new)).filter fun k => (newBatchReservations new).qty k - old.qty k ≠ 0).map
      fun k => ⟨k, reserveBatch old (newBatchReservations new) k⟩
  | .releaseAllReservations rows => rows.map fun i => ⟨i.batch, releaseBatch i⟩
  | .commitInventory rows => rows.map fun i => ⟨i.batch, commitBatch i⟩
  | .cancelReliefPackage rows => rows.map fun i => ⟨i.batch, cancelBatch i⟩

def stocks : LedgerOp → List StockKey
  | .reserveInventory new old => affectedInventory (allBatchKeys old (newBatchReservations new))
  | .releaseAllReservations rows | .commitInventory rows | .cancelReliefPackage rows =>
    affectedInventory (rows.map ReliefPkgItem.batch)

/-- The filter of the locked read of an inventory row. -/
def finds : LedgerOp → StockStatus → Bool
  | .reserveInventory .. | .releaseAllReservations _ => fun st => st = .active
  | .commitInventory _ | .cancelReliefPackage _ => fun _ => true

def total : LedgerOp → Table ItemBatch → StockKey → Option Inventory → Except Err (Option Inventory)
  | .reserveInventory .. => reserveTotal
  | .releaseAllReservations _ => releaseTotal
  | .commitInventory _ => commitTotal
  | .cancelReliefPackage _ => cancelTotal

end LedgerOp

/-- What is committed, and the locks. -/
structure LedgerStore where
  itembatch : Table ItemBatch
  inventory : Table Inventory
  batchLocks : Locks BatchKey
  stockLocks : Locks StockKey

/-- How far a transaction is; `own` and `totals` are the rows it has written. -/
inductive LedgerTask where
  | batches (op : LedgerOp) (todo : List BatchStep) (own : List ItemBatch)
  /-- The SUM of the first stock of `todo` is read next; without one the transaction commits. -/
  | sums (op : LedgerOp) (todo : List StockKey) (own : List ItemBatch) (totals : List Inventory)
  /-- `seen` are the batches as the SUM of `s` was read; the lock of the inventory row comes next. -/
  | locking (op : LedgerOp) (s : StockKey) (seen : Table ItemBatch) (todo : List StockKey) (own : List ItemBatch)
    (totals : List Inventory)
  | ended (committed : Bool)

def LedgerTask.committed : LedgerTask → Bool
  | .ended committed => committed
  | _ => false

def LedgerOp.begin (op : LedgerOp) : LedgerTask := .batches op op.batchSteps []

/-- A rollback, and the end of every transaction. -/
def LedgerStore.unlock (n : Nat) (s : LedgerStore) : LedgerStore :=
  { s with batchLocks := s.batchLocks.release n, stockLocks := s.stockLocks.release n }

def LedgerStore.lockBatch (n : Nat) (k : BatchKey) (s : LedgerStore) : LedgerStore :=
  { s with batchLocks := s.batchLocks.acquire n k }

def LedgerStore.lockStock (n : Nat) (k : StockKey) (s : LedgerStore) : LedgerStore :=
  { s with stockLocks := s.stockLocks.acquire n k }

/-- The rows meet their constraints as they are stored. -/
def Storable (own : List ItemBatch) (totals : List Inventory) : Prop :=
  (∀ b ∈ own, b.rounded.Check) ∧ ∀ v ∈ totals, v.rounded.Check

instance (own : List ItemBatch) (totals : List Inventory) : Decidable (Storable own totals) := by
  unfold Storable; infer_instance

/-- What the locked read of an inventory row finds. -/
def LedgerStore.foundStock (s : LedgerStore) (op : LedgerOp) (k : StockKey) (totals : List Inventory) : Option Inventory :=
  ((s.inventory.overlay totals).get? k).filter fun v => op.finds v.statusCode

/-- `db.session.commit()`. The locked rows are still as they were read, so the version check passes. -/
def LedgerStore.write (own : List ItemBatch) (totals : List Inventory) (s : LedgerStore) : LedgerStore :=
  { s with
    itembatch := s.itembatch.overlay (own.map ItemBatch.rounded)
    inventory := s.inventory.overlay (totals.map Inventory.rounded) }

/-- A row that is found is locked as it is read; the bodies write every row they find. -/
def LedgerTask.act (n : Nat) (s : LedgerStore) : LedgerTask → LedgerStore × LedgerTask
  | .batches op [] own => (s, .sums op op.stocks own [])
  | .batches op (step :: todo) own =>
    if s.batchLocks.heldByOther n step.batch then (s, .batches op (step :: todo) own)
    else
      match step.body ((s.itembatch.overlay own).get? step.batch) with
      | .error _ => (s.unlock n, .ended false)
      | .ok none => (s, .batches op todo own)
      | .ok (some b) => (s.lockBatch n step.batch, .batches op todo (own ++ [b]))
  | .sums op (k :: todo) own totals => (s, .locking op k (s.itembatch.overlay own) todo own totals)
  | .locking op k seen todo own totals =>
    if (s.foundStock op k totals).isSome ∧ s.stockLocks.heldByOther n k then (s, .locking op k seen todo own totals)
    else
      match op.total seen k (s.foundStock op k totals) with
      | .error _ => (s.unlock n, .ended false)
      | .ok none => (s, .sums op todo own totals)
      | .ok (some v) => (s.lockStock n k, .sums op todo own (totals ++ [v]))
  | .sums _ [] own totals =>
    if Storable own totals then ((s.write own totals).unlock n, .ended true) else (s.unlock n, .ended false)
  | .ended committed => (s, .ended committed)

abbrev LedgerWorld := Sessions LedgerStore LedgerTask

def nextLedger : LedgerWorld → Turn LedgerOp → LedgerWorld := Sessions.next LedgerOp.begin LedgerTask.act

/-- The totals are the sums of the batches. -/
def LedgerStore.Totalled (s : LedgerStore) : Prop :=
  ∀ v ∈ s.inventory.rows, v.reservedQty = sumReserved s.itembatch v.key

instance (s : LedgerStore) : Decidable s.Totalled := by
  unfold LedgerStore.Totalled; infer_instance

/-- Nothing is locked. -/
def LedgerStore.of (db : Database) : LedgerStore :=
  ⟨db.tables.itembatch, db.tables.inventory, fun _ => none, fun _ => none⟩

/-! ## What one turn does -/

section
variable {op : LedgerOp} {step : BatchStep} {n m : Nat} {s s' : LedgerStore} {x : LedgerTask} {k : StockKey}
  {own : List ItemBatch} {b : ItemBatch} {totals : List Inventory} {pending : List StockKey}

/-- The body of a step writes the row it locked, whose stock is one of those that are summed. -/
theorem batchSteps_ok (hs : step ∈ op.batchSteps) {row o : Option ItemBatch} (hrow : ∀ b ∈ row, key b = step.batch)
    (h : step.body row = .ok o) : step.batch.stock ∈ op.stocks ∧ ∀ b ∈ o, key b = step.batch := by
  have hpositive : ∀ {rows : List ReliefPkgItem} {f : ReliefPkgItem → Option ItemBatch → Except Err (Option ItemBatch)},
      Table.WritesOwn ReliefPkgItem.batch f → step ∈ rows.map (fun i => ⟨i.batch, f i⟩) →
      step.batch.stock ∈ affectedInventory (rows.map ReliefPkgItem.batch) ∧ ∀ b ∈ o, key b = step.batch := by
    intro rows f hw hs
    obtain ⟨i, hi, rfl⟩ := List.mem_map.1 hs
    refine ⟨mem_affectedInventory.2 ⟨i.batch, List.mem_map_of_mem hi, rfl⟩, fun b hb => ?_⟩
    exact hw i row b hrow (Option.mem_def.1 hb ▸ h)
  cases op with
  | reserveInventory new old =>
    obtain ⟨k, hk, rfl⟩ := List.mem_map.1 hs
    refine ⟨mem_affectedInventory.2 ⟨k, (List.mem_filter.1 hk).1, rfl⟩, fun b hb => ?_⟩
    exact reserveBatch_writesOwn old (newBatchReservations new) k row b hrow (Option.mem_def.1 hb ▸ h)
  | releaseAllReservations rows => exact hpositive releaseBatch_writesOwn hs
  | commitInventory rows => exact hpositive commitBatch_writesOwn hs
  | cancelReliefPackage rows => exact hpositive cancelBatch_writesOwn hs

/-- The total that is written is the sum that was read, in the row that was found. -/
theorem total_ok {seen : Table ItemBatch} {row o : Option Inventory} (hrow : ∀ v ∈ row, op.finds v.statusCode = true)
    (h : op.total seen k row = .ok o) :
    (row = none ∧ o = none) ∨ ∃ v v', row = some v ∧ o = some v' ∧ v'.key = v.key ∧ v'.statusCode = v.statusCode ∧
      v'.reservedQty = sumReserved seen k := by
  cases row with
  | none =>
    cases op with
    | reserveInventory new old => cases h
    | releaseAllReservations rows => cases h; exact .inl ⟨rfl, rfl⟩
    | commitInventory rows => cases h; exact .inl ⟨rfl, rfl⟩
    | cancelReliefPackage rows => cases h
  | some v =>
    refine .inr ⟨v, ?_⟩
    cases op with
    | reserveInventory new old =>
      have hreserve : reserveTotal seen k (some v) = .ok o := h
      obtain ⟨w, hw, -, -, rfl⟩ := reserveTotal_ok hreserve
      cases hw
      exact ⟨_, rfl, rfl, rfl, rfl, rfl⟩
    | releaseAllReservations rows =>
      have hactive : v.statusCode = .active := of_decide_eq_true (hrow v rfl)
      simp only [LedgerOp.total, releaseTotal, if_pos hactive] at h
      cases h
      exact ⟨_, rfl, rfl, rfl, rfl, rfl⟩
    | commitInventory rows => cases h; exact ⟨_, rfl, rfl, rfl, rfl, rfl⟩
    | cancelReliefPackage rows =>
      simp only [LedgerOp.total, cancelTotal] at h
      split_ifs at h
      cases h
      exact ⟨_, rfl, rfl, rfl, rfl, rfl⟩

/-- **A turn** writes the tables only where it commits, and takes no lock from another session. -/
theorem LedgerTask.act_step (n : Nat) (s : LedgerStore) (x : LedgerTask) :
    ((x.act n s).1.itembatch = s.itembatch ∧ (x.act n s).1.inventory = s.inventory ∧
      ∀ m, m ≠ n → ∀ k, s.batchLocks k = some m → (x.act n s).1.batchLocks k = some m) ∨
    ∃ op own totals, x = .sums op [] own totals ∧ Storable own totals ∧
      (x.act n s).1 = (s.write own totals).unlock n := by
  have hkept : s.itembatch = s.itembatch ∧ s.inventory = s.inventory ∧
      ∀ m, m ≠ n → ∀ k, s.batchLocks k = some m → s.batchLocks k = some m := ⟨rfl, rfl, fun _ _ _ h => h⟩
  have hunlock : (s.unlock n).itembatch = s.itembatch ∧ (s.unlock n).inventory = s.inventory ∧
      ∀ m, m ≠ n → ∀ k, s.batchLocks k = some m → (s.unlock n).batchLocks k = some m :=
    ⟨rfl, rfl, fun _ hm _ h => Locks.release_keeps hm h⟩
  cases x with
  | batches op todo own =>
    cases todo with
    | nil => exact .inl hkept
    | cons step todo =>
      simp only [act]
      split_ifs with hfree
      · exact .inl hkept
      · rw [Bool.not_eq_true] at hfree
        split
        · exact .inl hunlock
        · exact .inl hkept
        · exact .inl ⟨rfl, rfl, fun _ _ _ h => Locks.acquire_keeps hfree h⟩
  | sums op todo own totals =>
    cases todo with
    | nil =>
      simp only [act]
      split_ifs with hs
      · exact .inr ⟨op, own, totals, rfl, hs, rfl⟩
      · exact .inl hunlock
    | cons k todo => exact .inl hkept
  | locking op k seen todo own totals =>
    simp only [act]
    split_ifs
    · exact .inl hkept
    · split
      · exact .inl hunlock
      · exact .inl hkept
      · exact .inl hkept
  | ended committed => exact .inl hkept

/-! ## A transaction alone -/

/-- The two row loops of a service. -/
def LedgerOp.apply (op : LedgerOp) (batches : Table ItemBatch) (inventory : Table Inventory) :
    Except Err (Table ItemBatch × Table Inventory) := do
  let batches ← Table.forRows BatchStep.batch BatchStep.body op.batchSteps batches
  let inventory ← Table.forRows id (op.total batches) op.stocks inventory
  pure (batches, inventory)

def LedgerOp.serve (op : LedgerOp) (t : Tables) : Except Err Tables := do
  let (batches, inventory) ← op.apply t.itembatch t.inventory
  pure { t with itembatch := batches, inventory := inventory }

theorem serve_eq (op : LedgerOp) (t : Tables) : op.serve t = (do
    let batches ← Table.forRows BatchStep.batch BatchStep.body op.batchSteps t.itembatch
    let inventory ← Table.forRows id (op.total batches) op.stocks t.inventory
    pure { t with itembatch := batches, inventory := inventory }) := by
  unfold LedgerOp.serve LedgerOp.apply
  simp only [bind_assoc, pure_bind]

theorem forRows_batchSteps {f : ReliefPkgItem → Option ItemBatch → Except Err (Option ItemBatch)}
    (rows : List ReliefPkgItem) (t : Table ItemBatch) :
    Table.forRows BatchStep.batch BatchStep.body (rows.map fun i => ⟨i.batch, f i⟩) t =
      Table.forRows ReliefPkgItem.batch f rows t :=
  Table.forRows_entries (fun _ => rfl) (fun _ => rfl) rows t

theorem reserveInventory_serve (new : List Alloc) (old : Allocations) (t : Tables) :
    reserveInventory new old t = (LedgerOp.reserveInventory new old).serve t := by
  have hskip : ∀ k, decide ((newBatchReservations new).qty k - old.qty k ≠ 0) = false → ∀ b,
      reserveBatch old (newBatchReservations new) k b = .ok none := fun k hk b => by
    have h0 : (newBatchReservations new).qty k - old.qty k = 0 := by simpa using hk
    exact if_pos h0
  have hloop : Table.forRows BatchStep.batch BatchStep.body (LedgerOp.reserveInventory new old).batchSteps t.itembatch =
      Table.forRows id (reserveBatch old (newBatchReservations new)) (allBatchKeys old (newBatchReservations new))
        t.itembatch :=
    (Table.forRows_entries (fun _ => rfl) (fun _ => rfl) _ _).trans (Table.forRows_filter hskip _ _)
  rw [serve_eq, hloop]
  rfl

theorem releaseAllReservations_serve (rqstId : Nat) (t : Tables) :
    releaseAllReservations rqstId t = (LedgerOp.releaseAllReservations (currentBatchReservations rqstId t)).serve t := by
  rw [serve_eq]
  simp only [LedgerOp.batchSteps, forRows_batchSteps]
  rfl

theorem commitInventory_serve (rqstId : Nat) (t : Tables) : commitInventory rqstId t = (do
    let p ← require (t.firstPkg rqstId) .noPackage
    (LedgerOp.commitInventory (t.positiveItems p.reliefpkgId)).serve t) := by
  simp only [serve_eq, LedgerOp.batchSteps, forRows_batchSteps]
  rfl

theorem cancelReliefPackage_serve (pkgId : Nat) (t : Tables) : cancelReliefPackage pkgId t = (do
    let p ← require (t.reliefpkg.get? pkgId) .noPackage
    check (p.statusCode = .pending ∨ p.statusCode = .dispatched) (.wrongPackageStatus p.statusCode)
    let t' ← (LedgerOp.cancelReliefPackage (t.positiveItems pkgId)).serve t
    pure { t' with
      reliefpkgItem := t.reliefpkgItem.deleteWhere fun i => i.reliefpkgId = pkgId
      reliefpkg := t.reliefpkg.deleteWhere fun p => p.reliefpkgId = pkgId }) := by
  simp only [serve_eq, LedgerOp.batchSteps, forRows_batchSteps, bind_assoc, pure_bind]
  rfl

/-- No other session holds a lock. -/
structure LedgerStore.Free (s : LedgerStore) : Prop where
  batch : ∀ k, s.batchLocks.heldByOther 0 k = false
  stock : ∀ k, s.stockLocks.heldByOther 0 k = false

abbrev AloneTo (s : LedgerStore) (x : LedgerTask) (s' : LedgerStore) (x' : LedgerTask) : Prop :=
  Sessions.Alone LedgerOp.begin LedgerTask.act ⟨s, [x]⟩ ⟨s', [x']⟩

/-- The filter of the locked read makes no difference to what is made of the row. -/
theorem total_filter (op : LedgerOp) (seen : Table ItemBatch) (k : StockKey) (row : Option Inventory) :
    op.total seen k (row.filter fun v => op.finds v.statusCode) = op.total seen k row := by
  cases row with
  | none => rfl
  | some v =>
    by_cases hf : op.finds v.statusCode = true
    · have hfilter : (some v).filter (fun v => op.finds v.statusCode) = some v := Option.filter_some_pos hf
      rw [hfilter]
    · have hfilter : (some v).filter (fun v => op.finds v.statusCode) = none := Option.filter_some_neg (by simpa using hf)
      rw [hfilter]
      cases op with
      | reserveInventory new old =>
        have hactive : v.statusCode ≠ .active := by simpa [LedgerOp.finds] using hf
        exact (if_pos hactive).symm
      | releaseAllReservations rows =>
        have hactive : ¬ v.statusCode = .active := by simpa [LedgerOp.finds] using hf
        exact (if_neg hactive).symm
      | commitInventory rows => exact absurd rfl hf
      | cancelReliefPackage rows => exact absurd rfl hf

theorem alone_batches (op : LedgerOp) (todo : List BatchStep) : ∀ (s : LedgerStore) (own : List ItemBatch), s.Free →
    Sessions.AloneEnds LedgerOp.begin LedgerTask.act s (.batches op todo own)
      (Table.forRows BatchStep.batch BatchStep.body todo (s.itembatch.overlay own))
      (fun b s' x' => ∃ own', x' = .batches op [] own' ∧ s'.itembatch = s.itembatch ∧ s'.inventory = s.inventory ∧
        s'.Free ∧ s.itembatch.overlay own' = b)
      (fun s' x' => x' = .ended false ∧ s'.itembatch = s.itembatch ∧ s'.inventory = s.inventory) := by
  induction todo with
  | nil =>
    intro s own hs
    exact ⟨s, _, .refl _, own, rfl, rfl, rfl, hs, rfl⟩
  | cons step todo ih =>
    intro s own hs
    unfold Table.forRows
    cases hbody : step.body ((s.itembatch.overlay own).get? step.batch) with
    | error e =>
      have hact : LedgerTask.act 0 s (.batches op (step :: todo) own) = (s.unlock 0, .ended false) := by
        simp [LedgerTask.act, hs.batch step.batch, hbody]
      exact ⟨_, _, .head hact (.refl _), rfl, rfl, rfl⟩
    | ok o =>
      cases o with
      | none =>
        have hact : LedgerTask.act 0 s (.batches op (step :: todo) own) = (s, .batches op todo own) := by
          simp [LedgerTask.act, hs.batch step.batch, hbody]
        exact (ih s own hs).head hact
      | some r =>
        have hact : LedgerTask.act 0 s (.batches op (step :: todo) own) =
            (s.lockBatch 0 step.batch, .batches op todo (own ++ [r])) := by
          simp [LedgerTask.act, hs.batch step.batch, hbody]
        have hs' : (s.lockBatch 0 step.batch).Free := ⟨fun k => Locks.heldByOther_acquire (hs.batch k), hs.stock⟩
        have hview : (s.lockBatch 0 step.batch).itembatch.overlay (own ++ [r]) = (s.itembatch.overlay own).set r :=
          Table.overlay_concat _ _ _
        have hrest := ih _ (own ++ [r]) hs'
        rw [hview] at hrest
        exact hrest.head hact

theorem alone_totals (op : LedgerOp) (own : List ItemBatch) (todo : List StockKey) :
    ∀ (s : LedgerStore) (totals : List Inventory), s.Free →
    Sessions.AloneEnds LedgerOp.begin LedgerTask.act s (.sums op todo own totals)
      (Table.forRows id (op.total (s.itembatch.overlay own)) todo (s.inventory.overlay totals))
      (fun v s' x' => ∃ totals', x' = .sums op [] own totals' ∧ s'.itembatch = s.itembatch ∧
        s'.inventory = s.inventory ∧ s.inventory.overlay totals' = v)
      (fun s' x' => x' = .ended false ∧ s'.itembatch = s.itembatch ∧ s'.inventory = s.inventory) := by
  induction todo with
  | nil =>
    intro s totals hs
    exact ⟨s, _, .refl _, totals, rfl, rfl, rfl, rfl⟩
  | cons k todo ih =>
    intro s totals hs
    have hread : LedgerTask.act 0 s (.sums op (k :: todo) own totals) =
        (s, .locking op k (s.itembatch.overlay own) todo own totals) := rfl
    have hfound : op.total (s.itembatch.overlay own) k (s.foundStock op k totals) =
        op.total (s.itembatch.overlay own) k ((s.inventory.overlay totals).get? k) := total_filter op _ k _
    unfold Table.forRows
    cases hbody : op.total (s.itembatch.overlay own) k ((s.inventory.overlay totals).get? (id k)) with
    | error e =>
      have hact : LedgerTask.act 0 s (.locking op k (s.itembatch.overlay own) todo own totals) =
          (s.unlock 0, .ended false) := by
        simp [LedgerTask.act, hs.stock k, hfound.trans hbody]
      exact ⟨_, _, .head hread (.head hact (.refl _)), rfl, rfl, rfl⟩
    | ok o =>
      cases o with
      | none =>
        have hact : LedgerTask.act 0 s (.locking op k (s.itembatch.overlay own) todo own totals) =
            (s, .sums op todo own totals) := by
          simp [LedgerTask.act, hs.stock k, hfound.trans hbody]
        exact ((ih s totals hs).head hact).head hread
      | some r =>
        have hact : LedgerTask.act 0 s (.locking op k (s.itembatch.overlay own) todo own totals) =
            (s.lockStock 0 k, .sums op todo own (totals ++ [r])) := by
          simp [LedgerTask.act, hs.stock k, hfound.trans hbody]
        have hs' : (s.lockStock 0 k).Free := ⟨hs.batch, fun k' => Locks.heldByOther_acquire (hs.stock k')⟩
        have hview : (s.lockStock 0 k).inventory.overlay (totals ++ [r]) = (s.inventory.overlay totals).set r :=
          Table.overlay_concat _ _ _
        have hrest := ih _ (totals ++ [r]) hs'
        rw [hview] at hrest
        exact (hrest.head hact).head hread

/-- **A transaction that runs alone does what the service does**: it comes to its commit with the service's rows, or
it ends where the service fails. -/
theorem ledger_alone (op : LedgerOp) (hs : s.Free) :
    (∀ b v, op.apply s.itembatch s.inventory = .ok (b, v) →
      ∃ s' own totals, AloneTo s op.begin s' (.sums op [] own totals) ∧ s'.itembatch = s.itembatch ∧
        s'.inventory = s.inventory ∧ s.itembatch.overlay own = b ∧ s.inventory.overlay totals = v) ∧
    (∀ e, op.apply s.itembatch s.inventory = .error e →
      ∃ s', AloneTo s op.begin s' (.ended false) ∧ s'.itembatch = s.itembatch ∧ s'.inventory = s.inventory) := by
  have hbatches := alone_batches op op.batchSteps s [] hs
  rw [Table.overlay_nil] at hbatches
  unfold LedgerOp.apply
  cases hb : Table.forRows BatchStep.batch BatchStep.body op.batchSteps s.itembatch with
  | error e =>
    rw [hb] at hbatches
    obtain ⟨s', x', ha, rfl, hstore⟩ := hbatches
    refine ⟨fun b v h => ?_, fun e' h => ⟨s', ha, hstore⟩⟩
    cases h
  | ok b =>
    rw [hb] at hbatches
    obtain ⟨s₁, x₁, ha, own, rfl, hb₁, hi₁, hfree, rfl⟩ := hbatches
    have hturn : LedgerTask.act 0 s₁ (.batches op [] own) = (s₁, .sums op op.stocks own []) := rfl
    have htotals := ((alone_totals op own op.stocks s₁ [] hfree).head hturn).trans ha
    rw [hb₁, hi₁, Table.overlay_nil] at htotals
    cases hv : Table.forRows id (op.total (s.itembatch.overlay own)) op.stocks s.inventory with
    | error e =>
      rw [hv] at htotals
      obtain ⟨s', x', ha', rfl, hstore⟩ := htotals
      exact ⟨fun b v h => by simp [bind, Except.bind, hv] at h, fun e' _ => ⟨s', ha', hstore⟩⟩
    | ok v =>
      rw [hv] at htotals
      obtain ⟨s', x', ha', totals, rfl, hb', hi', hview⟩ := htotals
      refine ⟨fun b v' h => ?_, fun e h => by simp [bind, Except.bind, pure, Except.pure, hv] at h⟩
      simp only [bind, Except.bind, pure, Except.pure, hv, Except.ok.injEq, Prod.mk.injEq] at h
      obtain ⟨rfl, rfl⟩ := h
      exact ⟨s', own, totals, ha', hb', hi', rfl, hview⟩

/-! ## What a transaction relies on -/

/-- The stocks whose SUM it has read. -/
def LedgerTask.readStocks : LedgerTask → List StockKey
  | .sums _ _ _ totals => totals.map Inventory.key
  | .locking _ k _ _ _ totals => k :: totals.map Inventory.key
  | .batches .. | .ended _ => []

/-- A transaction that has not ended, with the stocks it has still to write: the batches it wrote are locked by it,
the totals are the sums over what it sees, and every stock it changed gets a total or has no row to be found. -/
structure LedgerStore.Open (s : LedgerStore) (n : Nat) (op : LedgerOp) (pending : List StockKey) (own : List ItemBatch)
    (totals : List Inventory) : Prop where
  locked : ∀ b ∈ own, s.batchLocks (key b) = some n
  right : ∀ v ∈ totals, v.reservedQty = sumReserved (s.itembatch.overlay own) v.key
  status : ∀ v ∈ totals, ∀ w ∈ s.inventory.get? (key v), w.statusCode = v.statusCode
  covered : ∀ b ∈ own, b.key.stock ∈ pending ∨ (∃ v ∈ totals, v.key = b.key.stock) ∨
    ∀ w ∈ s.inventory.get? b.key.stock, op.finds w.statusCode = false

def LedgerTask.Holds (n : Nat) (s : LedgerStore) : LedgerTask → Prop
  | .batches op todo own => (∀ x ∈ todo, x ∈ op.batchSteps) ∧ s.Open n op op.stocks own []
  | .sums op todo own totals => s.Open n op todo own totals
  | .locking op k seen todo own totals =>
    sumReserved seen k = sumReserved (s.itembatch.overlay own) k ∧ s.Open n op (k :: todo) own totals
  | .ended _ => True

theorem LedgerOp.begin_holds (op : LedgerOp) (n : Nat) (s : LedgerStore) : op.begin.Holds n s :=
  ⟨fun _ hx => hx, ⟨by simp, by simp, by simp, by simp⟩⟩

/-- The status of a stock's row, with the totals of a transaction written over it. -/
theorem LedgerStore.Open.status_overlay (h : s.Open n op pending own totals) (k : StockKey) :
    ((s.inventory.overlay totals).get? k).map Inventory.statusCode = (s.inventory.get? k).map Inventory.statusCode :=
  Table.map_get?_overlay h.status k

theorem foundStock_finds {v : Inventory} (hv : v ∈ s.foundStock op k totals) : op.finds v.statusCode = true :=
  (Option.filter_eq_some_iff.1 (Option.mem_def.1 hv)).2

/-- A stock that is not found has no row, or one of another status. -/
theorem LedgerStore.Open.not_found (h : s.Open n op pending own totals) (hnone : s.foundStock op k totals = none) :
    ∀ w ∈ s.inventory.get? k, op.finds w.statusCode = false := by
  intro w hw
  have hst := h.status_overlay k
  rw [Option.mem_def.1 hw, Option.map_some] at hst
  obtain ⟨v, hv, hvw⟩ := Option.map_eq_some_iff.1 hst
  have := Option.filter_eq_none_iff.1 hnone v hv
  rw [← hvw]
  exact Bool.not_eq_true _ ▸ this

/-- One more batch row, of a stock that is summed later. -/
theorem LedgerStore.Open.lockBatch (h : s.Open n op pending own []) (hfree : s.batchLocks.heldByOther n (key b) = false)
    (hstock : b.key.stock ∈ pending) : (s.lockBatch n (key b)).Open n op pending (own ++ [b]) [] := by
  refine ⟨fun c hc => ?_, by simp, by simp, fun c hc => ?_⟩
  · rcases List.mem_append.1 hc with hc | hc
    · exact Locks.acquire_keeps hfree (h.locked c hc)
    · rw [List.mem_singleton.1 hc]
      exact Locks.acquire_self _ _ _
  · rcases List.mem_append.1 hc with hc | hc
    · exact h.covered c hc
    · rw [List.mem_singleton.1 hc]
      exact .inl hstock

/-- The total of the stock that was next. -/
theorem LedgerStore.Open.lockStock (h : s.Open n op (k :: pending) own totals) {v w : Inventory}
    (hw : w ∈ (s.inventory.overlay totals).get? k) (hk : v.key = k) (hst : v.statusCode = w.statusCode)
    (hsum : v.reservedQty = sumReserved (s.itembatch.overlay own) k) :
    (s.lockStock n k).Open n op pending own (totals ++ [v]) := by
  refine ⟨h.locked, fun x hx => ?_, fun x hx => ?_, fun b hb => ?_⟩
  · rcases List.mem_append.1 hx with hx | hx
    · exact h.right x hx
    · rw [List.mem_singleton.1 hx, hk]
      exact hsum
  · rcases List.mem_append.1 hx with hx | hx
    · exact h.status x hx
    · rw [List.mem_singleton.1 hx]
      intro y (hy : y ∈ s.inventory.get? (key v))
      have hkey : key v = k := hk
      have hover := h.status_overlay k
      rw [Option.mem_def.1 hw, ← hkey, Option.mem_def.1 hy, Option.map_some, Option.map_some, Option.some.injEq] at hover
      rw [hst, hover]
  · rcases h.covered b hb with hp | ⟨x, hx, hxk⟩ | hnone
    · rcases List.mem_cons.1 hp with hp | hp
      · exact .inr (.inl ⟨v, by simp, hk.trans hp.symm⟩)
      · exact .inl hp
    · exact .inr (.inl ⟨x, List.mem_append_left _ hx, hxk⟩)
    · exact .inr (.inr hnone)

/-- A stock without a row to be found is passed over. -/
theorem LedgerStore.Open.passOver (h : s.Open n op (k :: pending) own totals)
    (hnone : s.foundStock op k totals = none) : s.Open n op pending own totals := by
  refine ⟨h.locked, h.right, h.status, fun b hb => ?_⟩
  rcases h.covered b hb with hp | hrest
  · rcases List.mem_cons.1 hp with hp | hp
    · exact .inr (.inr (hp ▸ h.not_found hnone))
    · exact .inl hp
  · exact .inr hrest

/-- A turn of the session itself. -/
theorem LedgerTask.Holds.act_holds (h : x.Holds n s) : (x.act n s).2.Holds n (x.act n s).1 := by
  cases x with
  | batches op todo own =>
    obtain ⟨htodo, hopen⟩ := h
    cases todo with
    | nil => exact hopen
    | cons step todo =>
      have hlater : ∀ x ∈ todo, x ∈ op.batchSteps := fun x hx => htodo x (List.mem_cons_of_mem step hx)
      simp only [LedgerTask.act]
      split_ifs with hfree
      · exact ⟨htodo, hopen⟩
      · rw [Bool.not_eq_true] at hfree
        split
        · trivial
        · exact ⟨hlater, hopen⟩
        · rename_i b hb
          have hstep := batchSteps_ok (htodo step List.mem_cons_self) (fun _ hr => Table.key_of_get? hr) hb
          have hkey : key b = step.batch := hstep.2 b rfl
          have hstock : b.key.stock ∈ op.stocks := by
            have : b.key = step.batch := hkey
            rw [this]
            exact hstep.1
          rw [← hkey] at hfree ⊢
          exact ⟨hlater, hopen.lockBatch hfree hstock⟩
  | sums op todo own totals =>
    cases todo with
    | nil =>
      simp only [LedgerTask.act]
      split_ifs <;> trivial
    | cons k todo => exact ⟨rfl, h⟩
  | locking op k seen todo own totals =>
    obtain ⟨hseen, hopen⟩ := h
    simp only [LedgerTask.act]
    split_ifs
    · exact ⟨hseen, hopen⟩
    · split
      · trivial
      · rename_i hnone
        rcases total_ok (fun _ hv => foundStock_finds hv) hnone with ⟨hrow, -⟩ | ⟨_, _, -, hsome, -⟩
        · exact hopen.passOver hrow
        · cases hsome
      · rename_i v hv
        rcases total_ok (fun _ hv => foundStock_finds hv) hv with ⟨-, hnone⟩ | ⟨w, v', hw, hv', hkey, hst, hsum⟩
        · cases hnone
        · cases hv'
          have hrow : (s.inventory.overlay totals).get? k = some w := (Option.filter_eq_some_iff.1 hw).1
          have hwk : w.key = k := Table.key_of_get? hrow
          exact hopen.lockStock hrow (hkey.trans hwk) hst (hsum.trans hseen)
  | ended committed => trivial

/-- What another session's turn leaves to a transaction: its locks, the rows it has locked, the sums it has read and
the statuses. -/
structure LedgerStore.Spares (s s' : LedgerStore) (n : Nat) (read : List StockKey) : Prop where
  locks : ∀ k, s.batchLocks k = some n → s'.batchLocks k = some n
  rows : ∀ k, s.batchLocks k = some n → s'.itembatch.get? k = s.itembatch.get? k
  sums : ∀ k ∈ read, sumReserved s'.itembatch k = sumReserved s.itembatch k
  status : ∀ k, (s'.inventory.get? k).map Inventory.statusCode = (s.inventory.get? k).map Inventory.statusCode

/-- What it sees of a sum it has read stays. -/
theorem LedgerStore.Open.sum_eq (h : s.Open n op pending own totals) {read : List StockKey} (hs : s.Spares s' n read)
    (hk : k ∈ read) : sumReserved (s'.itembatch.overlay own) k = sumReserved (s.itembatch.overlay own) k := by
  have hown : sumReserved (s'.itembatch.overlay own) k - sumReserved s'.itembatch k =
      sumReserved (s.itembatch.overlay own) k - sumReserved s.itembatch k :=
    Table.sum_overlay_sub fun b hb => hs.rows (key b) (h.locked b hb)
  have hother := hs.sums k hk
  linarith

theorem LedgerStore.Open.spared (h : s.Open n op pending own totals) {read : List StockKey} (hs : s.Spares s' n read)
    (hread : ∀ v ∈ totals, v.key ∈ read) : s'.Open n op pending own totals := by
  have hstatus : ∀ {k : StockKey} {w : Inventory}, w ∈ s'.inventory.get? k →
      ∃ w₀ ∈ s.inventory.get? k, w₀.statusCode = w.statusCode := fun {k w} hw => by
    have hst := hs.status k
    rw [Option.mem_def.1 hw, Option.map_some] at hst
    exact Option.map_eq_some_iff.1 hst.symm
  refine ⟨fun b hb => hs.locks _ (h.locked b hb), fun v hv => ?_, fun v hv w hw => ?_, fun b hb => ?_⟩
  · rw [h.right v hv, h.sum_eq hs (hread v hv)]
  · obtain ⟨w₀, hw₀, he⟩ := hstatus hw
    rw [← he]
    exact h.status v hv w₀ hw₀
  · rcases h.covered b hb with hp | ht | hnone
    · exact .inl hp
    · exact .inr (.inl ht)
    · refine .inr (.inr fun w hw => ?_)
      obtain ⟨w₀, hw₀, he⟩ := hstatus hw
      rw [← he]
      exact hnone w₀ hw₀

/-- **What is left to a transaction keeps what it relies on.** -/
theorem LedgerTask.Holds.spared (h : x.Holds n s) (hs : s.Spares s' n x.readStocks) : x.Holds n s' := by
  cases x with
  | batches op todo own => exact ⟨h.1, h.2.spared hs (by simp)⟩
  | sums op todo own totals => exact LedgerStore.Open.spared h hs fun v hv => List.mem_map_of_mem hv
  | locking op k seen todo own totals =>
    obtain ⟨hseen, hopen⟩ := h
    refine ⟨?_, hopen.spared hs fun v hv => List.mem_cons_of_mem k (List.mem_map_of_mem hv)⟩
    rw [hseen, hopen.sum_eq hs List.mem_cons_self]
  | ended committed => trivial

/-! ## Commits -/

theorem sumReserved_write (s : LedgerStore) (own : List ItemBatch) (totals : List Inventory) (k : StockKey) :
    sumReserved (s.write own totals).itembatch k = sumReserved (s.itembatch.overlay own) k :=
  Table.sum_overlay_map key_rounded_itembatch (fun _ => rfl) fun b => numeric_atScale 4 b.reservedQty

/-- The rows the transaction did not write are not those another transaction has locked. -/
theorem LedgerStore.Open.write_spares (h : s.Open n op [] own totals) (hm : m ≠ n) {read : List StockKey}
    (hread : ∀ k ∈ read, sumReserved (s.itembatch.overlay own) k = sumReserved s.itembatch k) :
    s.Spares ((s.write own totals).unlock n) m read := by
  refine ⟨fun k hk => Locks.release_keeps hm hk, fun k hk => ?_, fun k hk => ?_, fun k => ?_⟩
  · refine Table.get?_overlay_of_ne fun r hr hrk => ?_
    obtain ⟨b, hb, rfl⟩ := List.mem_map.1 hr
    have hlock := h.locked b hb
    rw [← key_rounded_itembatch, hrk, hk] at hlock
    exact hm (Option.some.inj hlock)
  · exact (sumReserved_write s own totals k).trans (hread k hk)
  · refine Table.map_get?_overlay (fun r hr w hw => ?_) k
    obtain ⟨v, hv, rfl⟩ := List.mem_map.1 hr
    exact h.status v hv w hw

/-- **A commit leaves the totals on the sums**: those it wrote hold the sums it saw, and no other sum changed. -/
theorem LedgerStore.Open.write_totalled (h : s.Open n op [] own totals) (ht : s.Totalled)
    (hscale : ∀ v ∈ totals, AtScale 2 (sumReserved (s.itembatch.overlay own) v.key))
    (hfound : ∀ v ∈ s.inventory.rows, op.finds v.statusCode = false →
      sumReserved (s.itembatch.overlay own) v.key = sumReserved s.itembatch v.key) :
    (s.write own totals).Totalled := by
  intro v hv
  have hg : (s.inventory.overlay (totals.map Inventory.rounded)).get? (key v) = some v := Table.get?_key hv
  rw [sumReserved_write]
  by_cases hw : ∃ r ∈ totals.map Inventory.rounded, key r = key v
  · have hkeys : key v ∈ s.inventory.keys := by
      rw [← Table.keys_overlay s.inventory (totals.map Inventory.rounded)]
      exact List.mem_map_of_mem hv
    have hthere : s.inventory.get? (key v) ≠ none := fun hnone => Table.get?_eq_none.1 hnone hkeys
    obtain ⟨r, hr, hkr, hgr⟩ := Table.get?_overlay hw hthere
    obtain ⟨w, hw, rfl⟩ := List.mem_map.1 hr
    have hvw : v = w.rounded := Option.some.inj (hg.symm.trans hgr)
    rw [hvw]
    calc numeric 2 w.reservedQty = numeric 2 (sumReserved (s.itembatch.overlay own) w.key) := by rw [h.right w hw]
      _ = sumReserved (s.itembatch.overlay own) w.key := hscale w hw
  · rw [Table.get?_overlay_of_ne fun r hr hrk => hw ⟨r, hr, hrk⟩] at hg
    have hrow : v ∈ s.inventory.rows := Table.mem_of_get? hg
    rw [ht v hrow]
    by_cases hb : ∃ b ∈ own, b.key.stock = v.key
    · obtain ⟨b, hb, hbk⟩ := hb
      rcases h.covered b hb with hp | ⟨w, hwt, hwk⟩ | hnone
      · exact absurd hp List.not_mem_nil
      · exact absurd ⟨w.rounded, List.mem_map_of_mem hwt, hwk.trans hbk⟩ hw
      · rw [hbk] at hnone
        exact (hfound v hrow (hnone v hg)).symm
    · refine (Table.sum_overlay_other (q := fun k => decide (BatchKey.stock k = v.key)) fun b hb' => ?_).symm
      exact decide_eq_false fun hbk => hb ⟨b, hb', hbk⟩

end

/-! ## Transactions that do not cross -/

/-- What a commit asks for: no transaction that is still open has read a SUM that it changes; the sums it writes have
at most two decimals; and the stocks its locked read passes over keep their sums. -/
structure LedgerStore.Uncrossed (s : LedgerStore) (others : List LedgerTask) (op : LedgerOp) (own : List ItemBatch)
    (totals : List Inventory) : Prop where
  unread : ∀ y ∈ others, ∀ k ∈ y.readStocks, sumReserved (s.itembatch.overlay own) k = sumReserved s.itembatch k
  scale : ∀ v ∈ totals, AtScale 2 (sumReserved (s.itembatch.overlay own) v.key)
  found : ∀ v ∈ s.inventory.rows, op.finds v.statusCode = false →
    sumReserved (s.itembatch.overlay own) v.key = sumReserved s.itembatch v.key

instance LedgerStore.decidableUncrossed (s : LedgerStore) (others : List LedgerTask) (op : LedgerOp) (own : List ItemBatch)
    (totals : List Inventory) : Decidable (s.Uncrossed others op own totals) :=
  decidable_of_iff
    ((∀ y ∈ others, ∀ k ∈ y.readStocks, sumReserved (s.itembatch.overlay own) k = sumReserved s.itembatch k) ∧
      (∀ v ∈ totals, AtScale 2 (sumReserved (s.itembatch.overlay own) v.key)) ∧
      ∀ v ∈ s.inventory.rows, op.finds v.statusCode = false →
        sumReserved (s.itembatch.overlay own) v.key = sumReserved s.itembatch v.key)
    ⟨fun h => ⟨h.1, h.2.1, h.2.2⟩, fun h => ⟨h.unread, h.scale, h.found⟩⟩

/-- A transaction that commits next is not crossed by the others. -/
def LedgerTask.Uncrossed (s : LedgerStore) (others : List LedgerTask) : LedgerTask → Prop
  | .sums op [] own totals => Storable own totals → s.Uncrossed others op own totals
  | _ => True

instance LedgerTask.decidableUncrossed (s : LedgerStore) (others : List LedgerTask) :
    ∀ x : LedgerTask, Decidable (x.Uncrossed s others)
  | .sums op [] own totals => inferInstanceAs (Decidable (Storable own totals → s.Uncrossed others op own totals))
  | .sums _ (_ :: _) _ _ | .batches .. | .locking .. | .ended _ => .isTrue trivial

def UncrossedTurn (w : LedgerWorld) : Turn LedgerOp → Prop
  | .start _ => True
  | .turn n => ∀ x ∈ w.sessions[n]?, x.Uncrossed w.store (w.sessions.eraseIdx n)

instance UncrossedTurn.decidable (w : LedgerWorld) : ∀ t, Decidable (UncrossedTurn w t)
  | .start _ => .isTrue trivial
  | .turn n => inferInstanceAs (Decidable (∀ x ∈ w.sessions[n]?, x.Uncrossed w.store (w.sessions.eraseIdx n)))

def LedgerValid : LedgerWorld → Prop := Sessions.Valid LedgerStore.Totalled LedgerTask.Holds

theorem nextLedger_valid (w : LedgerWorld) (t : Turn LedgerOp) (hw : LedgerValid w) (ht : UncrossedTurn w t) :
    LedgerValid (nextLedger w t) := by
  refine Sessions.rule (P := UncrossedTurn) (fun w op _ _ => op.begin_holds _ _) ?_ ?_ w t hw ht
  · intro w n x ht hv hx
    have hholds : x.Holds n w.store := hv.2 n x hx
    refine ⟨?_, hholds.act_holds⟩
    rcases x.act_step n w.store with ⟨hb, hi, -⟩ | ⟨op, own, totals, rfl, hs, he⟩
    · intro v hv'
      rw [hi] at hv'
      rw [hb]
      exact hv.1 v hv'
    · obtain ⟨-, hscale, hfound⟩ := ht _ hx hs
      rw [he]
      exact LedgerStore.Open.write_totalled hholds hv.1 hscale hfound
  · intro w n x m y ht hv hx hy hm
    have hholds : y.Holds m w.store := hv.2 m y hy
    refine hholds.spared ?_
    rcases x.act_step n w.store with ⟨hb, hi, hl⟩ | ⟨op, own, totals, rfl, hs, he⟩
    · exact ⟨hl m hm, fun k _ => by rw [hb], fun k _ => by rw [hb], fun k => by rw [hi]⟩
    · have hown : w.store.Open n op [] own totals := hv.2 n _ hx
      have hother : y ∈ w.sessions.eraseIdx n := List.mem_eraseIdx_iff_getElem?.2 ⟨m, hm, hy⟩
      rw [he]
      exact hown.write_spares hm ((ht _ hx hs).unread y hother)

/-- **No update of the ledger is lost** among transactions that do not cross: in every state that is reached, the
totals are the sums of the batches, if they were when nothing was running. -/
theorem ledger_updates_kept (db : Database) (turns : List (Turn LedgerOp)) (h₀ : (LedgerStore.of db).Totalled)
    (h : Along nextLedger UncrossedTurn ⟨.of db, []⟩ turns) :
    (run nextLedger ⟨.of db, []⟩ turns).store.Totalled := by
  have hinit : LedgerValid ⟨.of db, []⟩ := ⟨h₀, by simp⟩
  exact (Along.invariant nextLedger_valid hinit h).1

namespace Site

/-- The item is in two batches of five units. -/
def twoBatches : Database :=
  ⟨{ tables with
      itembatch := ⟨[{ batch with usableQty := 5 }, { batch with batchId := 2, usableQty := 5 }], by decide⟩ },
    by decide +kernel⟩

/-- A package takes three units of the first batch, another one takes a unit of the second. -/
def twoReservations : List (Turn LedgerOp) :=
  [.start (.reserveInventory [⟨1, 1, 1, 3⟩] .empty), .start (.reserveInventory [⟨1, 2, 1, 1⟩] .empty)]

/-- Both write their batch before either has read the SUM. -/
def sumsInOrder : List (Turn LedgerOp) := twoReservations ++ [0, 1, 0, 1, 0, 0, 0, 1, 1, 1].map .turn

/-- The second reads the SUM before the first commits, and writes it after. -/
def sumsCrossed : List (Turn LedgerOp) := twoReservations ++ [0, 1, 0, 1, 0, 1, 0, 0, 1, 1].map .turn

end Site

theorem ledger_updates_kept_site : (run nextLedger ⟨.of Site.twoBatches, []⟩ Site.sumsInOrder).store.Totalled :=
  ledger_updates_kept Site.twoBatches Site.sumsInOrder (by decide +kernel) (by decide +kernel)

/-- Both commit, and the total misses the three units of the first. -/
theorem ledger_updates_lost :
    (LedgerStore.of Site.twoBatches).Totalled ∧
    (run nextLedger ⟨.of Site.twoBatches, []⟩ Site.sumsCrossed).sessions.map LedgerTask.committed = [true, true] ∧
    (run nextLedger ⟨.of Site.twoBatches, []⟩ Site.sumsCrossed).store.inventory.rows.map (·.reservedQty) = [1] ∧
    sumReserved (run nextLedger ⟨.of Site.twoBatches, []⟩ Site.sumsCrossed).store.itembatch ⟨1, 1⟩ = 4 ∧
    ¬ (run nextLedger ⟨.of Site.twoBatches, []⟩ Site.sumsCrossed).store.Totalled := by
  decide +kernel

end Dmis
