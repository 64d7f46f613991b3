import Dmis.Ledger

/-!
# Cancelling a preparation, cancelling a package

`cancel_preparation` (`packaging.py:2063-2094`) deletes the rows of the package and then asks
`release_all_reservations` to release what the rows say (`inventory_reservation_service.py:203-290`):
there is nothing left to say anything, and the reservation of every row stays on its batch
(`preparation_cancelled`).

`cancel_relief_package` (`:381-603`) treats a dispatched package like a pending one. It takes the
quantities out of `reserved_qty` once more, where they no longer are, does not give the usable stock back,
and does not look at `received_dtime` (`dispatched_cancelled`). When the batch reserves less than the
package took, the post is refused; otherwise it is the reservation of another package that goes.
-/

namespace Dmis

open Relational Keyed

/-! ## cancel_preparation -/

section
variable {t t' : Tables} {rqstId pkgId : Nat} {p : ReliefPkg} {k : BatchKey}

/-- The tables without the rows of the package. -/
def Tables.emptied (t : Tables) (pkgId : Nat) : Tables :=
  { t with reliefpkgItem := t.reliefpkgItem.deleteWhere fun i => i.reliefpkgId = pkgId }

theorem pkgItems_emptied (t : Tables) (pkgId : Nat) : (t.emptied pkgId).pkgItems pkgId = [] := by
  refine List.filter_eq_nil_iff.2 fun i hi => ?_
  have := (List.mem_filter.1 hi).2
  simpa using this

theorem pkgItems_emptied_of_ne {x : Nat} (hne : x ≠ pkgId) : (t.emptied pkgId).pkgItems x = t.pkgItems x := by
  simp only [Tables.pkgItems, Tables.emptied, Table.select, Table.deleteWhere, List.filter_filter]
  refine List.filter_congr fun i _ => ?_
  by_cases hi : i.reliefpkgId = x <;> simp [hi, hne]

theorem pkgQty_emptied_self (t : Tables) (pkgId : Nat) (k : BatchKey) : (t.emptied pkgId).pkgQty pkgId k = 0 := by
  by_contra h
  obtain ⟨i, hi, -⟩ := exists_of_pkgQty_ne_zero h
  rw [pkgItems_emptied] at hi
  cases hi

theorem pkgQty_emptied_of_ne {x : Nat} (hne : x ≠ pkgId) (k : BatchKey) :
    (t.emptied pkgId).pkgQty x k = t.pkgQty x k := by
  simp only [Tables.pkgQty, Tables.emptied, get?_deleteWhere_of_ne hne]

/-- The package no longer pledges anything. -/
theorem pledged_emptied (hp : p ∈ t.reliefpkg.rows) (hs : p.statusCode ≠ .dispatched) (k : BatchKey) :
    (t.emptied p.reliefpkgId).pledged k = t.pledged k - t.pkgQty p.reliefpkgId k := by
  have hsum : (t.emptied p.reliefpkgId).pledged k = t.pledged k +
      ((t.emptied p.reliefpkgId).pkgQty p.reliefpkgId k - t.pkgQty p.reliefpkgId k) :=
    Table.sum_of_single (t := t.reliefpkg) hp (by simpa using hs) fun x _ hx => pkgQty_emptied_of_ne hx k
  rw [hsum, pkgQty_emptied_self]
  ring

theorem emptied_consistent (hc : t.Consistent) (pkgId : Nat) :
    (t.emptied pkgId).rounded = t.emptied pkgId ∧ (t.emptied pkgId).Consistent := by
  have hsub : ∀ i ∈ (t.emptied pkgId).reliefpkgItem.rows, i ∈ t.reliefpkgItem.rows := fun i hi =>
    (List.mem_filter.1 hi).1
  have hst : (t.emptied pkgId).rounded = t.emptied pkgId := by
    have hrows : ((t.emptied pkgId).reliefpkgItem.mapRows ReliefPkgItem.rounded key_rounded_pkgItem) =
        (t.emptied pkgId).reliefpkgItem :=
      Table.ext ((List.map_congr_left fun i hi => rounded_row hc (hsub i hi)).trans (List.map_id _))
    calc (t.emptied pkgId).rounded
        = { t.rounded with
            reliefpkgItem := (t.emptied pkgId).reliefpkgItem.mapRows ReliefPkgItem.rounded key_rounded_pkgItem } := rfl
      _ = t.emptied pkgId := by rw [hrows, hc.stored]; rfl
  exact ⟨hst, ⟨hst, hc.pkItembatch, hc.batch, hc.inventory, hc.rqst, hc.rqstItem, hc.pkg,
    fun i hi => hc.pkgItem i (hsub i hi), hc.fkRqstItem, hc.fkPkg, fun i hi => hc.fkPkgItem i (hsub i hi),
    fun i hi => hc.fkBatch i (hsub i hi)⟩⟩

/-- `cancel_preparation` of a request with a package: the rows go, nothing else happens. -/
theorem cancelPreparation_eq (hp : t.firstPkg rqstId = some p) :
    cancelPreparation rqstId t = .ok (t.emptied p.reliefpkgId) := by
  have hfirst : (t.emptied p.reliefpkgId).firstPkg rqstId = some p := hp
  simp only [cancelPreparation, hp]
  refine releaseAllReservations_of_empty (t := t.emptied p.reliefpkgId) fun q hq => ?_
  cases Option.mem_unique hq hfirst
  exact pkgItems_emptied t _

theorem step_cancelPreparation {db : Database} (hp : db.tables.firstPkg rqstId = some p) :
    Commits db (.cancelPreparation rqstId) ∧
    (step db (.cancelPreparation rqstId)).tables = db.tables.emptied p.reliefpkgId := by
  obtain ⟨hst, hc⟩ := emptied_consistent db.consistent p.reliefpkgId
  have hroute : (Op.cancelPreparation rqstId).route db.tables = .ok (db.tables.emptied p.reliefpkgId) :=
    cancelPreparation_eq hp
  have hcommit : Commits db (.cancelPreparation rqstId) :=
    ⟨⟨_, hc⟩, exec_ok.2 ⟨_, hroute, hst.symm ▸ hc, hst.symm⟩⟩
  refine ⟨hcommit, ?_⟩
  obtain ⟨t', ht', -, he⟩ := step_of_commits hcommit
  rw [hroute] at ht'
  cases ht'
  rw [he, hst]

/-- What a cancelled preparation should leave behind. -/
structure Released (t t' : Tables) (pkgId : Nat) : Prop where
  batch : ∀ b ∈ t.itembatch.rows,
    (t'.itembatch.get? b.key).map ItemBatch.reservedQty = some (b.reservedQty - t.pkgQty pkgId b.key)
  total : ∀ v ∈ t'.inventory.rows, (∃ k, 0 < t.pkgQty pkgId k ∧ k.stock = v.key) →
    v.reservedQty = batchSum t'.itembatch v.key ItemBatch.reservedQty
  emptied : t'.pkgItems pkgId = []
  others : ∀ x, x ≠ pkgId → t'.pkgItems x = t.pkgItems x
  ledger : ∀ b ∈ t'.itembatch.rows, b.reservedQty = t'.pledged b.key

theorem pkgQty_eq_zero (h : ∀ i ∈ t.pkgItems pkgId, i.itemQty = 0) (k : BatchKey) : t.pkgQty pkgId k = 0 := by
  by_contra hk
  obtain ⟨i, hi, -, hq⟩ := exists_of_pkgQty_ne_zero hk
  exact hk (hq ▸ h i hi)

/-- What the discarded rows had reserved stays reserved for nobody. -/
theorem reservation_leaks (hp : p ∈ t.reliefpkg.rows) (hs : p.statusCode ≠ .dispatched)
    (hl : ∀ b ∈ t.itembatch.rows, b.reservedQty = t.pledged b.key) :
    ∀ b ∈ t.itembatch.rows,
      b.reservedQty = (t.emptied p.reliefpkgId).pledged b.key + t.pkgQty p.reliefpkgId b.key := by
  intro b hb
  rw [hl b hb, pledged_emptied hp hs]
  ring

theorem released_emptied (hc : t.Consistent) (hp : p ∈ t.reliefpkg.rows) (hs : p.statusCode ≠ .dispatched)
    (hl : ∀ b ∈ t.itembatch.rows, b.reservedQty = t.pledged b.key) :
    Released t (t.emptied p.reliefpkgId) p.reliefpkgId ↔ ∀ i ∈ t.pkgItems p.reliefpkgId, i.itemQty = 0 := by
  constructor
  · intro h i hi
    -- a row stands on a batch, and that batch is as it was
    obtain ⟨b, hb, hk⟩ := List.mem_map.1 (hc.fkBatch i (mem_pkgItems.1 hi).1)
    have hget : t.itembatch.get? b.key = some b := Table.get?_key hb
    have hsame : (t.itembatch.get? b.key).map ItemBatch.reservedQty =
      some (b.reservedQty - t.pkgQty p.reliefpkgId b.key) := h.batch b hb
    rw [hget, Option.map_some, Option.some.injEq, show b.key = i.batch from hk, pkgQty_of_mem hi] at hsame
    linarith
  · intro h
    have hz := pkgQty_eq_zero h
    refine ⟨fun b hb => ?_, fun v _ hk => ?_, pkgItems_emptied _ _, fun x hx => pkgItems_emptied_of_ne hx,
      fun b hb => ?_⟩
    · have hget : (t.emptied p.reliefpkgId).itembatch.get? b.key = some b := Table.get?_key hb
      rw [hget, hz, sub_zero, Option.map_some]
    · obtain ⟨k, hpos, -⟩ := hk
      rw [hz] at hpos
      exact absurd hpos (lt_irrefl _)
    · rw [reservation_leaks hp hs hl b hb, hz, add_zero]

end

/-- **A cancelled preparation releases exactly when there is nothing to release**: the rows are deleted
before their reservations are looked up. -/
theorem preparation_cancelled (db : Database) (rqstId : Nat) (p : ReliefPkg)
    (hp : db.tables.firstPkg rqstId = some p) (hs : p.statusCode = .pending)
    (hl : ∀ b ∈ db.tables.itembatch.rows, b.reservedQty = db.tables.pledged b.key) :
    Commits db (.cancelPreparation rqstId) ∧
    (Released db.tables (step db (.cancelPreparation rqstId)).tables p.reliefpkgId ↔
      ∀ i ∈ db.tables.pkgItems p.reliefpkgId, i.itemQty = 0) := by
  obtain ⟨hcommit, he⟩ := step_cancelPreparation hp
  refine ⟨hcommit, ?_⟩
  rw [he]
  exact released_emptied db.consistent (mem_of_firstPkg hp).1 (by rw [hs]; decide) hl

/-- A draft that takes nothing. -/
def Site.emptyDraft : Database := step db (.preparePackage officer 1 .saveDraft (post 3 .absent 0))

theorem preparation_cancelled_site :
    Released Site.emptyDraft.tables (step Site.emptyDraft (.cancelPreparation 1)).tables 1 :=
  (preparation_cancelled Site.emptyDraft 1 (newPkg Site.officer Site.rqst 1) (by decide +kernel) rfl
    (by decide +kernel)).2.2 (by decide +kernel)

/-- The two units of the draft stay reserved. -/
theorem preparation_cancelled_leaks :
    (∀ b ∈ Site.drafted.tables.itembatch.rows, b.reservedQty = Site.drafted.tables.pledged b.key) ∧
    Commits Site.drafted (.cancelPreparation 1) ∧
    ¬ Released Site.drafted.tables (step Site.drafted (.cancelPreparation 1)).tables 1 := by
  refine ⟨by decide +kernel, by decide +kernel, fun h => ?_⟩
  have hb := h.batch { Site.batch with reservedQty := 2 } (by decide +kernel)
  exact absurd hb (by decide +kernel)

/-! ## cancel_relief_package -/

section
variable {t t' : Tables} {pkgId : Nat} {p : ReliefPkg} {s : StockKey}

/-- What the batches of a warehouse reserve once the package's rows are subtracted. -/
def Tables.leftReserved (t : Tables) (pkgId : Nat) (s : StockKey) : ℚ :=
  batchSum t.itembatch s fun b => b.reservedQty - t.pkgQty pkgId b.key

/-- When `cancel_package` refuses a package: the user is no Logistics Manager, a batch reserves less than the
package takes from it, or a warehouse has no total or less usable stock than it would still reserve. -/
def CancelRefused (ctx : Ctx) (t : Tables) (pkgId : Nat) : Prop :=
  ctx.logisticsManager = false ∨
  (∃ i ∈ t.positiveItems pkgId, ∃ b ∈ t.itembatch.get? i.batch, b.reservedQty < i.itemQty) ∨
  ∃ i ∈ t.positiveItems pkgId, ∀ v ∈ t.inventory.get? i.batch.stock,
    v.usableQty < numeric 2 (t.leftReserved pkgId i.batch.stock)

theorem cancelTotal_writesOwn (b : Table ItemBatch) : Table.WritesOwn id (cancelTotal b) := by
  intro s o v hk h
  cases o with
  | none => cases h
  | some v' =>
    simp only [cancelTotal] at h
    split_ifs at h
    cases h; exact hk v' rfl

theorem positive_qty (hc : t.Consistent) {k : BatchKey} (h : ¬ 0 < t.pkgQty pkgId k) : t.pkgQty pkgId k = 0 :=
  le_antisymm (not_lt.1 h) (pkgQty_nonneg hc.pkgItem pkgId k)

/-- The batch loop of `cancel_relief_package`. -/
theorem cancelBatches_ok (hc : t.Consistent) {b' : Table ItemBatch}
    (h : Table.forRows ReliefPkgItem.batch cancelBatch (t.positiveItems pkgId) t.itembatch = .ok b') (k : BatchKey) :
    b'.get? k = (t.itembatch.get? k).map (fun b => { b with reservedQty := b.reservedQty - t.pkgQty pkgId k }) ∧
    ∀ b ∈ t.itembatch.get? k, t.pkgQty pkgId k ≤ b.reservedQty := by
  rcases forRows_positiveItems cancelBatch_writesOwn h k with ⟨hn, hg⟩ | ⟨-, i, -, -, hq, o, ho, hg⟩
  · rw [hg, positive_qty hc hn]
    refine ⟨by cases t.itembatch.get? k <;> simp, fun b hb => ?_⟩
    exact (hc.batch b (Table.mem_of_get? hb)).2.1.2
  · rw [hg, ← hq]
    cases hb : t.itembatch.get? k with
    | none => rw [hb] at ho; cases ho; simp [Table.left]
    | some b =>
      rw [hb] at ho
      simp only [cancelBatch] at ho
      split_ifs at ho with hlt
      cases ho
      refine ⟨rfl, fun x hx => ?_⟩
      cases hx
      exact not_lt.1 hlt

theorem sumReserved_cancelled (hc : t.Consistent) {b' : Table ItemBatch} (hk : b'.keys = t.itembatch.keys)
    (h : ∀ k, b'.get? k =
      (t.itembatch.get? k).map fun b => { b with reservedQty := b.reservedQty - t.pkgQty pkgId k }) (s : StockKey) :
    sumReserved b' s = t.leftReserved pkgId s := by
  refine Table.sum_congr hk fun k b x hb hx => ?_
  have hbk : b.key = k := Table.key_of_get? hb
  rw [h, hb, Option.map_some, Option.some.injEq] at hx
  subst hx hbk
  refine ⟨rfl, fun _ => ?_⟩
  exact (batch_atScale hc (Table.mem_of_get? hb)).2.sub (pkgQty_atScale (fun i hi =>
    congrArg ReliefPkgItem.itemQty (rounded_row hc hi)) pkgId b.key)

/-- The tables after `cancel_relief_package` wrote these batches and totals. -/
def Tables.cancelled (t : Tables) (pkgId : Nat) (batches : Table ItemBatch) (totals : Table Inventory) : Tables :=
  { t.emptied pkgId with
    itembatch := batches
    inventory := totals
    reliefpkg := t.reliefpkg.deleteWhere fun p => p.reliefpkgId = pkgId }

/-- Without its rows, a package can go. -/
theorem deleted_consistent (hc : t.Consistent) (pkgId : Nat) :
    (t.cancelled pkgId t.itembatch t.inventory).Consistent := by
  obtain ⟨hst, he⟩ := emptied_consistent hc pkgId
  have hstored : (t.cancelled pkgId t.itembatch t.inventory).rounded = t.cancelled pkgId t.itembatch t.inventory :=
    congrArg (fun u : Tables => { u with reliefpkg := t.reliefpkg.deleteWhere fun p => p.reliefpkgId = pkgId }) hst
  refine
    { he with
      stored := hstored
      pkg := fun p hp => hc.pkg p (List.mem_filter.1 hp).1
      fkPkg := fun p hp => hc.fkPkg p (List.mem_filter.1 hp).1
      fkPkgItem := fun i hi => ?_ }
  obtain ⟨hi, hne⟩ := List.mem_filter.1 hi
  obtain ⟨q, hq, hqk⟩ := List.mem_map.1 (hc.fkPkgItem i hi)
  refine List.mem_map.2 ⟨q, List.mem_filter.2 ⟨hq, ?_⟩, hqk⟩
  have hid : q.reliefpkgId = i.reliefpkgId := hqk
  simpa [hid] using hne

/-- Without the package and its rows, the constraints that remain to be checked are those of the stock. -/
theorem cancelled_consistent (hc : t.Consistent) {batches : Table ItemBatch} {totals : Table Inventory}
    (hk : batches.keys = t.itembatch.keys) (hb : ∀ b ∈ batches.rows, b.rounded.Check)
    (hv : ∀ v ∈ totals.rows, v.rounded.Check) : (t.cancelled pkgId batches totals).rounded.Consistent :=
  stock_consistent (deleted_consistent hc pkgId) hk hb hv

/-- What `cancel_relief_package` leaves of the stock. -/
theorem cancelReliefPackage_stock (hc : t.Consistent) (h : cancelReliefPackage pkgId t = .ok t') :
    t' = t.cancelled pkgId t'.itembatch t'.inventory ∧
    (∀ k, t'.itembatch.get? k =
      (t.itembatch.get? k).map fun b => { b with reservedQty := b.reservedQty - t.pkgQty pkgId k }) ∧
    (∀ k, ∀ b ∈ t.itembatch.get? k, t.pkgQty pkgId k ≤ b.reservedQty) ∧
    (∀ i ∈ t.positiveItems pkgId, ∃ v, t.inventory.get? i.batch.stock = some v ∧
      t'.inventory.get? i.batch.stock = some { v with reservedQty := t.leftReserved pkgId i.batch.stock }) ∧
    (∀ s, (∀ i ∈ t.positiveItems pkgId, i.batch.stock ≠ s) → t'.inventory.get? s = t.inventory.get? s) := by
  simp only [cancelReliefPackage, bind_ok, pure_ok, require_ok, check_ok, exists_const] at h
  obtain ⟨p, -, -, batches, hb, totals, hi, rfl⟩ := h
  have hrow := cancelBatches_ok hc hb
  have hsum := sumReserved_cancelled hc (Table.forRows_keys hb) fun k => (hrow k).1
  have hni := nodup_affectedInventory ((t.positiveItems pkgId).map ReliefPkgItem.batch)
  rw [← List.map_id (affectedInventory _)] at hni
  refine ⟨rfl, fun k => (hrow k).1, fun k => (hrow k).2, fun i hmem => ?_, fun s hs => ?_⟩
  · have haff : i.batch.stock ∈ affectedInventory ((t.positiveItems pkgId).map ReliefPkgItem.batch) :=
      mem_affectedInventory.2 ⟨i.batch, List.mem_map_of_mem hmem, rfl⟩
    obtain ⟨o, ho, hg⟩ := Table.forRows_spec (cancelTotal_writesOwn batches) hi hni _ haff
    simp only [id] at ho hg
    cases hv : t.inventory.get? i.batch.stock with
    | none => rw [hv] at ho; cases ho
    | some v =>
      rw [hv] at ho hg
      simp only [cancelTotal] at ho
      split_ifs at ho
      cases ho
      exact ⟨v, rfl, by rw [hg, hsum]; rfl⟩
  · refine Table.forRows_other (cancelTotal_writesOwn batches) hi ?_
    rw [List.map_id, mem_affectedInventory]
    rintro ⟨_, hk, rfl⟩
    obtain ⟨i, hmem, rfl⟩ := List.mem_map.1 hk
    exact hs i hmem rfl

theorem leftReserved_nonneg (h : ∀ b ∈ t.itembatch.rows, t.pkgQty pkgId b.key ≤ b.reservedQty) (s : StockKey) :
    0 ≤ t.leftReserved pkgId s := by
  refine List.sum_nonneg fun q hq => ?_
  obtain ⟨b, hb, rfl⟩ := List.mem_map.1 hq
  exact sub_nonneg.2 (h b (List.mem_filter.1 hb).1)

/-- Nothing stands in the way of a post that is not refused. -/
theorem cancelReliefPackage_runs (hc : t.Consistent) (hp : t.reliefpkg.get? pkgId = some p)
    (hs : p.statusCode = .pending ∨ p.statusCode = .dispatched)
    (hb : ∀ i ∈ t.positiveItems pkgId, ∀ b ∈ t.itembatch.get? i.batch, i.itemQty ≤ b.reservedQty)
    (hv : ∀ i ∈ t.positiveItems pkgId, ∃ v, t.inventory.get? i.batch.stock = some v) :
    ∃ t', cancelReliefPackage pkgId t = .ok t' := by
  obtain ⟨batches, hbatches⟩ := Table.forRows_ok (t := t.itembatch) cancelBatch_writesOwn
    (nodup_positiveItems t pkgId) fun i hi => by
      cases hg : t.itembatch.get? i.batch with
      | none => exact ⟨none, rfl⟩
      | some b => exact ⟨_, if_neg (not_lt.2 (hb i hi b hg))⟩
  have hrow := cancelBatches_ok hc hbatches
  have hsum := sumReserved_cancelled hc (Table.forRows_keys hbatches) fun k => (hrow k).1
  have hni := nodup_affectedInventory ((t.positiveItems pkgId).map ReliefPkgItem.batch)
  rw [← List.map_id (affectedInventory _)] at hni
  obtain ⟨totals, htotals⟩ := Table.forRows_ok (t := t.inventory) (cancelTotal_writesOwn batches) hni fun s hs => by
    obtain ⟨_, hk, rfl⟩ := mem_affectedInventory.1 hs
    obtain ⟨i, hi, rfl⟩ := List.mem_map.1 hk
    obtain ⟨v, hv⟩ := hv i hi
    have h0 : 0 ≤ sumReserved batches i.batch.stock := by
      rw [hsum]
      exact leftReserved_nonneg (fun b hb => (hrow b.key).2 b (Table.get?_key hb)) _
    exact ⟨_, by simp only [id, hv, cancelTotal]; rw [if_neg (not_lt.2 h0)]⟩
  refine ⟨t.cancelled pkgId batches totals, ?_⟩
  simp only [cancelReliefPackage, hp, bind_ok, require_ok, check_ok, pure_ok]
  exact ⟨p, rfl, (), hs, batches, hbatches, totals, htotals, rfl⟩

/-- The stock columns after `cancel_relief_package` satisfy their checks, if the totals still fit. -/
theorem cancelReliefPackage_checks (hc : t.Consistent) (h : cancelReliefPackage pkgId t = .ok t')
    (hv : ∀ i ∈ t.positiveItems pkgId, ∀ v ∈ t.inventory.get? i.batch.stock,
      numeric 2 (t.leftReserved pkgId i.batch.stock) ≤ v.usableQty) :
    t'.rounded.Consistent := by
  obtain ⟨hform, hrow, hle, htot, hoth⟩ := cancelReliefPackage_stock hc h
  have hkeys := cancelReliefPackage_keys h
  rw [hform]
  refine cancelled_consistent hc hkeys (fun b hb => ?_) fun v hm => ?_
  · obtain ⟨b₀, hb₀, he⟩ := Table.exists_of_map (k := b.key) hrow hb rfl
    have hmem := Table.mem_of_get? hb₀
    obtain ⟨h1, ⟨h2, -⟩, h4, h5⟩ := hc.batch b₀ hmem
    have hqty : AtScale 4 (t.pkgQty pkgId b.key) :=
      pkgQty_atScale (fun i hi => congrArg ReliefPkgItem.itemQty (rounded_row hc hi)) pkgId b.key
    have h0 := pkgQty_nonneg hc.pkgItem pkgId b.key
    have hl := hle b.key b₀ hb₀
    rw [← he]
    refine ⟨numeric_nonneg h1, ⟨?_, numeric_nonneg (by simpa using hl)⟩, numeric_nonneg h4, numeric_nonneg h5⟩
    exact numeric_mono (by simp only; linarith)
  · by_cases hs : ∃ i ∈ t.positiveItems pkgId, i.batch.stock = v.key
    · obtain ⟨i, hi, hs⟩ := hs
      obtain ⟨v₀, hv₀, he⟩ := htot i hi
      have hg : t'.inventory.get? i.batch.stock = some v := by rw [hs]; exact Table.get?_key hm
      cases Option.mem_unique hg he
      have hmem := Table.mem_of_get? hv₀
      have hst : numeric 2 v₀.usableQty = v₀.usableQty := congrArg Inventory.usableQty (rounded_total hc hmem)
      obtain ⟨h1, -, h3, h4⟩ := hc.inventory v₀ hmem
      have hfit := hv i hi v₀ hv₀
      rw [← hst] at hfit
      exact ⟨numeric_nonneg h1, hfit, numeric_nonneg h3, numeric_nonneg h4⟩
    · have hsame := hoth v.key fun i hi e => hs ⟨i, hi, e⟩
      rw [show t'.inventory.get? v.key = some v from Table.get?_key hm] at hsame
      have hmem := Table.mem_of_get? hsame.symm
      rw [rounded_total hc hmem]
      exact hc.inventory v hmem

end

section
variable {ctx : Ctx} {db : Database} {pkgId : Nat} {p : ReliefPkg}

/-- The post goes through exactly when it is not refused. -/
theorem cancelPackage_commits (hp : db.tables.reliefpkg.get? pkgId = some p)
    (hs : p.statusCode = .pending ∨ p.statusCode = .dispatched) :
    Commits db (.cancelPackage ctx pkgId) ↔ ¬ CancelRefused ctx db.tables pkgId := by
  have hc := db.consistent
  constructor
  · intro h
    obtain ⟨t', ht', hc', -⟩ := step_of_commits h
    simp only [Op.route, cancelPackage, bind_ok, check_ok, exists_const] at ht'
    obtain ⟨hlm, ht'⟩ := ht'
    obtain ⟨-, -, hle, htot, -⟩ := cancelReliefPackage_stock hc ht'
    rintro (hno | ⟨i, hi, b, hb, hlt⟩ | ⟨i, hi, hlt⟩)
    · rw [hno] at hlm; cases hlm
    · have := hle i.batch b hb
      rw [pkgQty_of_mem (mem_positiveItems.1 hi).1] at this
      exact absurd hlt (not_lt.2 this)
    · obtain ⟨v, hv, hv'⟩ := htot i hi
      have hmem : Inventory.rounded { v with reservedQty := db.tables.leftReserved pkgId i.batch.stock } ∈
          t'.rounded.inventory.rows := List.mem_map_of_mem (Table.mem_of_get? hv')
      have hchk := (hc'.inventory _ hmem).2.1
      have hst : numeric 2 v.usableQty = v.usableQty :=
        congrArg Inventory.usableQty (rounded_total hc (Table.mem_of_get? hv))
      simp only [Inventory.rounded] at hchk
      rw [hst] at hchk
      exact absurd (hlt v hv) (not_lt.2 hchk)
  · intro h
    simp only [CancelRefused, not_or, not_exists, not_and, not_lt, Bool.not_eq_false, not_forall] at h
    obtain ⟨hlm, hb, hv⟩ := h
    obtain ⟨t', ht'⟩ := cancelReliefPackage_runs hc hp hs hb fun i hi => by
      obtain ⟨v, hv, -⟩ := hv i hi
      exact ⟨v, hv⟩
    have hc' := cancelReliefPackage_checks hc ht' fun i hi v hv' => by
      obtain ⟨w, hw, hle⟩ := hv i hi
      cases Option.mem_unique hv' hw
      exact hle
    refine ⟨⟨t'.rounded, hc'⟩, exec_ok.2 ⟨t', ?_, hc', rfl⟩⟩
    simp only [Op.route, cancelPackage, bind_ok, check_ok]
    exact ⟨(), hlm, ht'⟩

/-- What a reversal would leave behind: the package's quantities are usable again, and what is reserved stays. -/
structure Reversed (t t' : Tables) (pkgId : Nat) : Prop where
  batch : ∀ b ∈ t.itembatch.rows, (t'.itembatch.get? b.key).map (fun b' => (b'.usableQty, b'.reservedQty)) =
    some (b.usableQty + t.pkgQty pkgId b.key, b.reservedQty)
  total : ∀ v ∈ t.inventory.rows, (t'.inventory.get? v.key).map (fun v' => (v'.usableQty, v'.reservedQty)) =
    some (v.usableQty + (((t.pkgItems pkgId).filter fun i => i.batch.stock = v.key).map ReliefPkgItem.itemQty).sum,
      v.reservedQty)

/-- A true reversal, and not of a package that was handed over. -/
def CancelledWell (db : Database) (ctx : Ctx) (pkgId : Nat) : Prop :=
  (Commits db (.cancelPackage ctx pkgId) ∧
    Reversed db.tables (step db (.cancelPackage ctx pkgId)).tables pkgId ∧
    ∀ p ∈ db.tables.reliefpkg.get? pkgId, p.receivedDtime = none) ∨
  (¬ Commits db (.cancelPackage ctx pkgId) ∧ step db (.cancelPackage ctx pkgId) = db)

/-- The reservation of a batch the package took from is reduced once more. -/
theorem reserved_after (h : Commits db (.cancelPackage ctx pkgId)) {b : ItemBatch} (hb : b ∈ db.tables.itembatch.rows) :
    ((step db (.cancelPackage ctx pkgId)).tables.itembatch.get? b.key).map (fun b' => (b'.usableQty, b'.reservedQty)) =
      some (b.usableQty, b.reservedQty - db.tables.pkgQty pkgId b.key) := by
  have hc := db.consistent
  obtain ⟨t', ht', -, he⟩ := step_of_commits h
  simp only [Op.route, cancelPackage, bind_ok, check_ok, exists_const] at ht'
  obtain ⟨-, hrow, -⟩ := cancelReliefPackage_stock hc ht'.2
  obtain ⟨hu, hr⟩ := batch_atScale hc hb
  have hqty : AtScale 4 (db.tables.pkgQty pkgId b.key) :=
    pkgQty_atScale (fun i hi => congrArg ReliefPkgItem.itemQty (rounded_row hc hi)) pkgId b.key
  rw [he, rounded_itembatch, hrow, show db.tables.itembatch.get? b.key = some b from Table.get?_key hb]
  simp only [Option.map_some, ItemBatch.rounded, Option.some.injEq, Prod.mk.injEq]
  exact ⟨hu, hr.sub hqty⟩

/-- A package that takes nothing is cancelled without touching the stock. -/
theorem reversed_of_empty (h : Commits db (.cancelPackage ctx pkgId))
    (h0 : ∀ i ∈ db.tables.pkgItems pkgId, i.itemQty = 0) :
    Reversed db.tables (step db (.cancelPackage ctx pkgId)).tables pkgId := by
  have hc := db.consistent
  have hz := pkgQty_eq_zero h0
  refine ⟨fun b hb => ?_, fun v hv => ?_⟩
  · rw [reserved_after h hb, hz, sub_zero, add_zero]
  · have hpos : ∀ i ∈ db.tables.positiveItems pkgId, i.batch.stock ≠ v.key := fun i hi => by
      obtain ⟨hi, hq⟩ := mem_positiveItems.1 hi
      exact absurd hq (by rw [h0 i hi]; exact lt_irrefl _)
    obtain ⟨t', ht', -, he⟩ := step_of_commits h
    simp only [Op.route, cancelPackage, bind_ok, check_ok, exists_const] at ht'
    obtain ⟨-, -, -, -, hoth⟩ := cancelReliefPackage_stock hc ht'.2
    have hget : db.tables.inventory.get? v.key = some v := Table.get?_key hv
    have hsum : (((db.tables.pkgItems pkgId).filter fun i => i.batch.stock = v.key).map
        ReliefPkgItem.itemQty).sum = 0 := by
      refine List.sum_eq_zero fun q hq => ?_
      obtain ⟨i, hi, rfl⟩ := List.mem_map.1 hq
      exact h0 i (List.mem_filter.1 hi).1
    have hr : (step db (.cancelPackage ctx pkgId)).tables.inventory.get? v.key = some v := by
      rw [he]
      simp only [Tables.rounded, Table.get?_mapRows]
      rw [hoth v.key hpos, hget, Option.map_some, rounded_total hc hv]
    rw [hr, hsum, add_zero, Option.map_some]

end

/-- **Cancelling a dispatched package**: it is a reversal or a refusal exactly when it is refused, or when the
package took nothing and was not handed over. -/
theorem dispatched_cancelled (db : Database) (ctx : Ctx) (pkgId : Nat) (p : ReliefPkg)
    (hp : db.tables.reliefpkg.get? pkgId = some p) (hs : p.statusCode = .dispatched) :
    CancelledWell db ctx pkgId ↔
      CancelRefused ctx db.tables pkgId ∨
      ((∀ i ∈ db.tables.pkgItems pkgId, i.itemQty = 0) ∧ p.receivedDtime = none) := by
  have hiff : Commits db (.cancelPackage ctx pkgId) ↔ _ := cancelPackage_commits hp (.inr hs)
  constructor
  · rintro (⟨hcommit, hrev, hrec⟩ | ⟨hno, -⟩)
    · refine .inr ⟨fun i hi => ?_, hrec p hp⟩
      obtain ⟨b, hb, hk⟩ := List.mem_map.1 (db.consistent.fkBatch i (mem_pkgItems.1 hi).1)
      have hsame := (reserved_after hcommit hb).symm.trans (hrev.batch b hb)
      rw [show b.key = i.batch from hk, pkgQty_of_mem hi] at hsame
      simp only [Option.some.injEq, Prod.mk.injEq] at hsame
      linarith [hsame.1]
    · exact .inl (not_not.1 fun h => hno (hiff.2 h))
  · intro h
    by_cases hcommit : Commits db (.cancelPackage ctx pkgId)
    · rcases h with h | ⟨h0, hrec⟩
      · exact absurd h (hiff.1 hcommit)
      · refine .inl ⟨hcommit, reversed_of_empty hcommit h0, fun q hq => ?_⟩
        cases Option.mem_unique hq hp
        exact hrec
    · exact .inr ⟨hcommit, step_of_not_commits hcommit⟩

namespace Site

def otherRqst : ReliefRqst := { rqst with reliefrqstId := 2 }

/-- The site with a second request for the same item. -/
def twoRequests : Database :=
  ⟨{ tables with
      reliefrqst := ⟨[rqst, otherRqst], by decide⟩
      reliefrqstItem := ⟨[rqstItem, { rqstItem with reliefrqstId := 2 }], by decide⟩
      nextReliefrqstId := 3 }, by decide +kernel⟩

/-- The package of the first request leaves with five units. -/
def sent : Database := step twoRequests (.preparePackage manager 1 .sendForDispatch (post 3 .absent 5))

def sentPkg : ReliefPkg := (newPkg manager rqst 1).dispatch manager

/-- It is handed over, and the officer reserves the other five units for the second request. -/
def shared : Database :=
  run step sent [.markHandover { officer with inventoryClerk := true } 1,
    .preparePackage officer 2 .saveDraft (post 3 .absent 5)]

end Site

theorem dispatched_cancelled_site : CancelledWell Site.sent Site.manager 1 :=
  (dispatched_cancelled Site.sent Site.manager 1 Site.sentPkg (by decide +kernel) rfl).2
    (.inl (.inr (.inl ⟨⟨1, 1, 1, 1, 5, "EA"⟩, by decide +kernel, { Site.batch with usableQty := 5 },
      by decide +kernel, by decide +kernel⟩)))

/-- Cancelling the first package, which was handed over, frees what the second one has reserved. -/
theorem dispatched_cancelled_frees :
    (∀ b ∈ Site.shared.tables.itembatch.rows, b.reservedQty = Site.shared.tables.pledged b.key) ∧
    (Site.shared.tables.reliefpkg.get? 1).map (fun p => (p.statusCode, p.receivedDtime)) =
      some (.dispatched, some 1000) ∧
    Commits Site.shared (.cancelPackage Site.manager 1) ∧
    (step Site.shared (.cancelPackage Site.manager 1)).tables.itembatch.rows =
      [{ Site.batch with usableQty := 5 }] ∧
    (step Site.shared (.cancelPackage Site.manager 1)).tables.pledged ⟨1, 1, 1⟩ = 5 ∧
    ¬ CancelledWell Site.shared Site.manager 1 := by
  refine ⟨by decide +kernel, by decide +kernel, by decide +kernel, by decide +kernel, by decide +kernel, ?_⟩
  rintro (⟨-, hrev, -⟩ | ⟨hno, -⟩)
  · exact absurd (hrev.batch { Site.batch with usableQty := 5, reservedQty := 5 } (by decide +kernel))
      (by decide +kernel)
  · exact hno (by decide +kernel)

end Dmis
