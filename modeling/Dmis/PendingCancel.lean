import Dmis.Cancellation
import Dmis.TwoDispatches

/-!
# Cancelling a pending package

`cancel_relief_package` of a package that is still pending (`inventory_reservation_service.py:381-603`, route
`packaging.py:344-384`). Where the reservations add up, none of its checks can fail: a batch reserves at least
what one of its packages takes, and a warehouse total loses what its batches lose. What is left adds up again
for the remaining packages (`pending_cancelled`).
-/

namespace Dmis

open Relational Keyed

/-- What is reserved on a batch is what the undispatched packages take from it, and on a warehouse what its
batches reserve. -/
structure Reservations (t : Tables) : Prop where
  batch : ∀ b ∈ t.itembatch.rows, b.reservedQty = t.pledged b.key
  total : ∀ v ∈ t.inventory.rows, v.reservedQty = batchSum t.itembatch v.key ItemBatch.reservedQty
  /-- At most two decimals, so that no column rounds. -/
  batchScale : ∀ b ∈ t.itembatch.rows, AtScale 2 b.usableQty ∧ AtScale 2 b.reservedQty
  rowScale : ∀ i ∈ t.reliefpkgItem.rows, AtScale 2 i.itemQty

theorem Ledger.reservations {t : Tables} (h : Ledger t) : Reservations t :=
  ⟨h.reserved, h.reservedTotal, h.batchScale, h.rowScale⟩

/-- What cancelling a pending package leaves behind. -/
structure CancelledExactly (t t' : Tables) (pkgId : Nat) : Prop where
  batch : ∀ k, t'.itembatch.get? k =
    (t.itembatch.get? k).map fun b => { b with reservedQty := b.reservedQty - t.pkgQty pkgId k }
  total : ∀ s, t'.inventory.get? s =
    (t.inventory.get? s).map fun v => { v with reservedQty := batchSum t'.itembatch s ItemBatch.reservedQty }
  /-- The package and its rows go, and nothing else changes. -/
  rest : t' = { t with
    itembatch := t'.itembatch
    inventory := t'.inventory
    reliefpkgItem := t.reliefpkgItem.deleteWhere fun i => i.reliefpkgId = pkgId
    reliefpkg := t.reliefpkg.deleteWhere fun p => p.reliefpkgId = pkgId }
  reservations : Reservations t'

section
variable {t t' : Tables} {p : ReliefPkg} {k : BatchKey} {pkgId : Nat}

theorem Reservations.qty_le (h : Reservations t) (hc : t.Consistent) (hp : p ∈ t.reliefpkg.rows)
    (hs : p.statusCode ≠ .dispatched) {b : ItemBatch} (hb : t.itembatch.get? k = some b) :
    t.pkgQty p.reliefpkgId k ≤ b.reservedQty := by
  have hk : b.key = k := Table.key_of_get? hb
  rw [h.batch b (Table.mem_of_get? hb), hk]
  exact pkgQty_le_pledged hc.pkgItem hp hs k

/-- A package that is not dispatched takes its pledges with it. -/
theorem pledged_cancelled (hp : p ∈ t.reliefpkg.rows) (hs : p.statusCode ≠ .dispatched)
    (batches : Table ItemBatch) (totals : Table Inventory) (k : BatchKey) :
    (t.cancelled p.reliefpkgId batches totals).pledged k = t.pledged k - t.pkgQty p.reliefpkgId k := by
  rw [← pledged_emptied hp hs]
  refine Table.sum_deleteWhere fun q _ hq => ?_
  rw [of_decide_eq_true hq]
  exact pkgQty_emptied_self t p.reliefpkgId k

theorem leftReserved_le (hc : t.Consistent) (pkgId : Nat) (s : StockKey) :
    t.leftReserved pkgId s ≤ batchSum t.itembatch s ItemBatch.reservedQty := by
  refine List.sum_le_sum fun b _ => ?_
  linarith [pkgQty_nonneg hc.pkgItem pkgId b.key]

theorem Reservations.left_atScale (h : Reservations t) (pkgId : Nat) (s : StockKey) :
    AtScale 2 (t.leftReserved pkgId s) := by
  refine AtScale.sum fun q hq => ?_
  obtain ⟨b, hb, rfl⟩ := List.mem_map.1 hq
  exact (h.batchScale b (List.mem_filter.1 hb).1).2.sub (pkgQty_atScale h.rowScale pkgId b.key)

/-- A warehouse none of whose batches the package takes from keeps what its batches reserve. -/
theorem leftReserved_other (hc : t.Consistent) {s : StockKey}
    (hs : ∀ i ∈ t.positiveItems pkgId, i.batch.stock ≠ s) :
    t.leftReserved pkgId s = batchSum t.itembatch s ItemBatch.reservedQty := by
  refine congrArg List.sum (List.map_congr_left fun b hb => ?_)
  have hstock : b.key.stock = s := of_decide_eq_true (List.mem_filter.1 hb).2
  have hzero : t.pkgQty pkgId b.key = 0 := positive_qty hc fun hpos => by
    obtain ⟨i, hi, hk⟩ := List.mem_map.1 (mem_map_positiveItems.2 hpos)
    exact hs i hi (by rw [hk, hstock])
  rw [hzero, sub_zero]

/-- **What `cancel_relief_package` leaves in the session** of a pending package. -/
theorem cancelledExactly_of_ok (hr : Reservations t) (hc : t.Consistent) (hp : t.reliefpkg.get? pkgId = some p)
    (hs : p.statusCode ≠ .dispatched) (h : cancelReliefPackage pkgId t = .ok t') : CancelledExactly t t' pkgId := by
  have hid : p.reliefpkgId = pkgId := Table.key_of_get? hp
  obtain ⟨hform, hrow, -, htot, hoth⟩ := cancelReliefPackage_stock hc h
  have hkeys := cancelReliefPackage_keys h
  have hsum : ∀ s, batchSum t'.itembatch s ItemBatch.reservedQty = t.leftReserved pkgId s := fun s =>
    batchSum_congr hkeys (fun k b b' hb hb' => by
      have hk : b.key = k := Table.key_of_get? hb
      rw [hrow, hb, Option.map_some, Option.some.injEq] at hb'
      rw [← hb', ← hk]) s
  have htotal : ∀ s, t'.inventory.get? s =
      (t.inventory.get? s).map fun v => { v with reservedQty := batchSum t'.itembatch s ItemBatch.reservedQty } := by
    intro s
    by_cases haff : ∃ i ∈ t.positiveItems pkgId, i.batch.stock = s
    · obtain ⟨i, hi, rfl⟩ := haff
      obtain ⟨v, hv, hv'⟩ := htot i hi
      rw [hv', hv, hsum]
      rfl
    · have hnot : ∀ i ∈ t.positiveItems pkgId, i.batch.stock ≠ s := fun i hi e => haff ⟨i, hi, e⟩
      rw [hoth s hnot, hsum, leftReserved_other hc hnot]
      cases hv : t.inventory.get? s with
      | none => rfl
      | some v =>
        have hk : v.key = s := Table.key_of_get? hv
        rw [Option.map_some, ← hk, ← hr.total v (Table.mem_of_get? hv)]
  refine ⟨hrow, htotal, by rw [hform]; rfl, fun b hb => ?_, fun v hv => ?_, fun b hb => ?_, fun i hi => ?_⟩
  · obtain ⟨b₀, hb₀, he⟩ := Table.exists_of_map (k := b.key) hrow hb rfl
    have hk₀ : b₀.key = b.key := Table.key_of_get? hb₀
    have hq : b.reservedQty = b₀.reservedQty - t.pkgQty pkgId b.key := (congrArg ItemBatch.reservedQty he).symm
    rw [hq, hr.batch b₀ (Table.mem_of_get? hb₀), hk₀, hform, ← hid, pledged_cancelled (Table.mem_of_get? hp) hs]
  · obtain ⟨v₀, -, he⟩ := Table.exists_of_map (k := v.key) htotal hv rfl
    exact (congrArg Inventory.reservedQty he).symm
  · obtain ⟨b₀, hb₀, he⟩ := Table.exists_of_map (k := b.key) hrow hb rfl
    obtain ⟨hu, hv⟩ := hr.batchScale b₀ (Table.mem_of_get? hb₀)
    have hq : b.reservedQty = b₀.reservedQty - t.pkgQty pkgId b.key := (congrArg ItemBatch.reservedQty he).symm
    have hu' : b.usableQty = b₀.usableQty := (congrArg ItemBatch.usableQty he).symm
    rw [hq, hu']
    exact ⟨hu, hv.sub (pkgQty_atScale hr.rowScale pkgId b.key)⟩
  · rw [hform] at hi
    exact hr.rowScale i (List.mem_filter.1 hi).1

/-- Nothing that is written rounds. -/
theorem CancelledExactly.rounded (h : CancelledExactly t t' pkgId) (hc : t.Consistent) : t'.rounded = t' := by
  have hitems : t'.reliefrqstItem = t.reliefrqstItem := by rw [h.rest]
  have hrows : t'.reliefpkgItem = t.reliefpkgItem.deleteWhere fun i => i.reliefpkgId = pkgId := by rw [h.rest]
  refine rounded_eq (fun b hb => ?_) (fun v hv => ?_) (fun i hi => ?_) fun i hi => ?_
  · have hq : AtScale 4 b.reservedQty := (h.reservations.batchScale b hb).2.mono (by norm_num)
    obtain ⟨b₀, hb₀, he⟩ := Table.exists_of_map (k := b.key) h.batch hb rfl
    have hm := Table.mem_of_get? hb₀
    rw [← he] at hq ⊢
    exact rounded_batch_with hc hm (batch_atScale hc hm).1 hq
  · have hq : AtScale 2 v.reservedQty := by
      rw [h.reservations.total v hv]
      exact batchSum_atScale (fun b hb => (h.reservations.batchScale b hb).2) _
    obtain ⟨v₀, hv₀, he⟩ := Table.exists_of_map (k := v.key) h.total hv rfl
    have hm := Table.mem_of_get? hv₀
    rw [← he] at hq ⊢
    exact rounded_total_with hc hm (total_atScale hc hm).1 hq
  · exact rounded_rqstItem hc (hitems ▸ hi)
  · rw [hrows] at hi
    exact rounded_row hc (List.mem_filter.1 hi).1

end

/-- **Cancelling a pending package works**, takes exactly its quantities out of the reservations, and leaves them
adding up. A call that fails leaves nothing behind. -/
theorem pending_cancelled (db : Database) (ctx : Ctx) (pkgId : Nat) :
    (∀ p, db.tables.reliefpkg.get? pkgId = some p → p.statusCode = .pending → Reservations db.tables →
      (∀ i ∈ db.tables.positiveItems pkgId, db.tables.inventory.get? i.batch.stock ≠ none) →
      ∃ db', db.exec (cancelReliefPackage pkgId) = .ok db' ∧ CancelledExactly db.tables db'.tables pkgId ∧
        (ctx.logisticsManager = true → step db (.cancelPackage ctx pkgId) = db')) ∧
    ∀ e, db.exec (cancelReliefPackage pkgId) = .error e →
      db.after (cancelReliefPackage pkgId) = db ∧ step db (.cancelPackage ctx pkgId) = db := by
  have hc := db.consistent
  have hroute : ctx.logisticsManager = true →
      step db (.cancelPackage ctx pkgId) = db.after (cancelReliefPackage pkgId) := fun hlm => by
    have hservice : cancelPackage ctx pkgId = cancelReliefPackage pkgId := by
      funext t
      simp [cancelPackage, check, hlm, bind, Except.bind]
    simp only [step, Op.route, hservice]
  refine ⟨fun p hp hs hr hv => ?_, fun e he => ?_⟩
  · have hund : p.statusCode ≠ .dispatched := by rw [hs]; decide
    have hid : p.reliefpkgId = pkgId := Table.key_of_get? hp
    obtain ⟨t', ht'⟩ := cancelReliefPackage_runs hc hp (.inl hs)
      (fun i hi b hb => by
        have hle := hr.qty_le hc (Table.mem_of_get? hp) hund hb
        rwa [hid, pkgQty_of_mem (mem_positiveItems.1 hi).1] at hle)
      fun i hi => Option.ne_none_iff_exists'.1 (hv i hi)
    have hcon := cancelReliefPackage_checks hc ht' fun i _ v hv' => by
      have hk : v.key = i.batch.stock := Table.key_of_get? hv'
      have hm := Table.mem_of_get? hv'
      have hst : numeric 2 (db.tables.leftReserved pkgId i.batch.stock) = _ := hr.left_atScale pkgId i.batch.stock
      rw [hst]
      calc db.tables.leftReserved pkgId i.batch.stock
          ≤ batchSum db.tables.itembatch i.batch.stock ItemBatch.reservedQty := leftReserved_le hc pkgId _
        _ = v.reservedQty := by rw [hr.total v hm, hk]
        _ ≤ v.usableQty := (hc.inventory v hm).2.1
    have hexact := cancelledExactly_of_ok hr hc hp hund ht'
    have hexec : db.exec (cancelReliefPackage pkgId) = .ok ⟨t'.rounded, hcon⟩ := exec_ok.2 ⟨t', ht', hcon, rfl⟩
    refine ⟨_, hexec, ?_, fun hlm => ?_⟩
    · show CancelledExactly db.tables t'.rounded pkgId
      rw [hexact.rounded hc]
      exact hexact
    · rw [hroute hlm, Database.after, hexec]
  · have hafter : db.after (cancelReliefPackage pkgId) = db := by rw [Database.after, he]
    refine ⟨hafter, ?_⟩
    by_cases hlm : ctx.logisticsManager = true
    · rw [hroute hlm, hafter]
    · refine step_of_not_commits fun hcommit => ?_
      obtain ⟨t, ht, -⟩ := step_of_commits hcommit
      simp only [Op.route, cancelPackage, bind_ok, check_ok, exists_const] at ht
      exact hlm ht.1

/-- A draft of two units is cancelled; a package that is not there is not. -/
theorem pending_cancelled_site :
    (∃ db', Site.drafted.exec (cancelReliefPackage 1) = .ok db' ∧
      CancelledExactly Site.drafted.tables db'.tables 1 ∧
      step Site.drafted (.cancelPackage Site.manager 1) = db') ∧
    step Site.drafted (.cancelPackage Site.manager 2) = Site.drafted := by
  have hr : Reservations Site.drafted.tables :=
    ⟨by decide +kernel, by decide +kernel, by decide +kernel, by decide +kernel⟩
  obtain ⟨db', hexec, hexact, hstep⟩ := (pending_cancelled Site.drafted Site.manager 1).1
    (newPkg Site.officer Site.rqst 1) (by decide +kernel) rfl hr (by decide +kernel)
  have hnone : Site.drafted.tables.reliefpkg.get? 2 = none := by decide +kernel
  have herror : Site.drafted.exec (cancelReliefPackage 2) = .error .noPackage := by
    simp [Database.exec, cancelReliefPackage, hnone, require, bind, Except.bind]
  exact ⟨⟨db', hexec, hexact, hstep rfl⟩,
    ((pending_cancelled Site.drafted Site.manager 2).2 .noPackage herror).2⟩

end Dmis
