import Dmis.PendingCancel

/-!
# Releasing twice

`release_all_reservations` (`inventory_reservation_service.py:203-290`) reads what it releases from the rows of the
package (`:49-70`) and leaves the rows there. The lock service calls it whenever a lock ends
(`fulfillment_lock_service.py:71-166`), and every call takes the same quantities out again, down to zero. A second
call is harmless exactly when the first one left nothing on the batches it took from, and what is left there is
what the packages of other requests have reserved (`releases_once`).
-/

namespace Dmis

open Relational Keyed

/-- The state after `n` calls, each in a transaction of its own. -/
def released (db : Database) (rqstId n : Nat) : Database :=
  (fun d : Database => d.after (releaseAllReservations rqstId))^[n] db

/-- What the undispatched packages of other requests take from a batch. -/
def Tables.pledgedByOthers (t : Tables) (rqstId : Nat) (k : BatchKey) : ℚ :=
  t.reliefpkg.sum (fun p => p.statusCode ≠ .dispatched ∧ p.reliefrqstId ≠ rqstId) fun p => t.pkgQty p.reliefpkgId k

/-- Every further call changes nothing, and no call takes what another request has reserved. -/
def ReleasesOnce (db : Database) (rqstId : Nat) : Prop :=
  ∀ n, 1 ≤ n → released db rqstId n = released db rqstId 1 ∧
    ∀ b ∈ (released db rqstId n).tables.itembatch.rows,
      (released db rqstId n).tables.pledgedByOthers rqstId b.key ≤ b.reservedQty

section
variable {t t' t₂ : Tables} {rqstId : Nat} {k : BatchKey} {db : Database}

/-! ## One call -/

/-- What one call takes from a batch. -/
def Tables.releasedQty (t : Tables) (rqstId : Nat) (k : BatchKey) : ℚ :=
  ((t.firstPkg rqstId).map fun p => t.pkgQty p.reliefpkgId k).getD 0

theorem releasedQty_of_mem {i : ReliefPkgItem} (hi : i ∈ currentBatchReservations rqstId t) :
    t.releasedQty rqstId i.batch = i.itemQty ∧ 0 < i.itemQty := by
  unfold currentBatchReservations at hi
  cases hp : t.firstPkg rqstId with
  | none =>
    rw [hp] at hi
    cases hi
  | some p =>
    rw [hp] at hi
    obtain ⟨hm, hq⟩ := mem_positiveItems.1 hi
    simp [Tables.releasedQty, hp, pkgQty_of_mem hm, hq]

theorem releasedQty_nonneg (hc : t.Consistent) (k : BatchKey) : 0 ≤ t.releasedQty rqstId k := by
  unfold Tables.releasedQty
  cases t.firstPkg rqstId with
  | none => exact le_rfl
  | some p => exact pkgQty_nonneg hc.pkgItem p.reliefpkgId k

/-- A batch something is released from has a row. -/
theorem mem_of_releasedQty (h : 0 < t.releasedQty rqstId k) :
    ∃ i ∈ currentBatchReservations rqstId t, i.batch = k := by
  unfold Tables.releasedQty at h
  unfold currentBatchReservations
  cases hp : t.firstPkg rqstId with
  | none =>
    rw [hp] at h
    exact absurd h (lt_irrefl _)
  | some p =>
    rw [hp] at h
    obtain ⟨i, hi, hk, hq⟩ := exists_of_pkgQty_ne_zero h.ne'
    exact ⟨i, mem_positiveItems.2 ⟨hi, hq ▸ h⟩, hk⟩

theorem nodup_currentBatchReservations (t : Tables) (rqstId : Nat) :
    ((currentBatchReservations rqstId t).map ReliefPkgItem.batch).Nodup := by
  unfold currentBatchReservations
  cases t.firstPkg rqstId with
  | none => exact List.nodup_nil
  | some p => exact nodup_positiveItems t p.reliefpkgId

theorem releaseTotal_writesOwn (b : Table ItemBatch) : Table.WritesOwn id (releaseTotal b) := by
  intro s o v hk h
  cases o with
  | none => cases h
  | some v' =>
    simp only [releaseTotal] at h
    split_ifs at h
    · cases h
      exact hk v' rfl
    · cases h

/-- What is left on a batch. -/
def ItemBatch.less (q : ℚ) (b : ItemBatch) : ItemBatch := { b with reservedQty := max 0 (b.reservedQty - q) }

/-- What one call does: every batch loses what the package takes from it, and the active totals are the sums of
their batches. -/
structure ReleasedFrom (t t' : Tables) (rqstId : Nat) : Prop where
  frame : t' = { t with itembatch := t'.itembatch, inventory := t'.inventory }
  batchKeys : t'.itembatch.keys = t.itembatch.keys
  totalKeys : t'.inventory.keys = t.inventory.keys
  batch : ∀ k, t'.itembatch.get? k = (t.itembatch.get? k).map (ItemBatch.less (t.releasedQty rqstId k))
  total : ∀ s, t'.inventory.get? s = (t.inventory.get? s).map fun v =>
    if v.statusCode = .active then { v with reservedQty := batchSum t'.itembatch s ItemBatch.reservedQty } else v

/-- What a call needs and leaves: two decimals, and active totals that are the sums of their batches. -/
structure Releasable (t : Tables) : Prop where
  batchScale : ∀ b ∈ t.itembatch.rows, AtScale 2 b.usableQty ∧ AtScale 2 b.reservedQty
  rowScale : ∀ i ∈ t.reliefpkgItem.rows, AtScale 2 i.itemQty
  total : ∀ v ∈ t.inventory.rows, v.statusCode = .active →
    v.reservedQty = batchSum t.itembatch v.key ItemBatch.reservedQty

theorem Reservations.releasable (h : Reservations t) : Releasable t :=
  ⟨h.batchScale, h.rowScale, fun v hv _ => h.total v hv⟩

theorem ReleasedFrom.releasedQty (h : ReleasedFrom t t' rqstId) (k : BatchKey) :
    t'.releasedQty rqstId k = t.releasedQty rqstId k := by
  rw [h.frame]
  rfl

theorem ReleasedFrom.pledgedByOthers (h : ReleasedFrom t t' rqstId) (k : BatchKey) :
    t'.pledgedByOthers rqstId k = t.pledgedByOthers rqstId k := by
  rw [h.frame]
  rfl

theorem releaseBatches_ok (hc : t.Consistent) {b' : Table ItemBatch}
    (h : Table.forRows ReliefPkgItem.batch releaseBatch (currentBatchReservations rqstId t) t.itembatch = .ok b')
    (k : BatchKey) : b'.get? k = (t.itembatch.get? k).map (ItemBatch.less (t.releasedQty rqstId k)) := by
  rcases Table.forRows_get? releaseBatch_writesOwn h (nodup_currentBatchReservations t rqstId) k with
    ⟨hk, hg⟩ | ⟨i, hi, rfl, o, ho, hg⟩
  · have hzero : t.releasedQty rqstId k = 0 := by
      refine le_antisymm (not_lt.1 fun hpos => hk ?_) (releasedQty_nonneg hc k)
      obtain ⟨i, hi, rfl⟩ := mem_of_releasedQty hpos
      exact List.mem_map_of_mem hi
    rw [hg, hzero]
    cases hb : t.itembatch.get? k with
    | none => rfl
    | some b =>
      have hnn : 0 ≤ b.reservedQty := (hc.batch b (Table.mem_of_get? hb)).2.1.2
      simp [ItemBatch.less, hnn]
  · rw [hg, (releasedQty_of_mem hi).1]
    cases hb : t.itembatch.get? i.batch with
    | none =>
      rw [hb] at ho
      cases ho
      rfl
    | some b =>
      rw [hb] at ho
      cases ho
      rfl

theorem releasedQty_atScale (h : Releasable t) (rqstId : Nat) (k : BatchKey) : AtScale 2 (t.releasedQty rqstId k) := by
  unfold Tables.releasedQty
  cases t.firstPkg rqstId with
  | none => exact .zero
  | some p => exact pkgQty_atScale h.rowScale p.reliefpkgId k

theorem less_atScale {b : Table ItemBatch} (h : Releasable t)
    (hb : ∀ k, b.get? k = (t.itembatch.get? k).map (ItemBatch.less (t.releasedQty rqstId k))) :
    ∀ r ∈ b.rows, AtScale 2 r.usableQty ∧ AtScale 2 r.reservedQty := fun r hr => by
  have hg : b.get? r.key = some r := Table.get?_key hr
  rw [hb, Option.map_eq_some_iff] at hg
  obtain ⟨r₀, hr₀, he⟩ := hg
  obtain ⟨hu, hv⟩ := h.batchScale r₀ (Table.mem_of_get? hr₀)
  rw [← he]
  exact ⟨hu, AtScale.zero.max (hv.sub (releasedQty_atScale h rqstId _))⟩

/-- A warehouse the package takes nothing from keeps what its batches reserve. -/
theorem batchSum_less (hc : t.Consistent) {b : Table ItemBatch} (hk : b.keys = t.itembatch.keys)
    (hb : ∀ k, b.get? k = (t.itembatch.get? k).map (ItemBatch.less (t.releasedQty rqstId k))) {s : StockKey}
    (hs : s ∉ affectedInventory ((currentBatchReservations rqstId t).map ReliefPkgItem.batch)) :
    batchSum b s ItemBatch.reservedQty = batchSum t.itembatch s ItemBatch.reservedQty := by
  refine Table.sum_congr hk fun k r r' hr hr' => ?_
  have hkey : r.key = k := Table.key_of_get? hr
  have hkey' : r'.key = k := Table.key_of_get? hr'
  refine ⟨by rw [hkey, hkey'], fun hsk => ?_⟩
  have hzero : t.releasedQty rqstId k = 0 := by
    refine le_antisymm (not_lt.1 fun hpos => hs ?_) (releasedQty_nonneg hc k)
    obtain ⟨i, hi, rfl⟩ := mem_of_releasedQty hpos
    rw [mem_affectedInventory]
    exact ⟨i.batch, List.mem_map_of_mem hi, hkey ▸ of_decide_eq_true hsk⟩
  have hnn : 0 ≤ r.reservedQty := (hc.batch r (Table.mem_of_get? hr)).2.1.2
  rw [hb, hr, hzero, Option.map_some, Option.some.injEq] at hr'
  rw [← hr']
  simp [ItemBatch.less, hnn]

/-- **A call goes through.** -/
theorem Releasable.ok (h : Releasable t) (hc : t.Consistent) (rqstId : Nat) :
    ∃ t', releaseAllReservations rqstId t = .ok t' ∧ ReleasedFrom t t' rqstId := by
  obtain ⟨b, hb⟩ := Table.forRows_ok releaseBatch_writesOwn (nodup_currentBatchReservations t rqstId)
    (t := t.itembatch) fun i _ => by cases t.itembatch.get? i.batch <;> exact ⟨_, rfl⟩
  have hni := nodup_affectedInventory ((currentBatchReservations rqstId t).map ReliefPkgItem.batch)
  rw [← List.map_id (affectedInventory _)] at hni
  obtain ⟨v, hv⟩ := Table.forRows_ok (releaseTotal_writesOwn b) hni (t := t.inventory) fun s _ => by
    cases t.inventory.get? (id s) with
    | none => exact ⟨_, rfl⟩
    | some v =>
      simp only [releaseTotal]
      split_ifs
      · exact ⟨_, rfl⟩
      · exact ⟨_, rfl⟩
  have hbatch := releaseBatches_ok hc hb
  have hkeys := Table.forRows_keys hb
  refine ⟨{ t with itembatch := b, inventory := v }, ?_, rfl, hkeys, Table.forRows_keys hv, hbatch, fun s => ?_⟩
  · simp only [releaseAllReservations, bind_ok, pure_ok]
    exact ⟨b, hb, v, hv, rfl⟩
  · rcases Table.forRows_get? (releaseTotal_writesOwn b) hv hni s with ⟨hs, hg⟩ | ⟨s', -, he, o, ho, hg⟩
    · rw [List.map_id] at hs
      rw [hg]
      cases hg₀ : t.inventory.get? s with
      | none => rfl
      | some w =>
        have hkey : w.key = s := Table.key_of_get? hg₀
        have htot := h.total w (Table.mem_of_get? hg₀)
        rw [Option.map_some, Option.some.injEq]
        split_ifs with hact
        · rw [batchSum_less hc hkeys hbatch hs, ← hkey, ← htot hact]
        · rfl
    · obtain rfl : s' = s := he
      rw [hg]
      cases hg₀ : t.inventory.get? s' with
      | none =>
        rw [hg₀] at ho
        cases ho
        rfl
      | some w =>
        rw [hg₀] at ho
        simp only [releaseTotal, sumReserved_eq fun r hr => (less_atScale h hbatch r hr).2] at ho
        rw [Option.map_some]
        split_ifs at ho ⊢
        · cases ho
          rfl
        · cases ho
          rfl

/-! ## The committed state -/

theorem ReleasedFrom.releasable (h : ReleasedFrom t t' rqstId) (hr : Releasable t) : Releasable t' := by
  have hrows : t'.reliefpkgItem = t.reliefpkgItem := by rw [h.frame]
  refine ⟨less_atScale hr h.batch, hrows ▸ hr.rowScale, fun v hv hact => ?_⟩
  obtain ⟨v₀, -, he⟩ := Table.exists_of_map (k := v.key) h.total hv rfl
  split_ifs at he with hact₀
  · exact (congrArg Inventory.reservedQty he).symm
  · exact absurd (he ▸ hact) hact₀

/-- What is left on the batches of a warehouse is no more than was there. -/
theorem ReleasedFrom.batchSum_le (h : ReleasedFrom t t' rqstId) (hc : t.Consistent) (s : StockKey) :
    batchSum t'.itembatch s ItemBatch.reservedQty ≤ batchSum t.itembatch s ItemBatch.reservedQty := by
  have hsum : batchSum t'.itembatch s ItemBatch.reservedQty =
      batchSum t.itembatch s fun b => (b.less (t.releasedQty rqstId b.key)).reservedQty :=
    batchSum_congr h.batchKeys (fun k r r' hr hr' => by
      have hk : r.key = k := Table.key_of_get? hr
      rw [h.batch, hr, Option.map_some, Option.some.injEq] at hr'
      rw [← hr', hk]) s
  rw [hsum]
  refine List.sum_le_sum fun b hb => ?_
  have hnn : 0 ≤ b.reservedQty := (hc.batch b (List.mem_filter.1 hb).1).2.1.2
  exact max_le hnn (sub_le_self _ (releasedQty_nonneg hc b.key))

theorem ReleasedFrom.rounded (h : ReleasedFrom t t' rqstId) (hr : Releasable t) (hc : t.Consistent) :
    t'.rounded = t' := by
  have hitems : t'.reliefrqstItem = t.reliefrqstItem := by rw [h.frame]
  have hrows : t'.reliefpkgItem = t.reliefpkgItem := by rw [h.frame]
  refine rounded_eq (fun b hb => ?_) (fun v hv => ?_) (fun i hi => rounded_rqstItem hc (hitems ▸ hi))
    fun i hi => rounded_row hc (hrows ▸ hi)
  · have hq : AtScale 4 b.reservedQty := ((h.releasable hr).batchScale b hb).2.mono (by norm_num)
    obtain ⟨b₀, hb₀, he⟩ := Table.exists_of_map (k := b.key) h.batch hb rfl
    have hm := Table.mem_of_get? hb₀
    rw [← he] at hq ⊢
    exact rounded_batch_with hc hm (batch_atScale hc hm).1 hq
  · obtain ⟨v₀, hv₀, he⟩ := Table.exists_of_map (k := v.key) h.total hv rfl
    have hm := Table.mem_of_get? hv₀
    split_ifs at he with hact
    · have hq : AtScale 2 (batchSum t'.itembatch v.key ItemBatch.reservedQty) :=
        batchSum_atScale (fun b hb => ((h.releasable hr).batchScale b hb).2) _
      rw [← he]
      exact rounded_total_with hc hm (total_atScale hc hm).1 hq
    · rw [← he, rounded_total hc hm]

/-- **One call and its commit.** -/
theorem release_after (hr : Releasable db.tables) (rqstId : Nat) :
    ReleasedFrom db.tables (db.after (releaseAllReservations rqstId)).tables rqstId ∧
    Releasable (db.after (releaseAllReservations rqstId)).tables := by
  have hc := db.consistent
  obtain ⟨t', ht', h⟩ := hr.ok hc rqstId
  have hround := h.rounded hr hc
  have hcon : t'.rounded.Consistent := by
    rw [h.frame]
    refine stock_consistent hc h.batchKeys (fun b hb => ?_) fun v hv => ?_
    · rw [Table.eq_of_mapRows key_rounded_itembatch (congrArg Tables.itembatch hround) b hb]
      obtain ⟨b₀, hb₀, he⟩ := Table.exists_of_map (k := b.key) h.batch hb rfl
      obtain ⟨h1, ⟨h2, h3⟩, h4⟩ := hc.batch b₀ (Table.mem_of_get? hb₀)
      rw [← he]
      have hq : 0 ≤ db.tables.releasedQty rqstId b.key := releasedQty_nonneg hc _
      exact ⟨h1, ⟨max_le h1 ((sub_le_self _ hq).trans h2), le_max_left _ _⟩, h4⟩
    · rw [Table.eq_of_mapRows key_rounded_inventory (congrArg Tables.inventory hround) v hv]
      obtain ⟨v₀, hv₀, he⟩ := Table.exists_of_map (k := v.key) h.total hv rfl
      have hm := Table.mem_of_get? hv₀
      have hkey : v₀.key = v.key := Table.key_of_get? hv₀
      split_ifs at he with hact
      · obtain ⟨h1, h2, h3⟩ := hc.inventory v₀ hm
        rw [← he]
        refine ⟨h1, ?_, h3⟩
        calc batchSum t'.itembatch v.key ItemBatch.reservedQty
            ≤ batchSum db.tables.itembatch v.key ItemBatch.reservedQty := h.batchSum_le hc _
          _ = v₀.reservedQty := by rw [hr.total v₀ hm hact, hkey]
          _ ≤ v₀.usableQty := h2
      · exact he ▸ hc.inventory v₀ hm
  have hexec : db.exec (releaseAllReservations rqstId) = .ok ⟨t'.rounded, hcon⟩ := exec_ok.2 ⟨t', ht', hcon, rfl⟩
  have htables : (db.after (releaseAllReservations rqstId)).tables = t' := by
    rw [Database.after, hexec]
    exact hround
  rw [htables]
  exact ⟨h, h.releasable hr⟩

/-! ## Every further call -/

/-- The package holds all that is reserved on the batches it takes from, and no package of another request has
pledged any of it. -/
def HoldsAlone (t : Tables) (rqstId : Nat) : Prop :=
  ∀ i ∈ currentBatchReservations rqstId t, ∀ b ∈ t.itembatch.get? i.batch,
    b.reservedQty ≤ i.itemQty ∧ t.pledgedByOthers rqstId i.batch = 0

theorem pledgedByOthers_nonneg (hc : t.Consistent) (k : BatchKey) : 0 ≤ t.pledgedByOthers rqstId k := by
  refine List.sum_nonneg fun q hq => ?_
  obtain ⟨p, -, rfl⟩ := List.mem_map.1 hq
  exact pkgQty_nonneg hc.pkgItem p.reliefpkgId k

theorem pledgedByOthers_le (hc : t.Consistent) (k : BatchKey) : t.pledgedByOthers rqstId k ≤ t.pledged k := by
  have hsub : (t.reliefpkg.select fun p => p.statusCode ≠ .dispatched ∧ p.reliefrqstId ≠ rqstId).Sublist
      (t.reliefpkg.select fun p => p.statusCode ≠ .dispatched) := by
    refine List.monotone_filter_right _ fun p hp => ?_
    simp only [decide_eq_true_eq] at hp ⊢
    exact hp.1
  refine (hsub.map _).sum_le_sum fun q hq => ?_
  obtain ⟨p, -, rfl⟩ := List.mem_map.1 hq
  exact pkgQty_nonneg hc.pkgItem p.reliefpkgId k

/-- A call that takes nothing more changes nothing. -/
theorem ReleasedFrom.eq_of_fixed (h : ReleasedFrom t t₂ rqstId) (hr : Releasable t)
    (hfix : ∀ k, ∀ b ∈ t.itembatch.get? k, b.less (t.releasedQty rqstId k) = b) : t₂ = t := by
  have hb : t₂.itembatch = t.itembatch := by
    refine Table.eq_of_get? h.batchKeys fun k => ?_
    rw [h.batch]
    cases hg : t.itembatch.get? k with
    | none => rfl
    | some b => rw [Option.map_some, hfix k b hg]
  have hv : t₂.inventory = t.inventory := by
    refine Table.eq_of_get? h.totalKeys fun s => ?_
    rw [h.total, hb]
    cases hg : t.inventory.get? s with
    | none => rfl
    | some v =>
      have hkey : v.key = s := Table.key_of_get? hg
      have htot := hr.total v (Table.mem_of_get? hg)
      rw [Option.map_some, Option.some.injEq]
      split_ifs with hact
      · rw [← hkey, ← htot hact]
      · rfl
  rw [h.frame, hb, hv]

theorem eq_of_tables {d : Database} (h : db.tables = d.tables) : db = d := by
  cases db
  cases d
  cases h
  rfl

theorem released_succ (db : Database) (rqstId n : Nat) :
    released db rqstId (n + 1) = (released db rqstId n).after (releaseAllReservations rqstId) :=
  Function.iterate_succ_apply' _ _ _

/-- Once a call changed nothing, no further call does. -/
theorem released_fixed (h : released db rqstId 2 = released db rqstId 1) (n : Nat) :
    released db rqstId (n + 1) = released db rqstId 1 := by
  induction n with
  | zero => rfl
  | succ n ih => rw [released_succ, ih, ← released_succ, h]

/-- The first two calls. -/
theorem released_two (h : Reservations db.tables) (rqstId : Nat) :
    ReleasedFrom db.tables (released db rqstId 1).tables rqstId ∧ Releasable (released db rqstId 1).tables ∧
    ReleasedFrom (released db rqstId 1).tables (released db rqstId 2).tables rqstId := by
  obtain ⟨h₁, hr₁⟩ := release_after h.releasable rqstId
  obtain ⟨h₂, -⟩ := release_after hr₁ rqstId
  exact ⟨h₁, hr₁, h₂⟩

theorem holdsAlone_of_releasesOnce (h : Reservations db.tables) (hrel : ReleasesOnce db rqstId) :
    HoldsAlone db.tables rqstId := by
  obtain ⟨h₁, -, h₂⟩ := released_two h rqstId
  intro i hi b hb
  obtain ⟨hq, hpos⟩ := releasedQty_of_mem hi
  have hleft : (released db rqstId 1).tables.itembatch.get? i.batch = some (b.less i.itemQty) := by
    rw [h₁.batch, Option.mem_def.1 hb, hq, Option.map_some]
  -- the second call leaves on the batch what the first one left
  have hagain : (released db rqstId 2).tables.itembatch.get? i.batch = some ((b.less i.itemQty).less i.itemQty) := by
    rw [h₂.batch, hleft, h₁.releasedQty, hq, Option.map_some]
  rw [(hrel 2 (by norm_num)).1, hleft, Option.some.injEq] at hagain
  have hfix : max 0 (b.reservedQty - i.itemQty) = max 0 (max 0 (b.reservedQty - i.itemQty) - i.itemQty) :=
    congrArg ItemBatch.reservedQty hagain
  have hzero : max 0 (b.reservedQty - i.itemQty) = 0 := by
    rcases le_total (max 0 (b.reservedQty - i.itemQty)) i.itemQty with hle | hlt
    · rw [hfix, max_eq_left (sub_nonpos.2 hle)]
    · rw [max_eq_right (sub_nonneg.2 hlt)] at hfix
      linarith
  have hothers := (hrel 1 le_rfl).2 _ (Table.mem_of_get? hleft)
  have hkey : (b.less i.itemQty).key = i.batch := Table.key_of_get? hleft
  rw [hkey, h₁.pledgedByOthers, show (b.less i.itemQty).reservedQty = 0 from hzero] at hothers
  exact ⟨by linarith [le_max_right 0 (b.reservedQty - i.itemQty)],
    le_antisymm hothers (pledgedByOthers_nonneg db.consistent _)⟩

/-- The first call leaves nothing the second one could take. -/
theorem HoldsAlone.fixed (hal : HoldsAlone db.tables rqstId) (h : Reservations db.tables) :
    released db rqstId 2 = released db rqstId 1 := by
  obtain ⟨h₁, hr₁, h₂⟩ := released_two h rqstId
  refine eq_of_tables (h₂.eq_of_fixed hr₁ fun k b hb => ?_)
  rw [h₁.batch, Option.mem_def, Option.map_eq_some_iff] at hb
  obtain ⟨b₀, hb₀, rfl⟩ := hb
  rw [h₁.releasedQty]
  by_cases hpos : 0 < db.tables.releasedQty rqstId k
  · obtain ⟨i, hi, rfl⟩ := mem_of_releasedQty hpos
    have hle := (hal i hi b₀ hb₀).1
    rw [← (releasedQty_of_mem hi).1] at hle
    simp [ItemBatch.less, max_eq_left (sub_nonpos.2 hle), hpos.le]
  · have hzero := le_antisymm (not_lt.1 hpos) (releasedQty_nonneg db.consistent k)
    simp [ItemBatch.less, hzero]

theorem HoldsAlone.spares (hal : HoldsAlone db.tables rqstId) (h : Reservations db.tables) {b : ItemBatch}
    (hb : b ∈ (released db rqstId 1).tables.itembatch.rows) :
    db.tables.pledgedByOthers rqstId b.key ≤ b.reservedQty := by
  have hc := db.consistent
  obtain ⟨h₁, -⟩ := released_two h rqstId
  obtain ⟨b₀, hb₀, he⟩ := Table.exists_of_map (k := b.key) h₁.batch hb rfl
  have hq : b.reservedQty = max 0 (b₀.reservedQty - db.tables.releasedQty rqstId b.key) :=
    (congrArg ItemBatch.reservedQty he).symm
  rw [hq]
  by_cases hpos : 0 < db.tables.releasedQty rqstId b.key
  · obtain ⟨i, hi, hk⟩ := mem_of_releasedQty hpos
    rw [← hk, (hal i hi b₀ (hk ▸ hb₀)).2]
    exact le_max_left _ _
  · have hk : b₀.key = b.key := Table.key_of_get? hb₀
    rw [le_antisymm (not_lt.1 hpos) (releasedQty_nonneg hc _), sub_zero]
    calc db.tables.pledgedByOthers rqstId b.key ≤ db.tables.pledged b.key := pledgedByOthers_le hc b.key
      _ = b₀.reservedQty := by rw [h.batch b₀ (Table.mem_of_get? hb₀), hk]
      _ ≤ max 0 b₀.reservedQty := le_max_right _ _

end

/-- **Releasing is idempotent and takes from nobody else exactly when the package holds its batches alone.** -/
theorem releases_once (db : Database) (h : Reservations db.tables) (rqstId : Nat) :
    ReleasesOnce db rqstId ↔ HoldsAlone db.tables rqstId := by
  refine ⟨holdsAlone_of_releasesOnce h, fun hal n hn => ?_⟩
  obtain ⟨m, rfl⟩ := Nat.exists_eq_add_of_le' hn
  rw [released_fixed (hal.fixed h)]
  refine ⟨rfl, fun b hb => ?_⟩
  rw [(released_two h rqstId).1.pledgedByOthers]
  exact hal.spares h hb

/-- The draft of two units is all that is reserved. -/
theorem releases_once_site : ReleasesOnce Site.drafted 1 :=
  (releases_once Site.drafted ⟨by decide +kernel, by decide +kernel, by decide +kernel, by decide +kernel⟩ 1).2
    (by unfold HoldsAlone; decide +kernel)

/-- Two units for the first request, five for the second. -/
def Site.twoDrafts : Database :=
  run step twoRequests [.preparePackage officer 1 .saveDraft (post 3 .absent 2),
    .preparePackage officer 2 .saveDraft (post 3 .absent 5)]

/-- The second call for the first request takes two of the five units. -/
theorem releases_twice :
    Reservations Site.twoDrafts.tables ∧ ¬ ReleasesOnce Site.twoDrafts 1 ∧
    (released Site.twoDrafts 1 2).tables.itembatch.rows = [{ Site.batch with reservedQty := 3 }] ∧
    (released Site.twoDrafts 1 2).tables.pledgedByOthers 1 ⟨1, 1, 1⟩ = 5 := by
  refine ⟨⟨by decide +kernel, by decide +kernel, by decide +kernel, by decide +kernel⟩, fun h => ?_, by decide +kernel,
    by decide +kernel⟩
  have hb := (h 2 (by norm_num)).2 { Site.batch with reservedQty := 3 } (by decide +kernel)
  revert hb
  decide +kernel

end Dmis
