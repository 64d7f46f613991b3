import Dmis.SavedPlans

/-!
# What is available

A posted quantity is checked against what is left of its batch once the package's own quantity is released
(`validate_batch_allocation`, `batch_allocation_service.py:337-391`). Then the reservations move by the difference of
the new and the old plan, batch by batch, and the totals of the warehouses are recomputed (`reserve_inventory`,
`inventory_reservation_service.py:73-200`).

| here | there |
| --- | --- |
| `validateEntry` | the call of `validate_batch_allocation` in `_process_allocations` (`packaging.py:1880-1905`) |
| `Overdrawn` | the comparison both sides make |

Both sides release what the rows of the package say. A package that was dispatched has rows, and reserves nothing: its
quantities are given out again, to whoever reserved them: `availability_agrees`.
-/

namespace Dmis

open Relational Keyed

/-! ## Both sides -/

/-- `validate_batch_allocation` of an entry, with what the package takes from the batch now. -/
def validateEntry (today : Day) (batches : Table ItemBatch) (old : Allocations) (a : Alloc) : Except Err Unit := do
  let b ← require (batchById batches a.batchId) (.batchNotFound a.batchId)
  validateBatchAllocation today b a.itemId a.allocatedQty (old.qty a.key)

/-- Every entry names the warehouse its batch is in, as `_process_allocations` fills it in. -/
def Placed (batches : Table ItemBatch) (plan : List Alloc) : Prop :=
  ∀ a ∈ plan, ∀ b ∈ batchById batches a.batchId, a.warehouseId = b.inventoryId

/-- Every batch is in a warehouse with an active total. -/
def Stocked (t : Tables) : Prop :=
  ∀ b ∈ t.itembatch.rows, ∃ v ∈ t.inventory.get? b.key.stock, v.statusCode = .active

/-- A plan whose entries pass can be reserved, and an entry for more than the other packages leave is refused by both. -/
structure AvailabilityAgrees (today : Day) (t : Tables) (pkgId : Nat) (plan : List Alloc) : Prop where
  accepted : (∀ a ∈ plan, 0 < a.allocatedQty → validateEntry today t.itembatch (t.allocations pkgId) a = .ok ()) →
    ∃ t', reserveInventory plan (t.allocations pkgId) t = .ok t'
  refused : ∀ a ∈ plan, ∀ b ∈ t.itembatch.get? a.key, b.usableQty - t.heldByOthers pkgId a.key < a.allocatedQty →
    (∃ e, validateEntry today t.itembatch (t.allocations pkgId) a = .error e) ∧
    ∃ e, reserveInventory plan (t.allocations pkgId) t = .error e

/-- More than is left when the package's own quantity is released; nothing is left of a batch that is not there. -/
def Overdrawn (t : Tables) (pkgId : Nat) (a : Alloc) : Prop :=
  ∀ b ∈ t.itembatch.get? a.key, b.usableQty - (b.reservedQty - t.pkgQty pkgId a.key) < a.allocatedQty

/-- An entry of a dispatched package that takes what others have reserved is refused for another reason: it takes even
more than that, or its batch may not be taken from and another entry is overdrawn. -/
def RefusedAnyway (today : Day) (t : Tables) (pkgId : Nat) (plan : List Alloc) : Prop :=
  ∀ a ∈ plan, ∀ b ∈ t.itembatch.get? a.key, b.usableQty - b.reservedQty < a.allocatedQty →
    Overdrawn t pkgId a ∨
      (b.statusCode ≠ .active ∨ b.Expired today) ∧ ∃ c ∈ plan, 0 < c.allocatedQty ∧ Overdrawn t pkgId c

section
variable {today : Day} {t t' : Tables} {plan : List Alloc} {old : Allocations} {pkgId : Nat} {a : Alloc} {k : BatchKey}
  {s : StockKey} {p : ReliefPkg} {b : ItemBatch}

instance (t : Tables) (pkgId : Nat) (a : Alloc) : Decidable (Overdrawn t pkgId a) := by
  unfold Overdrawn; infer_instance

/-! ## Validation -/

theorem batchById_of_mem (hc : t.Consistent) (hb : b ∈ t.itembatch.rows) : batchById t.itembatch b.batchId = some b :=
  find?_of_nodup_map (f := ItemBatch.batchId) hc.pkItembatch hb

/-- An entry is accepted when it is for a batch of its item that may be taken from and has enough left. -/
theorem validateEntry_ok_iff :
    validateEntry today t.itembatch old a = .ok () ↔
      ∃ b, batchById t.itembatch a.batchId = some b ∧ Allocatable today b a.itemId a.allocatedQty (old.qty a.key) := by
  unfold validateEntry
  simp only [bind_ok, require_ok]
  refine exists_congr fun b => and_congr_right fun _ => ⟨validateBatchAllocation_ok, fun h => ?_⟩
  have hfits := not_lt.2 h.fits
  simp only [validateBatchAllocation, bind_ok, check_ok, exists_const]
  exact ⟨h.item, h.active, h.fresh, fun hlt => hfits hlt.1, hfits, h.pos⟩

/-- An entry for an open batch that has enough left is accepted. -/
theorem validateEntry_of_fits (hc : t.Consistent) (hb : t.itembatch.get? a.key = some b) (hpos : 0 < a.allocatedQty)
    (hactive : b.statusCode = .active) (hfresh : ¬ b.Expired today) (h : ¬ Overdrawn t pkgId a) :
    validateEntry today t.itembatch (t.allocations pkgId) a = .ok () := by
  have hk : b.key = a.key := Table.key_of_get? hb
  have hid : b.batchId = a.batchId := congrArg BatchKey.batchId hk
  refine validateEntry_ok_iff.2 ⟨b, hid ▸ batchById_of_mem hc (Table.mem_of_get? hb), congrArg BatchKey.itemId hk,
    hactive, hfresh, ?_, hpos⟩
  rw [Tables.allocations_qty]
  refine not_lt.1 fun hlt => h fun b' hb' => ?_
  cases Option.mem_unique hb hb'
  exact hlt

/-- A batch that may not be taken from is refused. -/
theorem validateEntry_closed (hc : t.Consistent) (hb : t.itembatch.get? a.key = some b)
    (h : b.statusCode ≠ .active ∨ b.Expired today) : ¬ ∃ u, validateEntry today t.itembatch old a = .ok u := by
  rintro ⟨u, hv⟩
  obtain ⟨b', hb', hal⟩ := validateEntry_ok_iff.1 hv
  have hid : b.batchId = a.batchId := congrArg BatchKey.batchId (Table.key_of_get? hb)
  have hsame := batchById_of_mem hc (Table.mem_of_get? hb)
  rw [hid, hb'] at hsame
  cases hsame
  rcases h with h | h
  · exact h hal.active
  · exact hal.fresh h

theorem refused_iff {ε α : Type} {x : Except ε α} : (∃ e, x = .error e) ↔ ¬ ∃ a, x = .ok a := by
  cases x <;> simp

/-- Of a batch the plan names, an accepted entry takes no more than is left. -/
theorem not_overdrawn_of_valid (hp : Placed t.itembatch plan) (ha : a ∈ plan)
    (hv : validateEntry today t.itembatch (t.allocations pkgId) a = .ok ()) :
    t.itembatch.get? a.key ≠ none ∧ ¬ Overdrawn t pkgId a := by
  obtain ⟨b, hb, hal⟩ := validateEntry_ok_iff.1 hv
  obtain ⟨hm, hid⟩ := batchById_eq_some hb
  have hk : b.key = a.key := by
    unfold ItemBatch.key Alloc.key
    rw [hal.item, hid, hp a ha b hb]
  have hg : t.itembatch.get? a.key = some b := hk ▸ Table.get?_key hm
  refine ⟨by simp [hg], fun ho => ?_⟩
  have hfits := hal.fits
  rw [Tables.allocations_qty] at hfits
  exact absurd (ho b hg) (not_lt.2 hfits)

/-! ## Reservation -/

/-- What a plan with distinct batches reserves of a batch is what its entry for it asks for. -/
theorem new_qty_of_mem (hn : (plan.map Alloc.batchId).Nodup) (ha : a ∈ plan) (hpos : 0 < a.allocatedQty) :
    (newBatchReservations plan).qty a.key = a.allocatedQty := by
  have hone : (plan.filter fun c => 0 < c.allocatedQty ∧ c.key = a.key) = [a] := by
    have hkeys : (plan.map Alloc.key).Nodup := List.Nodup.of_map BatchKey.batchId (by rw [List.map_map]; exact hn)
    have hsplit : (fun c : Alloc => decide (0 < c.allocatedQty ∧ c.key = a.key)) =
        fun c => decide (0 < c.allocatedQty) && decide (c.key = a.key) := by
      funext c
      exact Bool.decide_and _ _
    rw [hsplit, ← List.filter_filter, filter_of_nodup_map hkeys, find?_of_nodup_map hkeys ha]
    simp [hpos]
  rw [newBatchReservations_qty, hone]
  rfl

/-- A batch the plan reserves something of has an entry. -/
theorem exists_of_new_qty (h : 0 < (newBatchReservations plan).qty k) :
    ∃ a ∈ plan, a.key = k ∧ 0 < a.allocatedQty ∧ a.allocatedQty = (newBatchReservations plan).qty k := by
  rw [newBatchReservations_qty] at h ⊢
  cases hl : (plan.filter fun c => 0 < c.allocatedQty ∧ c.key = k).getLast? with
  | none =>
    rw [hl] at h
    exact absurd h (lt_irrefl _)
  | some a =>
    obtain ⟨ha, hp⟩ := List.mem_filter.1 (List.mem_of_getLast? hl)
    simp only [decide_eq_true_eq] at hp
    exact ⟨a, ha, hp.2, hp.1, rfl⟩

theorem new_qty_nonneg (plan : List Alloc) (k : BatchKey) : 0 ≤ (newBatchReservations plan).qty k := by
  rw [newBatchReservations_qty]
  cases hl : (plan.filter fun c => 0 < c.allocatedQty ∧ c.key = k).getLast? with
  | none => exact le_rfl
  | some a =>
    have hp := (List.mem_filter.1 (List.mem_of_getLast? hl)).2
    simp only [decide_eq_true_eq] at hp
    exact hp.1.le

theorem exists_of_mem_keys (h : k ∈ (newBatchReservations plan).keys) : ∃ a ∈ plan, a.key = k ∧ 0 < a.allocatedQty := by
  have hg : (newBatchReservations plan).get? k ≠ none := mt Table.get?_eq_none.1 (not_not.2 h)
  rw [newBatchReservations, Table.get?_foldl_upsert] at hg
  cases hl : ((plan.filter (0 < ·.allocatedQty)).filter fun a =>
      decide (Keyed.key (a.key, a.allocatedQty) = k)).getLast? with
  | none =>
    rw [hl] at hg
    exact absurd rfl hg
  | some a =>
    obtain ⟨ha, hk⟩ := List.mem_filter.1 (List.mem_of_getLast? hl)
    obtain ⟨ha, hpos⟩ := List.mem_filter.1 ha
    exact ⟨a, ha, of_decide_eq_true hk, of_decide_eq_true hpos⟩

/-- Where nothing is overdrawn, no batch gets more than it has, and all of them are there. -/
theorem reserveBatch_runs (hc : t.Consistent)
    (hfit : ∀ a ∈ plan, 0 < a.allocatedQty → t.itembatch.get? a.key ≠ none ∧ ¬ Overdrawn t pkgId a) (k : BatchKey) :
    ∃ o, reserveBatch (t.allocations pkgId) (newBatchReservations plan) k (t.itembatch.get? k) = .ok o := by
  have hold : 0 ≤ (t.allocations pkgId).qty k := by
    rw [Tables.allocations_qty]
    exact pkgQty_nonneg hc.pkgItem pkgId k
  unfold reserveBatch
  cases hg : t.itembatch.get? k with
  | none =>
    have hzero : (newBatchReservations plan).qty k = 0 := le_antisymm (not_lt.1 fun hpos => by
      obtain ⟨a, ha, rfl, hq, -⟩ := exists_of_new_qty hpos
      exact (hfit a ha hq).1 hg) (new_qty_nonneg plan k)
    simp only [hzero, zero_sub]
    split_ifs with h0 hpos
    · exact ⟨_, rfl⟩
    · linarith
    · exact ⟨_, rfl⟩
  | some b =>
    have hle : b.reservedQty + ((newBatchReservations plan).qty k - (t.allocations pkgId).qty k) ≤ b.usableQty := by
      have hres := (hc.batch b (Table.mem_of_get? hg)).2.1.1
      rcases (new_qty_nonneg plan k).eq_or_lt with hzero | hpos
      · rw [← hzero]
        linarith
      · obtain ⟨a, ha, rfl, hq, he⟩ := exists_of_new_qty hpos
        obtain ⟨b', hb', hno⟩ : ∃ b' ∈ t.itembatch.get? a.key,
            ¬ b'.usableQty - (b'.reservedQty - t.pkgQty pkgId a.key) < a.allocatedQty := by
          simpa [Overdrawn] using (hfit a ha hq).2
        cases Option.mem_unique hg hb'
        rw [← he, Tables.allocations_qty]
        linarith [not_lt.1 hno]
    dsimp only
    split_ifs with h0 hneg hlt
    · exact ⟨_, rfl⟩
    · exact ⟨_, rfl⟩
    · exact absurd hlt (not_lt.2 hle)
    · exact ⟨_, rfl⟩

/-- A warehouse has room for what its batches have room for. -/
theorem sumReserved_le (hl : StockLedger t) (hc : t.Consistent) {batches : Table ItemBatch}
    (hkeys : batches.keys = t.itembatch.keys)
    (hb : ∀ k b b', t.itembatch.get? k = some b → batches.get? k = some b' → b'.reservedQty ≤ b.usableQty)
    {v : Inventory} (hv : t.inventory.get? s = some v) : sumReserved batches s ≤ v.usableQty := by
  have hkey : v.key = s := Table.key_of_get? hv
  have hcap : sumReserved batches s ≤ batchSum batches s fun b' =>
      ((t.itembatch.get? b'.key).map ItemBatch.usableQty).getD 0 := by
    refine List.sum_le_sum fun b' hb' => ?_
    have hm := (List.mem_filter.1 hb').1
    have hk : b'.key ∈ t.itembatch.keys := hkeys ▸ List.mem_map_of_mem hm
    obtain ⟨b, hbm, hbk⟩ := List.mem_map.1 hk
    have hg : t.itembatch.get? b'.key = some b := Table.get?_eq_some.2 ⟨hbm, hbk⟩
    rw [hg, Option.map_some, Option.getD_some, ← (batch_atScale hc hbm).1]
    exact numeric_mono (hb _ b b' hg (Table.get?_key hm))
  have hsame : (batchSum batches s fun b' => ((t.itembatch.get? b'.key).map ItemBatch.usableQty).getD 0) =
      batchSum t.itembatch s ItemBatch.usableQty :=
    batchSum_congr hkeys (fun k b b' hb hb' => by
      have hk : b'.key = k := Table.key_of_get? hb'
      rw [hk, hb]
      rfl) s
  rw [hl.usableTotal v (Table.mem_of_get? hv), hkey, ← hsame]
  exact hcap

/-- What can be reserved of a batch is there, and not overdrawn. -/
theorem not_overdrawn_of_reserved (hc : t.Consistent) (hn : (plan.map Alloc.batchId).Nodup)
    (h : reserveInventory plan (t.allocations pkgId) t = .ok t') (ha : a ∈ plan) (hpos : 0 < a.allocatedQty) :
    t.itembatch.get? a.key ≠ none ∧ ¬ Overdrawn t pkgId a := by
  have hnew := new_qty_of_mem hn ha hpos
  have hmem : a.key ∈ allBatchKeys (t.allocations pkgId) (newBatchReservations plan) := by
    refine mem_allBatchKeys.2 (.inr ?_)
    by_contra hno
    rw [Allocations.qty_of_not_mem hno] at hnew
    exact hpos.ne hnew
  have hkeys := nodup_allBatchKeys (t.allocations pkgId) (newBatchReservations plan)
  rw [← List.map_id (allBatchKeys _ _)] at hkeys
  simp only [reserveInventory, bind_ok] at h
  obtain ⟨batches, hb, -⟩ := h
  obtain ⟨o, ho, -⟩ := Table.forRows_spec (reserveBatch_writesOwn _ _) hb hkeys a.key hmem
  simp only [id, reserveBatch, hnew, Tables.allocations_qty] at ho
  cases hg : t.itembatch.get? a.key with
  | none =>
    have hold : t.pkgQty pkgId a.key = 0 := by
      by_contra hne
      obtain ⟨i, hi, hk, -⟩ := exists_of_pkgQty_ne_zero hne
      exact Table.get?_eq_none.1 hg (hk ▸ hc.fkBatch i (mem_pkgItems.1 hi).1)
    rw [hg, hold, sub_zero] at ho
    split_ifs at ho with h0
    exact absurd h0 hpos.ne'
  | some b =>
    refine ⟨by simp, fun hover => ?_⟩
    obtain ⟨h0, hres, -⟩ := hc.batch b (Table.mem_of_get? hg)
    have hlt := hover b hg
    rw [hg] at ho
    dsimp only at ho
    split_ifs at ho with h0 hneg hle <;> linarith [hres.1]

/-- The batch loop of `reserve_inventory` leaves on every batch no more reserved than is usable. -/
theorem reserved_le_of_loop (hc : t.Consistent) {new : Allocations} {batches : Table ItemBatch}
    (hb : Table.forRows id (reserveBatch old new) (allBatchKeys old new) t.itembatch = .ok batches) (k : BatchKey)
    (b b' : ItemBatch) (hg : t.itembatch.get? k = some b) (hg' : batches.get? k = some b') :
    b'.reservedQty ≤ b.usableQty := by
  have hkeys := nodup_allBatchKeys old new
  rw [← List.map_id (allBatchKeys _ _)] at hkeys
  obtain ⟨h0, hres, -⟩ := hc.batch b (Table.mem_of_get? hg)
  rcases Table.forRows_get? (reserveBatch_writesOwn old new) hb hkeys k with ⟨-, he⟩ | ⟨x, -, hx, o, ho, he⟩
  · rw [he] at hg'
    cases Option.mem_unique hg hg'
    exact hres.1
  · obtain rfl : x = k := hx
    obtain ⟨hleft, hcap⟩ := reserveBatch_ok ho
    rw [he, hleft, hg, Option.map_some, Option.some.injEq] at hg'
    rw [← hg']
    by_cases hd : new.qty x - old.qty x = 0
    · simp only [bumped, if_pos hd]
      exact hres.1
    · have hle := hcap b hg hd
      rwa [max_eq_right h0] at hle

/-- **A plan can be reserved exactly when no entry of it is overdrawn.** -/
theorem reserveInventory_ok_iff (hl : StockLedger t) (hc : t.Consistent) (hs : Stocked t)
    (hn : (plan.map Alloc.batchId).Nodup) :
    (∃ t', reserveInventory plan (t.allocations pkgId) t = .ok t') ↔
      ∀ a ∈ plan, 0 < a.allocatedQty → t.itembatch.get? a.key ≠ none ∧ ¬ Overdrawn t pkgId a := by
  refine ⟨fun ⟨t', h⟩ a ha hpos => not_overdrawn_of_reserved hc hn h ha hpos, fun hfit => ?_⟩
  have hkeys := nodup_allBatchKeys (t.allocations pkgId) (newBatchReservations plan)
  have htotals := nodup_affectedInventory (allBatchKeys (t.allocations pkgId) (newBatchReservations plan))
  rw [← List.map_id (allBatchKeys _ _)] at hkeys
  rw [← List.map_id (affectedInventory _)] at htotals
  have hw := reserveBatch_writesOwn (t.allocations pkgId) (newBatchReservations plan)
  obtain ⟨batches, hb⟩ := Table.forRows_ok hw hkeys fun k _ => reserveBatch_runs hc hfit k
  have hthere : ∀ k ∈ allBatchKeys (t.allocations pkgId) (newBatchReservations plan), k ∈ t.itembatch.keys := by
    intro k hk
    rcases mem_allBatchKeys.1 hk with hold | hnew
    · obtain ⟨i, hi⟩ := Option.ne_none_iff_exists'.1 (Tables.mem_allocations_keys.1 hold)
      have hik : i.batch = k := congrArg Prod.snd (Table.key_of_get? hi)
      exact hik ▸ hc.fkBatch i (Table.mem_of_get? hi)
    · obtain ⟨a, ha, rfl, hpos⟩ := exists_of_mem_keys hnew
      exact not_not.1 fun hno => (hfit a ha hpos).1 (Table.get?_eq_none.2 hno)
  obtain ⟨totals, hv⟩ := Table.forRows_ok (t := t.inventory) (reserveTotal_writesOwn batches) htotals fun s hm => by
    obtain ⟨k, hk, rfl⟩ := mem_affectedInventory.1 hm
    obtain ⟨b, hbm, hbk⟩ := List.mem_map.1 (hthere k hk)
    have hbk : b.key = k := hbk
    obtain ⟨v, hv, hactive⟩ := hs b hbm
    rw [hbk] at hv
    have hroom := sumReserved_le hl hc (Table.forRows_keys hb) (reserved_le_of_loop hc hb) hv
    refine ⟨some { v with reservedQty := sumReserved batches k.stock }, ?_⟩
    simp only [id, Option.mem_def.1 hv, reserveTotal, ne_eq, hactive, not_true_eq_false, if_false, if_neg (not_lt.2 hroom)]
  refine ⟨{ t with itembatch := batches, inventory := totals }, ?_⟩
  simp only [reserveInventory, bind_ok, pure_ok]
  exact ⟨batches, hb, totals, hv, rfl⟩

/-! ## Agreement -/

theorem dispatched_of_not_open (h : ¬ ∀ p ∈ t.reliefpkg.get? pkgId, p.statusCode ≠ .dispatched) :
    ∀ p ∈ t.reliefpkg.get? pkgId, p.statusCode = .dispatched := by
  push Not at h
  obtain ⟨p, hp, hs⟩ := h
  intro q hq
  cases Option.mem_unique hp hq
  exact hs

/-- A package that is not there, or was dispatched, holds nothing. -/
theorem heldByOthers_of_none (h : ∀ p ∈ t.reliefpkg.get? pkgId, p.statusCode = .dispatched) (k : BatchKey) :
    t.heldByOthers pkgId k = t.pledged k := by
  refine Table.sum_congr rfl fun id p p' hp hp' => ?_
  cases Option.mem_unique hp hp'
  have hid : p.reliefpkgId = id := Table.key_of_get? hp
  refine ⟨decide_eq_decide.2 ⟨And.left, fun hs => ⟨hs, fun he => ?_⟩⟩, fun _ => rfl⟩
  rw [← he, hid] at h
  exact hs (h p hp)

/-- What the other packages leave of a batch is what is left once the package's own quantity is released. -/
theorem heldByOthers_eq (hl : StockLedger t) (hc : t.Consistent) (hb : t.itembatch.get? k = some b)
    (hs : ∀ p ∈ t.reliefpkg.get? pkgId, p.statusCode ≠ .dispatched) :
    t.heldByOthers pkgId k = b.reservedQty - t.pkgQty pkgId k := by
  have hk : b.key = k := Table.key_of_get? hb
  rw [hl.reserved b (Table.mem_of_get? hb), hk]
  cases hp : t.reliefpkg.get? pkgId with
  | none =>
    have hzero : t.pkgQty pkgId k = 0 := by
      by_contra hne
      obtain ⟨i, hi, -⟩ := exists_of_pkgQty_ne_zero hne
      obtain ⟨hm, hid⟩ := mem_pkgItems.1 hi
      exact Table.get?_eq_none.1 hp (hid ▸ hc.fkPkgItem i hm)
    rw [heldByOthers_of_none (by simp [hp]), hzero, sub_zero]
  | some p =>
    have hid : p.reliefpkgId = pkgId := Table.key_of_get? hp
    have hsplit : t.pledged k = t.heldByOthers pkgId k + t.pkgQty p.reliefpkgId k :=
      Table.sum_eq_rest_add (Table.mem_of_get? hp) (by simpa using hs p hp) fun x => by simp [key, hid]
    rw [hsplit, hid, add_sub_cancel_right]

/-- A plan with an overdrawn entry cannot be reserved. -/
theorem Overdrawn.unreserved (hl : StockLedger t) (hc : t.Consistent) (hs : Stocked t)
    (hn : (plan.map Alloc.batchId).Nodup) (ha : a ∈ plan) (hpos : 0 < a.allocatedQty) (h : Overdrawn t pkgId a) :
    ∃ e, reserveInventory plan (t.allocations pkgId) t = .error e := by
  rw [refused_iff, reserveInventory_ok_iff hl hc hs hn]
  exact fun hfit => (hfit a ha hpos).2 h

/-- An overdrawn entry is refused by both. -/
theorem Overdrawn.refused (hl : StockLedger t) (hc : t.Consistent) (hs : Stocked t)
    (hn : (plan.map Alloc.batchId).Nodup) (hp : Placed t.itembatch plan) (ha : a ∈ plan) (hpos : 0 < a.allocatedQty)
    (h : Overdrawn t pkgId a) :
    (∃ e, validateEntry today t.itembatch (t.allocations pkgId) a = .error e) ∧
    ∃ e, reserveInventory plan (t.allocations pkgId) t = .error e := by
  refine ⟨refused_iff.2 ?_, h.unreserved hl hc hs hn ha hpos⟩
  rintro ⟨u, hv⟩
  exact (not_overdrawn_of_valid hp ha hv).2 h

/-- What is taken beyond the reservations of the others is a positive quantity. -/
theorem pos_of_exceeds (hc : t.Consistent) (hb : t.itembatch.get? k = some b) {q : ℚ}
    (h : b.usableQty - b.reservedQty < q) : 0 < q := by
  have hres := (hc.batch b (Table.mem_of_get? hb)).2.1.1
  linarith

end

/-- **Validation and reservation agree on what is available exactly when the package was not dispatched**, or an entry
for what others have reserved is refused for another reason. With more than twelve decimals the differences are not those
of Python's context. -/
theorem availability_agrees (db : Database) (hl : StockLedger db.tables) (hs : Stocked db.tables) (today : Day)
    (pkgId : Nat) (plan : List Alloc) (hn : (plan.map Alloc.batchId).Nodup) (hp : Placed db.tables.itembatch plan)
    (_hdec : ∀ a ∈ plan, AtScale 12 a.allocatedQty) :
    AvailabilityAgrees today db.tables pkgId plan ↔
      ((∀ p ∈ db.tables.reliefpkg.get? pkgId, p.statusCode ≠ .dispatched) ∨
        RefusedAnyway today db.tables pkgId plan) := by
  have hc := db.consistent
  have hready : (∃ t', reserveInventory plan (db.tables.allocations pkgId) db.tables = .ok t') ↔ _ :=
    reserveInventory_ok_iff hl hc hs hn
  constructor
  · intro h
    by_cases hopen : ∀ p ∈ db.tables.reliefpkg.get? pkgId, p.statusCode ≠ .dispatched
    · exact .inl hopen
    · refine .inr fun a ha b hb hlt => ?_
      have hsent := dispatched_of_not_open hopen
      have hheld : db.tables.heldByOthers pkgId a.key = b.reservedQty := by
        have hk : b.key = a.key := Table.key_of_get? hb
        rw [heldByOthers_of_none hsent, hl.reserved b (Table.mem_of_get? hb), hk]
      obtain ⟨hv, hr⟩ := h.refused a ha b hb (by rwa [hheld])
      have hpos := pos_of_exceeds hc hb hlt
      by_cases hover : Overdrawn db.tables pkgId a
      · exact .inl hover
      · refine .inr ⟨?_, ?_⟩
        · by_contra hopen
          push Not at hopen
          exact refused_iff.1 hv ⟨(), validateEntry_of_fits hc hb hpos hopen.1 hopen.2 hover⟩
        · rw [refused_iff, hready] at hr
          push Not at hr
          obtain ⟨c, hc, hcpos, hno⟩ := hr
          refine ⟨c, hc, hcpos, fun b' hb' => ?_⟩
          exact hno (by simp [Option.mem_def.1 hb']) b' hb'
  · intro h
    refine ⟨fun hv => hready.2 fun a ha hpos => not_overdrawn_of_valid hp ha (hv a ha hpos), fun a ha b hb hlt => ?_⟩
    by_cases hopen : ∀ p ∈ db.tables.reliefpkg.get? pkgId, p.statusCode ≠ .dispatched
    · rw [heldByOthers_eq hl hc hb hopen] at hlt
      have hown := pkgQty_nonneg hc.pkgItem pkgId a.key
      refine Overdrawn.refused hl hc hs hn hp ha (pos_of_exceeds hc hb (by linarith)) fun b' hb' => ?_
      cases Option.mem_unique hb hb'
      exact hlt
    · have hsent := dispatched_of_not_open hopen
      have hk : b.key = a.key := Table.key_of_get? hb
      rw [heldByOthers_of_none hsent, ← hk, ← hl.reserved b (Table.mem_of_get? hb)] at hlt
      rcases h.resolve_left hopen a ha b hb hlt with hover | ⟨hclosed, c, hcm, hcpos, hover⟩
      · exact hover.refused hl hc hs hn hp ha (pos_of_exceeds hc hb hlt)
      · exact ⟨refused_iff.2 (validateEntry_closed hc hb hclosed), hover.unreserved hl hc hs hn hcm hcpos⟩

/-- Beside the five units of the second request, five are left for the first. -/
theorem availability_agrees_site :
    AvailabilityAgrees Site.manager.today Site.twoDrafts.tables 1 [⟨1, 1, 1, 6⟩] :=
  (availability_agrees Site.twoDrafts ⟨by decide +kernel, by decide +kernel, by decide +kernel, by decide +kernel⟩
    (by unfold Stocked; decide +kernel) Site.manager.today 1 [⟨1, 1, 1, 6⟩] (by decide)
    (by unfold Placed; decide +kernel) (by decide +kernel)).2 (.inl (by decide +kernel))

/-- The five units of a package that left can be taken again, from those the other package has reserved. -/
theorem availability_taken_again :
    StockLedger Site.shared.tables ∧ Stocked Site.shared.tables ∧
    Site.shared.tables.itembatch.rows = [{ Site.batch with usableQty := 5, reservedQty := 5 }] ∧
    Site.shared.tables.heldByOthers 1 ⟨1, 1, 1⟩ = 5 ∧
    validateEntry Site.manager.today Site.shared.tables.itembatch (Site.shared.tables.allocations 1) ⟨1, 1, 1, 5⟩ = .ok () ∧
    (reserveInventory [⟨1, 1, 1, 5⟩] (Site.shared.tables.allocations 1) Site.shared.tables).isOk = true ∧
    ¬ AvailabilityAgrees Site.manager.today Site.shared.tables 1 [⟨1, 1, 1, 5⟩] := by
  refine ⟨⟨by decide +kernel, by decide +kernel, by decide +kernel, by decide +kernel⟩, by unfold Stocked; decide +kernel,
    by decide +kernel, by decide +kernel, by decide +kernel, by decide +kernel, fun h => ?_⟩
  have hv : validateEntry Site.manager.today Site.shared.tables.itembatch (Site.shared.tables.allocations 1)
      ⟨1, 1, 1, 5⟩ = .ok () := by decide +kernel
  obtain ⟨⟨e, he⟩, -⟩ := h.refused ⟨1, 1, 1, 5⟩ List.mem_cons_self
    { Site.batch with usableQty := 5, reservedQty := 5 } (by decide +kernel) (by decide +kernel)
  rw [hv] at he
  cases he

end Dmis
