import Dmis.BatchAllocation

/-!
# The batches of the drawer

`get_limited_batches_for_drawer` (`app/services/batch_allocation_service.py:420-580`): the batches shown for an item,
of every warehouse the first ones until they hold what remains, and always those the package already takes from.

| here | there |
| --- | --- |
| `getAllocatedBatches` | the second query (`:465-485`) |
| `sortBatchesForDrawer` | `sort_batches_for_drawer` (`:104-160`) |
| `effectiveQty` | `calc_available_qty` (`:495-497`) |
| `addBatch` | an iteration of the grouping loop (`:501-522`) |

Stopping early loses nothing (`drawer_loses_nothing`). That allocated batches are always shown holds as long as none of
them has expired (`allocated_batches_shown`): the sort drops what has, allocated or not.
-/

namespace Dmis

open Relational Keyed

/-! ## Translation -/

/-- The batches of an item the package takes from, whatever is free of them. -/
def getAllocatedBatches (cat : Catalog) (itemId : Nat) (allocatedBatchIds : List Nat) (t : Tables) : List ItemBatch :=
  t.itembatch.select fun b => b.batchId ∈ allocatedBatchIds ∧ b.itemId = itemId ∧ InStock cat t b

def sortBatchesForDrawer (today : Day) (batches : List ItemBatch) (item : Item) (allocatedBatchIds : List Nat) :
    List ItemBatch :=
  let activeBatches := (unexpired today item batches).filter fun b =>
    0 < b.availableQty ∨ b.batchId ∈ allocatedBatchIds
  if item.canExpireFlag then
    sortOn (fun b => toLex (b.expiryDate.isNone, toLex (b.expiryDate.getD dateMax, b.batchDate.getD dateMax)))
      activeBatches
  else sortOn (fun b => b.batchDate.getD dateMin) activeBatches

/-- What is free once the package's own quantity is released. -/
def effectiveQty (currentAllocations : Nat → Option ℚ) (b : ItemBatch) : ℚ :=
  b.usableQty - (b.reservedQty - (currentAllocations b.batchId).getD 0)

structure WarehouseGroup where
  batches : List ItemBatch
  totalAvailable : ℚ
  hasAllocatedBatches : Bool
  deriving DecidableEq, Repr

def WarehouseGroup.empty : WarehouseGroup := ⟨[], 0, false⟩

/-- What has nothing free is skipped, unless it is allocated. -/
def addBatch (availableQty : ItemBatch → ℚ) (allocatedBatchIds : List Nat) (g : WarehouseGroup) (b : ItemBatch) :
    WarehouseGroup :=
  if availableQty b ≤ 0 ∧ b.batchId ∉ allocatedBatchIds then g
  else
    { batches := g.batches ++ [b]
      totalAvailable := g.totalAvailable + max 0 (availableQty b)
      hasAllocatedBatches := g.hasAllocatedBatches || decide (b.batchId ∈ allocatedBatchIds) }

/-- What the two queries answered, the second without what is in the first. -/
def mergeBatches (available allocated : List ItemBatch) : List ItemBatch :=
  available ++ allocated.filter fun b => b.batchId ∉ available.map ItemBatch.batchId

/-- The shown batches, what is available of them and what is missing. `available` and `allocated` are what the two
queries answered. -/
def getLimitedBatchesForDrawer (today : Day) (cat : Catalog) (available allocated : List ItemBatch) (itemId : Nat)
    (remainingQty : ℚ) (allocatedBatchIds : List Nat) (currentAllocations : Nat → Option ℚ) :
    List ItemBatch × ℚ × ℚ :=
  match cat.item.get? itemId with
  | none => ([], 0, remainingQty)
  | some item =>
    let availableQty := effectiveQty currentAllocations
    let allBatches := if allocatedBatchIds = [] then available else mergeBatches available allocated
    let warehouseGroups := (groupsOf ItemBatch.inventoryId (addBatch availableQty allocatedBatchIds)
      WarehouseGroup.empty allBatches).filter fun g => 0 < g.2.totalAvailable ∨ g.2.hasAllocatedBatches
    let limitedBatches := warehouseGroups.flatMap fun g =>
      limit (fun b => b.batchId ∈ allocatedBatchIds) availableQty remainingQty 0 false
        (sortBatchesForDrawer today g.2.batches item allocatedBatchIds)
    let cumulativeAvailable := (limitedBatches.map availableQty).sum
    (limitedBatches, cumulativeAvailable, max 0 (remainingQty - cumulativeAvailable))

/-! ## What the drawer should show -/

/-- Returned by one of the queries, and kept by the filters of the sort. -/
def DrawerEligible (today : Day) (cat : Catalog) (item : Item) (requiredUom : Option String)
    (allocatedBatchIds : List Nat) (t : Tables) (b : ItemBatch) : Prop :=
  (b ∈ getAvailableBatches cat item.itemId none requiredUom t ∨ b ∈ getAllocatedBatches cat item.itemId allocatedBatchIds t) ∧
  (item.canExpireFlag → ¬ b.Expired today) ∧ (0 < b.availableQty ∨ b.batchId ∈ allocatedBatchIds)

instance (today : Day) (cat : Catalog) (item : Item) (requiredUom : Option String) (ids : List Nat) (t : Tables)
    (b : ItemBatch) : Decidable (DrawerEligible today cat item requiredUom ids t b) := by
  unfold DrawerEligible; infer_instance

def drawerEligible (today : Day) (cat : Catalog) (item : Item) (requiredUom : Option String)
    (allocatedBatchIds : List Nat) (t : Tables) : List ItemBatch :=
  t.itembatch.select fun b => DrawerEligible today cat item requiredUom allocatedBatchIds t b

/-- Drawer order: earliest expiry, then batch date, for what can expire; else the earliest batch date. -/
def Item.DrawerPrecedes (item : Item) (b c : ItemBatch) : Prop :=
  if item.canExpireFlag then
    ExpiresBefore b c ∨ (b.expiryDate = c.expiryDate ∧ b.batchDate.getD dateMax < c.batchDate.getD dateMax)
  else b.batchDate.getD dateMin < c.batchDate.getD dateMin

/-- The shown batches, a part of the eligible ones, say how much is missing as all of them would: a warehouse shows all
it has or enough, and the first ones in drawer order. -/
structure LosesNothing (item : Item) (allocatedBatchIds : List Nat) (availableQty : ItemBatch → ℚ) (remainingQty : ℚ)
    (eligible shown : List ItemBatch) (shortfall : ℚ) : Prop where
  distinct : (shown.map ItemBatch.batchId).Nodup
  subset : ∀ b ∈ shown, b ∈ eligible
  shortfall : shortfall = max 0 (remainingQty - (eligible.map availableQty).sum)
  perWarehouse : ∀ w, (∀ b ∈ eligible, b.inventoryId = w → b ∈ shown) ∨
    remainingQty ≤ ((shown.filter fun b => b.inventoryId = w).map availableQty).sum
  inOrder : ∀ b ∈ eligible, ∀ c ∈ eligible, b.inventoryId = c.inventoryId → b.batchId ∉ allocatedBatchIds →
    c.batchId ∉ allocatedBatchIds → item.DrawerPrecedes b c → b ∉ shown → c ∉ shown

section
variable {today : Day} {cat : Catalog} {t : Tables} {item : Item} {batches available allocated all : List ItemBatch}
  {b c : ItemBatch} {requiredUom : Option String} {ids : List Nat} {availableQty : ItemBatch → ℚ} {r : ℚ} {w : Nat}

theorem mem_getAllocatedBatches : b ∈ getAllocatedBatches cat item.itemId ids t ↔
    b ∈ t.itembatch.rows ∧ b.batchId ∈ ids ∧ b.itemId = item.itemId ∧ InStock cat t b := by
  simp [getAllocatedBatches, Table.select]

theorem sortBatchesForDrawer_perm (today : Day) (batches : List ItemBatch) (item : Item) (ids : List Nat) :
    (sortBatchesForDrawer today batches item ids).Perm
      ((batches.filter fun b => item.canExpireFlag → ¬ b.Expired today).filter fun b =>
        0 < b.availableQty ∨ b.batchId ∈ ids) := by
  unfold sortBatchesForDrawer
  rw [unexpired_eq]
  dsimp only
  split_ifs <;> exact sortOn_perm _ _

/-- **The drawer sorts by its order.** -/
theorem sortBatchesForDrawer_pairwise (today : Day) (batches : List ItemBatch) (item : Item) (ids : List Nat) :
    (sortBatchesForDrawer today batches item ids).Pairwise fun b c => ¬ item.DrawerPrecedes c b := by
  unfold sortBatchesForDrawer Item.DrawerPrecedes
  dsimp only
  split_ifs with hexp
  · refine (sortOn_pairwise _ _).imp fun {b c} h => ?_
    obtain ⟨hexp, hdate⟩ := not_before_of_expiry_le h
    rw [not_or, not_and, not_lt]
    exact ⟨hexp, hdate⟩
  · refine (sortOn_pairwise _ _).imp fun {b c} h => not_lt.2 ?_
    exact h

theorem mem_sortBatchesForDrawer : b ∈ sortBatchesForDrawer today batches item ids ↔
    b ∈ batches ∧ (item.canExpireFlag → ¬ b.Expired today) ∧ (0 < b.availableQty ∨ b.batchId ∈ ids) := by
  rw [(sortBatchesForDrawer_perm today batches item ids).mem_iff]
  simp only [List.mem_filter, decide_eq_true_eq, and_assoc]

/-! ## Groups -/

/-- Not skipped by the grouping loop. -/
def Kept (availableQty : ItemBatch → ℚ) (ids : List Nat) (b : ItemBatch) : Prop := 0 < availableQty b ∨ b.batchId ∈ ids

instance : DecidablePred (Kept availableQty ids) := fun b => by unfold Kept; infer_instance

theorem addBatch_eq (g : WarehouseGroup) (b : ItemBatch) :
    addBatch availableQty ids g b = if Kept availableQty ids b then
      { batches := g.batches ++ [b]
        totalAvailable := g.totalAvailable + max 0 (availableQty b)
        hasAllocatedBatches := g.hasAllocatedBatches || decide (b.batchId ∈ ids) } else g := by
  unfold addBatch
  by_cases h : Kept availableQty ids b
  · rw [if_pos h, if_neg fun hno => h.elim (not_lt.2 hno.1) hno.2]
  · rw [if_neg h, if_pos ⟨not_lt.1 fun hlt => h (.inl hlt), fun hm => h (.inr hm)⟩]

/-- What a group holds once some batches of its warehouse were added. -/
theorem foldl_addBatch (availableQty : ItemBatch → ℚ) (ids : List Nat) (l : List ItemBatch) (g : WarehouseGroup) :
    (l.foldl (addBatch availableQty ids) g).batches = g.batches ++ l.filter (Kept availableQty ids) ∧
    (g.totalAvailable ≤ (l.foldl (addBatch availableQty ids) g).totalAvailable) ∧
    (g.hasAllocatedBatches = true → (l.foldl (addBatch availableQty ids) g).hasAllocatedBatches = true) ∧
    ∀ b ∈ l, Kept availableQty ids b → g.totalAvailable < (l.foldl (addBatch availableQty ids) g).totalAvailable ∨
      (l.foldl (addBatch availableQty ids) g).hasAllocatedBatches = true := by
  induction l generalizing g with
  | nil => simp
  | cons a l ih =>
    obtain ⟨hb, ht, ha, hk⟩ := ih (addBatch availableQty ids g a)
    rw [List.foldl_cons]
    rw [addBatch_eq] at hb ht ha hk ⊢
    by_cases hkept : Kept availableQty ids a
    · rw [if_pos hkept] at hb ht ha hk ⊢
      have hmax : 0 ≤ max 0 (availableQty a) := le_max_left _ _
      refine ⟨by simpa [hkept] using hb, by linarith, fun h => ha (by simp [h]), fun b hm hb' => ?_⟩
      rcases List.mem_cons.1 hm with rfl | hm
      · rcases hkept with hpos | hid
        · have := le_max_right 0 (availableQty b)
          exact .inl (by linarith)
        · exact .inr (ha (by simp [hid]))
      · exact (hk b hm hb').imp_left fun h => by linarith
    · rw [if_neg hkept] at hb ht ha hk ⊢
      refine ⟨by simpa [hkept] using hb, ht, ha, fun b hm hb' => ?_⟩
      rcases List.mem_cons.1 hm with rfl | hm
      · exact absurd hb' hkept
      · exact hk b hm hb'

/-- The shown batches of a warehouse, before any is left out. -/
def drawerOf (today : Day) (item : Item) (ids : List Nat) (availableQty : ItemBatch → ℚ) (all : List ItemBatch)
    (w : Nat) : List ItemBatch :=
  sortBatchesForDrawer today ((all.filter fun b => b.inventoryId = w).filter (Kept availableQty ids)) item ids

theorem mem_drawerOf : b ∈ drawerOf today item ids availableQty all w ↔
    b ∈ all ∧ b.inventoryId = w ∧ Kept availableQty ids b ∧ (item.canExpireFlag → ¬ b.Expired today) ∧
    (0 < b.availableQty ∨ b.batchId ∈ ids) := by
  simp only [drawerOf, mem_sortBatchesForDrawer, List.mem_filter, decide_eq_true_eq, and_assoc]

theorem drawerOf_nodup (h : all.Nodup) : (drawerOf today item ids availableQty all w).Nodup :=
  (sortBatchesForDrawer_perm _ _ _ _).nodup_iff.2 ((((h.filter _).filter _).filter _).filter _)

/-- What the drawer shows of a warehouse. -/
def shownOf (today : Day) (item : Item) (ids : List Nat) (availableQty : ItemBatch → ℚ) (r : ℚ) (all : List ItemBatch)
    (w : Nat) : List ItemBatch :=
  limit (fun b => b.batchId ∈ ids) availableQty r 0 false (drawerOf today item ids availableQty all w)

theorem shownOf_subset (h : b ∈ shownOf today item ids availableQty r all w) :
    b ∈ drawerOf today item ids availableQty all w := (limit_sublist _ _ _ _ _ _).subset h

/-- The warehouses in the order they come up in. -/
def warehousesOf (availableQty : ItemBatch → ℚ) (ids : List Nat) (all : List ItemBatch) : List Nat :=
  (groupsOf ItemBatch.inventoryId (addBatch availableQty ids) .empty all).map Prod.fst

/-- A warehouse that is filtered out would show nothing. -/
theorem limited_eq (today : Day) (item : Item) (ids : List Nat) (availableQty : ItemBatch → ℚ) (r : ℚ)
    (all : List ItemBatch) :
    (((groupsOf ItemBatch.inventoryId (addBatch availableQty ids) WarehouseGroup.empty all).filter fun g =>
        0 < g.2.totalAvailable ∨ g.2.hasAllocatedBatches).flatMap fun g =>
      limit (fun b => b.batchId ∈ ids) availableQty r 0 false (sortBatchesForDrawer today g.2.batches item ids)) =
    (warehousesOf availableQty ids all).flatMap (shownOf today item ids availableQty r all) := by
  have hgroup : ∀ g ∈ groupsOf ItemBatch.inventoryId (addBatch availableQty ids) WarehouseGroup.empty all,
      g.2.batches = (all.filter fun b => b.inventoryId = g.1).filter (Kept availableQty ids) ∧
      (¬ (0 < g.2.totalAvailable ∨ g.2.hasAllocatedBatches) → g.2.batches = []) := by
    rintro ⟨w, g⟩ hg
    obtain ⟨-, rfl⟩ := mem_groupsOf.1 hg
    obtain ⟨hb, -, -, hk⟩ := foldl_addBatch availableQty ids
      (all.filter fun b => b.inventoryId = w) .empty
    rw [show WarehouseGroup.empty.batches = [] from rfl, List.nil_append] at hb
    refine ⟨hb, fun hno => ?_⟩
    rw [hb, List.filter_eq_nil_iff]
    exact fun b hm hkept => hno (hk b hm (of_decide_eq_true hkept))
  unfold warehousesOf
  generalize groupsOf ItemBatch.inventoryId (addBatch availableQty ids) WarehouseGroup.empty all = groups at hgroup
  induction groups with
  | nil => rfl
  | cons g groups ih =>
    obtain ⟨⟨hb, hempty⟩, hgroups⟩ := List.forall_mem_cons.1 hgroup
    rw [List.map_cons, List.flatMap_cons, ← ih hgroups, shownOf, drawerOf, ← hb]
    by_cases h : 0 < g.2.totalAvailable ∨ g.2.hasAllocatedBatches
    · rw [List.filter_cons_of_pos (by simpa using h), List.flatMap_cons]
    · rw [List.filter_cons_of_neg (by simpa using h), hempty h]
      have hnil : sortBatchesForDrawer today [] item ids = [] :=
        List.eq_nil_iff_forall_not_mem.2 fun b hb => by simpa using (mem_sortBatchesForDrawer.1 hb).1
      rw [hnil]
      rfl

/-- A batch is shown with its own warehouse. -/
theorem mem_shown : b ∈ (warehousesOf availableQty ids all).flatMap (shownOf today item ids availableQty r all) ↔
    b ∈ shownOf today item ids availableQty r all b.inventoryId := by
  rw [List.mem_flatMap]
  constructor
  · rintro ⟨w, -, hb⟩
    obtain rfl := (mem_drawerOf.1 (shownOf_subset hb)).2.1
    exact hb
  · intro hb
    refine ⟨b.inventoryId, ((keys_groupsOf _ _ _ _).2 _).2 (List.mem_map_of_mem ?_), hb⟩
    exact (mem_drawerOf.1 (shownOf_subset hb)).1

theorem shown_nodup (h : all.Nodup) :
    ((warehousesOf availableQty ids all).flatMap (shownOf today item ids availableQty r all)).Nodup := by
  rw [List.nodup_flatMap]
  refine ⟨fun w _ => (limit_sublist _ _ _ _ _ _).nodup (drawerOf_nodup h), ?_⟩
  refine (keys_groupsOf _ _ _ _).1.imp fun hne b hb hb' => hne ?_
  exact (mem_drawerOf.1 (shownOf_subset hb)).2.1.symm.trans (mem_drawerOf.1 (shownOf_subset hb')).2.1

/-- What a warehouse shows is what is shown of it. -/
theorem filter_shown (h : all.Nodup) (w : Nat) :
    (((warehousesOf availableQty ids all).flatMap (shownOf today item ids availableQty r all)).filter fun b =>
      b.inventoryId = w).Perm (shownOf today item ids availableQty r all w) := by
  refine (List.perm_ext_iff_of_nodup ((shown_nodup h).filter _)
    ((limit_sublist _ _ _ _ _ _).nodup (drawerOf_nodup h))).2 fun b => ?_
  rw [List.mem_filter, mem_shown, decide_eq_true_eq]
  constructor
  · rintro ⟨hb, rfl⟩
    exact hb
  · intro hb
    obtain rfl := (mem_drawerOf.1 (shownOf_subset hb)).2.1
    exact ⟨hb, rfl⟩

/-! ## The queries -/

/-- The batches the loops go through. -/
def allBatches (available allocated : List ItemBatch) (ids : List Nat) : List ItemBatch :=
  if ids = [] then available else mergeBatches available allocated

/-- What the two queries answered, in any order. -/
structure Answers (cat : Catalog) (item : Item) (requiredUom : Option String) (ids : List Nat) (t : Tables)
    (available allocated : List ItemBatch) : Prop where
  available : available.Perm (getAvailableBatches cat item.itemId none requiredUom t)
  allocated : allocated.Perm (getAllocatedBatches cat item.itemId ids t)

theorem batch_eq_of_id (hc : t.Consistent) (hb : b ∈ t.itembatch.rows) (hm : c ∈ t.itembatch.rows)
    (h : b.batchId = c.batchId) : b = c := List.inj_on_of_nodup_map hc.pkItembatch hb hm h

theorem mem_allBatches (hc : t.Consistent) (ha : Answers cat item requiredUom ids t available allocated) :
    b ∈ allBatches available allocated ids ↔
      b ∈ getAvailableBatches cat item.itemId none requiredUom t ∨ b ∈ getAllocatedBatches cat item.itemId ids t := by
  unfold allBatches mergeBatches
  split_ifs with hids
  · rw [ha.available.mem_iff, mem_getAllocatedBatches, hids]
    simp
  · rw [List.mem_append, List.mem_filter, ha.available.mem_iff, ha.allocated.mem_iff, decide_eq_true_eq]
    refine ⟨Or.imp_right And.left, fun h => ?_⟩
    by_cases hm : b ∈ getAvailableBatches cat item.itemId none requiredUom t
    · exact .inl hm
    · refine h.imp_right fun hb => ⟨hb, fun hid => hm ?_⟩
      obtain ⟨c, hcm, hcb⟩ := List.mem_map.1 hid
      have hcm := ha.available.mem_iff.1 hcm
      have := batch_eq_of_id hc (mem_getAllocatedBatches.1 hb).1 (mem_getAvailableBatches.1 hcm).1 hcb.symm
      exact this ▸ hcm

theorem allBatches_nodup (hc : t.Consistent) (ha : Answers cat item requiredUom ids t available allocated) :
    (allBatches available allocated ids).Nodup := by
  have hrows : t.itembatch.rows.Nodup := hc.pkItembatch.of_map
  have hav : available.Nodup := ha.available.nodup_iff.2 (hrows.filter _)
  have hal : allocated.Nodup := ha.allocated.nodup_iff.2 (hrows.filter _)
  unfold allBatches mergeBatches
  split_ifs
  · exact hav
  · refine List.nodup_append.2 ⟨hav, hal.filter _, fun b hb c hm he => ?_⟩
    have := of_decide_eq_true (List.mem_filter.1 hm).2
    exact this (he ▸ List.mem_map_of_mem hb)

theorem getLimited_eq {current : Nat → Option ℚ} (hi : cat.item.get? item.itemId = some item) :
    (getLimitedBatchesForDrawer today cat available allocated item.itemId r ids current).1 =
      (warehousesOf (effectiveQty current) ids (allBatches available allocated ids)).flatMap
        (shownOf today item ids (effectiveQty current) r (allBatches available allocated ids)) := by
  unfold getLimitedBatchesForDrawer
  rw [hi]
  exact limited_eq _ _ _ _ _ _

theorem shortfall_eq {current : Nat → Option ℚ} (hi : cat.item.get? item.itemId = some item) :
    (getLimitedBatchesForDrawer today cat available allocated item.itemId r ids current).2.2 =
      max 0 (r - ((getLimitedBatchesForDrawer today cat available allocated item.itemId r ids current).1.map
        (effectiveQty current)).sum) := by
  unfold getLimitedBatchesForDrawer
  rw [hi]

theorem mem_drawerEligible : b ∈ drawerEligible today cat item requiredUom ids t ↔
    DrawerEligible today cat item requiredUom ids t b := by
  simp only [drawerEligible, Table.select, List.mem_filter, decide_eq_true_eq, and_iff_right_iff_imp]
  rintro ⟨hb | hb, -⟩
  · exact (mem_getAvailableBatches.1 hb).1
  · exact (mem_getAllocatedBatches.1 hb).1

/-- With current allocations of allocated batches only, the grouping loop skips nothing that is eligible. -/
theorem mem_drawerOf_iff {current : Nat → Option ℚ} (hc : t.Consistent)
    (ha : Answers cat item requiredUom ids t available allocated) (hcur : ∀ id, current id ≠ none → id ∈ ids) :
    b ∈ drawerOf today item ids (effectiveQty current) (allBatches available allocated ids) w ↔
      b ∈ drawerEligible today cat item requiredUom ids t ∧ b.inventoryId = w := by
  rw [mem_drawerOf, mem_allBatches hc ha, mem_drawerEligible]
  constructor
  · rintro ⟨hb, hw, -, hfresh, hfree⟩
    exact ⟨⟨hb, hfresh, hfree⟩, hw⟩
  · rintro ⟨⟨hb, hfresh, hfree⟩, hw⟩
    refine ⟨hb, hw, ?_, hfresh, hfree⟩
    by_cases hid : b.batchId ∈ ids
    · exact .inr hid
    · have hnone : current b.batchId = none := not_not.1 fun h => hid (hcur _ h)
      refine .inl ?_
      rw [effectiveQty, hnone, Option.getD_none, sub_zero]
      exact hfree.resolve_right hid

/-- An allocated batch is left out by the expiry filter only. -/
theorem mem_shown_of_allocated (r : ℚ) (current : Nat → Option ℚ) (hc : t.Consistent)
    (ha : Answers cat item requiredUom ids t available allocated)
    (hb : b ∈ getAllocatedBatches cat item.itemId ids t) :
    b ∈ (warehousesOf (effectiveQty current) ids (allBatches available allocated ids)).flatMap
        (shownOf today item ids (effectiveQty current) r (allBatches available allocated ids)) ↔
      (item.canExpireFlag → ¬ b.Expired today) := by
  have hid := (mem_getAllocatedBatches.1 hb).2.1
  rw [mem_shown]
  refine ⟨fun h => (mem_drawerOf.1 (shownOf_subset h)).2.2.2.1, fun h => mem_limit_of_forced ?_ hid⟩
  exact mem_drawerOf.2 ⟨(mem_allBatches hc ha).2 (.inr hb), rfl, .inr hid, h, .inr hid⟩

/-- A part of a list of distinct batches holds no more than the list. -/
theorem sum_le_of_subset (availableQty : ItemBatch → ℚ) {l l' : List ItemBatch} (hn : l.Nodup) (hs : ∀ b ∈ l, b ∈ l')
    (h0 : ∀ b ∈ l', 0 ≤ availableQty b) : (l.map availableQty).sum ≤ (l'.map availableQty).sum :=
  sum_le_of_entries (f := id) (g := id) (by rwa [List.map_id]) h0 fun b hb _ => ⟨b, hs b hb, rfl, le_rfl⟩

end

namespace Site

/-- A batch that expires after day 120, and a draft of two units of it. -/
def expiring : Database :=
  step ⟨{ tables with itembatch := ⟨[{ batch with expiryDate := some 120 }], by decide⟩ }, by decide +kernel⟩
    (.preparePackage officer 1 .saveDraft (post 3 .absent 2))

def expiringBatch : ItemBatch := { batch with expiryDate := some 120, reservedQty := 2 }

end Site

/-- **Stopping early loses nothing.** -/
theorem drawer_loses_nothing (db : Database) (cat : Catalog) (today : Day) (item : Item)
    (hi : cat.item.get? item.itemId = some item) (requiredUom : Option String) (ids : List Nat)
    (available allocated : List ItemBatch) (ha : Answers cat item requiredUom ids db.tables available allocated)
    (remainingQty : ℚ) (current : Nat → Option ℚ) (hcur : ∀ id, current id ≠ none → id ∈ ids)
    (hpos : ∀ b ∈ drawerEligible today cat item requiredUom ids db.tables, 0 ≤ effectiveQty current b) :
    LosesNothing item ids (effectiveQty current) remainingQty
      (drawerEligible today cat item requiredUom ids db.tables)
      (getLimitedBatchesForDrawer today cat available allocated item.itemId remainingQty ids current).1
      (getLimitedBatchesForDrawer today cat available allocated item.itemId remainingQty ids current).2.2 := by
  have hc := db.consistent
  have hall := allBatches_nodup hc ha
  have hrow : ∀ b ∈ drawerEligible today cat item requiredUom ids db.tables, b ∈ db.tables.itembatch.rows :=
    fun b hb => (List.mem_filter.1 hb).1
  have hdrawer : ∀ b w, b ∈ drawerOf today item ids (effectiveQty current) (allBatches available allocated ids) w ↔ _ :=
    fun b w => mem_drawerOf_iff hc ha hcur
  rw [shortfall_eq hi, getLimited_eq hi]
  set shown := (warehousesOf (effectiveQty current) ids (allBatches available allocated ids)).flatMap
    (shownOf today item ids (effectiveQty current) remainingQty (allBatches available allocated ids)) with hshown
  have hnodup : shown.Nodup := shown_nodup hall
  have hsub : ∀ b ∈ shown, b ∈ drawerEligible today cat item requiredUom ids db.tables := fun b hb =>
    ((hdrawer b b.inventoryId).1 (shownOf_subset (mem_shown.1 hb))).1
  have hwarehouse : ∀ w, (∀ b ∈ drawerEligible today cat item requiredUom ids db.tables, b.inventoryId = w → b ∈ shown) ∨
      remainingQty ≤ ((shown.filter fun b => b.inventoryId = w).map (effectiveQty current)).sum := by
    intro w
    have hnonneg : ∀ b ∈ drawerOf today item ids (effectiveQty current) (allBatches available allocated ids) w,
        0 ≤ effectiveQty current b := fun b hb => hpos b ((hdrawer b w).1 hb).1
    have hlimit := limit_all_or_reaches (fun b : ItemBatch => b.batchId ∈ ids) remainingQty (0 : ℚ) false hnonneg
      fun h => Bool.noConfusion h
    rw [((filter_shown hall w).map (effectiveQty current)).sum_eq]
    refine hlimit.imp (fun hfull b hb hw => mem_shown.2 ?_) fun h => by rwa [zero_add] at h
    subst hw
    rw [shownOf, hfull]
    exact (hdrawer b _).2 ⟨hb, rfl⟩
  refine ⟨?_, hsub, ?_, hwarehouse, fun b hb c hm hw hfb hfc hbc hno => ?_⟩
  · exact hnodup.map_on fun b hb c hm he => batch_eq_of_id hc (hrow b (hsub b hb)) (hrow c (hsub c hm)) he
  · by_cases hfull : ∀ b ∈ drawerEligible today cat item requiredUom ids db.tables, b ∈ shown
    · have hperm : shown.Perm (drawerEligible today cat item requiredUom ids db.tables) :=
        (List.perm_ext_iff_of_nodup hnodup ((hc.pkItembatch.of_map).filter _)).2 fun b => ⟨hsub b, hfull b⟩
      rw [(hperm.map (effectiveQty current)).sum_eq]
    · -- something is left out of a warehouse, so that one alone has enough
      push Not at hfull
      obtain ⟨b, hb, hno⟩ := hfull
      have hreach := (hwarehouse b.inventoryId).resolve_left fun h => hno (h b hb rfl)
      have hpart := sum_le_of_subset (effectiveQty current) (hnodup.filter fun c => c.inventoryId = b.inventoryId)
        (fun c hc => (List.mem_filter.1 hc).1) fun c hc => hpos c (hsub c hc)
      have hwhole := sum_le_of_subset (effectiveQty current) hnodup hsub hpos
      rw [max_eq_left (by linarith), max_eq_left (by linarith)]
  · rw [mem_shown] at hno ⊢
    rw [← hw]
    have hsorted := sortBatchesForDrawer_pairwise today (((allBatches available allocated ids).filter fun x =>
      x.inventoryId = b.inventoryId).filter (Kept (effectiveQty current) ids)) item ids
    exact limit_prefix hsorted ((hdrawer b _).2 ⟨hb, rfl⟩) ((hdrawer c _).2 ⟨hm, hw.symm⟩) hfc hno (not_not.2 hbc)

/-- A draft of the only batch is edited: all of it is shown, with the two units of the draft. -/
theorem drawer_loses_nothing_site :
    LosesNothing Site.fifoItem [1] (effectiveQty fun id => if id = 1 then some 2 else none) 3
      (drawerEligible 100 Site.catalog Site.fifoItem (some "EA") [1] Site.expiring.tables)
      (getLimitedBatchesForDrawer 100 Site.catalog [Site.expiringBatch] [Site.expiringBatch] 1 3 [1]
        fun id => if id = 1 then some 2 else none).1
      (getLimitedBatchesForDrawer 100 Site.catalog [Site.expiringBatch] [Site.expiringBatch] 1 3 [1]
        fun id => if id = 1 then some 2 else none).2.2 :=
  drawer_loses_nothing Site.expiring Site.catalog 100 Site.fifoItem (by decide) (some "EA") [1] [Site.expiringBatch]
    [Site.expiringBatch] ⟨.of_eq (by decide +kernel), .of_eq (by decide +kernel)⟩ 3
    (fun id => if id = 1 then some 2 else none)
    (fun id h => by simpa using h) (by decide +kernel)

/-! ## Allocated batches -/

/-- **An allocated batch is shown exactly when the item cannot expire or the batch has not.** -/
theorem allocated_batches_shown (db : Database) (cat : Catalog) (today : Day) (item : Item)
    (hi : cat.item.get? item.itemId = some item) (requiredUom : Option String) (ids : List Nat)
    (available allocated : List ItemBatch) (ha : Answers cat item requiredUom ids db.tables available allocated)
    (remainingQty : ℚ) (current : Nat → Option ℚ) :
    (∀ b ∈ getAllocatedBatches cat item.itemId ids db.tables,
      ((getLimitedBatchesForDrawer today cat available allocated item.itemId remainingQty ids current).1.map
        ItemBatch.batchId).count b.batchId = 1) ↔
    (item.canExpireFlag → ∀ b ∈ getAllocatedBatches cat item.itemId ids db.tables, ¬ b.Expired today) := by
  have hc := db.consistent
  have hall := allBatches_nodup hc ha
  rw [getLimited_eq hi]
  set shown := (warehousesOf (effectiveQty current) ids (allBatches available allocated ids)).flatMap
    (shownOf today item ids (effectiveQty current) remainingQty (allBatches available allocated ids)) with hshown
  have hrow : ∀ b ∈ shown, b ∈ db.tables.itembatch.rows := fun b hb => by
    rcases (mem_allBatches hc ha).1 (mem_drawerOf.1 (shownOf_subset (mem_shown.1 hb))).1 with h | h
    · exact (mem_getAvailableBatches.1 h).1
    · exact (mem_getAllocatedBatches.1 h).1
  have hids : (shown.map ItemBatch.batchId).Nodup :=
    (shown_nodup hall).map_on fun b hb c hm he => batch_eq_of_id hc (hrow b hb) (hrow c hm) he
  have hone : ∀ b ∈ getAllocatedBatches cat item.itemId ids db.tables,
      (shown.map ItemBatch.batchId).count b.batchId = 1 ↔ (item.canExpireFlag → ¬ b.Expired today) := by
    intro b hb
    obtain ⟨hbrow, hid, -, -⟩ := mem_getAllocatedBatches.1 hb
    rw [← mem_shown_of_allocated remainingQty current hc ha hb, ← hshown]
    constructor
    · intro h
      obtain ⟨c, hm, he⟩ := List.mem_map.1 (List.count_pos_iff.1 (h ▸ Nat.one_pos))
      exact batch_eq_of_id hc (hrow c hm) hbrow he ▸ hm
    · exact fun h => List.count_eq_one_of_mem hids (List.mem_map_of_mem h)
  constructor
  · exact fun h he b hb => (hone b hb).1 (h b hb) he
  · exact fun h b hb => (hone b hb).2 fun he => h he b hb

/-- On its last day the batch of the draft is shown. -/
theorem allocated_batches_shown_site :
    ((getLimitedBatchesForDrawer 120 Site.catalog [Site.expiringBatch] [Site.expiringBatch] 1 0 [1]
      fun id => if id = 1 then some 2 else none).1.map ItemBatch.batchId).count Site.expiringBatch.batchId = 1 :=
  (allocated_batches_shown Site.expiring Site.catalog 120 Site.fifoItem (by decide) (some "EA") [1]
    [Site.expiringBatch] [Site.expiringBatch] ⟨.of_eq (by decide +kernel), .of_eq (by decide +kernel)⟩ 0
    fun id => if id = 1 then some 2 else none).2 (by decide +kernel) Site.expiringBatch (by decide +kernel)

/-- On the day after the drawer is empty, and the draft still takes two units. -/
theorem allocated_batch_hidden :
    getAvailableBatches Site.catalog 1 none (some "EA") Site.expiring.tables = [Site.expiringBatch] ∧
    getAllocatedBatches Site.catalog 1 [1] Site.expiring.tables = [Site.expiringBatch] ∧
    Site.expiring.tables.pkgQty 1 Site.expiringBatch.key = 2 ∧
    getLimitedBatchesForDrawer 121 Site.catalog [Site.expiringBatch] [Site.expiringBatch] 1 0 [1]
      (fun id => if id = 1 then some 2 else none) = ([], 0, 0) ∧
    ¬ ∀ b ∈ getAllocatedBatches Site.catalog 1 [1] Site.expiring.tables,
      ((getLimitedBatchesForDrawer 121 Site.catalog [Site.expiringBatch] [Site.expiringBatch] 1 0 [1]
        fun id => if id = 1 then some 2 else none).1.map ItemBatch.batchId).count b.batchId = 1 := by
  refine ⟨by decide +kernel, by decide +kernel, by decide +kernel, by decide +kernel, by decide +kernel⟩

end Dmis
