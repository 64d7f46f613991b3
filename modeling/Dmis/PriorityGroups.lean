import Dmis.Drawer

/-!
# Priority groups

`assign_priority_groups` (`app/services/batch_allocation_service.py:583-616`) numbers the runs of equal keys in the list
the drawer shows (`packaging.py:2174`). It takes a sorted list; the drawer's list is sorted warehouse by warehouse, by a
key that looks at `can_expire_flag` only.

So the numbers follow the issuing order exactly when the warehouses happen to continue each other, and the two keys
agree: `priority_groups_follow`.
-/

namespace Dmis

open Relational Keyed

/-- `current_key`. -/
def Item.issuingKey (item : Item) (b : ItemBatch) : List (Option Day) :=
  if item.issuanceOrder = .fefo ∧ item.canExpireFlag then [b.expiryDate, b.batchDate] else [b.batchDate]

def assignPriorityGroups (batches : List ItemBatch) (item : Item) : List (ItemBatch × ℕ) :=
  numberRuns item.issuingKey batches

/-- One group for one key, and a smaller one for what has to be issued before. -/
structure GroupsFollowOrder (item : Item) (groups : List (ItemBatch × ℕ)) : Prop where
  same : ∀ x ∈ groups, ∀ y ∈ groups, x.2 = y.2 ↔ item.issuingKey x.1 = item.issuingKey y.1
  earlier : ∀ x ∈ groups, ∀ y ∈ groups, item.DrawerPrecedes x.1 y.1 → x.2 < y.2

/-- The warehouses continue each other in drawer order, no key comes back after others (the drawer takes a missing date
for the last or the first day), and where an item that can expire is not issued by expiry, batches of one date expire
together. -/
structure InOneOrder (item : Item) (batches : List ItemBatch) : Prop where
  warehouses : batches.Pairwise fun b c => b.inventoryId ≠ c.inventoryId → ¬ item.DrawerPrecedes c b
  runs : RunsOnce (batches.map item.issuingKey)
  expiry : item.canExpireFlag → item.issuanceOrder ≠ .fefo → ∀ b ∈ batches, ∀ c ∈ batches,
    b.batchDate = c.batchDate → b.expiryDate = c.expiryDate

section
variable {today : Day} {cat : Catalog} {item : Item} {batches available allocated all : List ItemBatch} {b c : ItemBatch}
  {ids : List Nat} {availableQty : ItemBatch → ℚ} {r : ℚ}

theorem expiry_eq_of_not_before (h : ¬ ExpiresBefore b c) (h' : ¬ ExpiresBefore c b) : b.expiryDate = c.expiryDate := by
  unfold ExpiresBefore at h h'
  cases hb : b.expiryDate with
  | none =>
    cases hc : c.expiryDate with
    | none => rfl
    | some e => exact absurd ⟨e, hc, by simp [hb]⟩ h'
  | some d =>
    cases hc : c.expiryDate with
    | none => exact absurd ⟨d, hb, by simp [hc]⟩ h
    | some e =>
      have hle : ¬ d < e := fun hlt => h ⟨d, hb, by simpa [hc] using hlt⟩
      have hge : ¬ e < d := fun hlt => h' ⟨e, hc, by simpa [hb] using hlt⟩
      rw [le_antisymm (not_lt.1 hge) (not_lt.1 hle)]

theorem expiresBefore_irrefl (h : b.expiryDate = c.expiryDate) : ¬ ExpiresBefore b c := by
  rintro ⟨d, hd, hlt⟩
  exact lt_irrefl d (hlt d (h ▸ hd))

/-- Same issuing keys tie in drawer order, but for items that can expire and are not issued by expiry. -/
theorem agree_iff : (∀ b ∈ batches, ∀ c ∈ batches, item.issuingKey b = item.issuingKey c → ¬ item.DrawerPrecedes b c) ↔
    (item.canExpireFlag → item.issuanceOrder ≠ .fefo → ∀ b ∈ batches, ∀ c ∈ batches,
      b.batchDate = c.batchDate → b.expiryDate = c.expiryDate) := by
  unfold Item.issuingKey Item.DrawerPrecedes
  by_cases hexp : item.canExpireFlag = true
  · by_cases hfefo : item.issuanceOrder = .fefo
    · simp only [hexp, hfefo, true_and, if_true, ne_eq, not_true_eq_false, IsEmpty.forall_iff, imp_true_iff, iff_true]
      rintro b - c - hk (hbefore | ⟨-, hlt⟩)
      · exact expiresBefore_irrefl (List.cons.inj hk).1 hbefore
      · rw [(List.cons.inj (List.cons.inj hk).2).1] at hlt
        exact lt_irrefl _ hlt
    · simp only [hexp, hfefo, if_false, if_true, ne_eq, not_false_eq_true, forall_true_left,
        List.cons.injEq, and_true]
      refine ⟨fun h b hb c hc hd => ?_, fun h b hb c hc hd => ?_⟩
      · exact expiry_eq_of_not_before (fun hbefore => h b hb c hc hd (.inl hbefore))
          fun hbefore => h c hc b hb hd.symm (.inl hbefore)
      · rintro (hbefore | ⟨-, hlt⟩)
        · exact expiresBefore_irrefl (h b hb c hc hd) hbefore
        · rw [hd] at hlt
          exact lt_irrefl _ hlt
  · simp only [hexp, Bool.false_eq_true, and_false, if_false, IsEmpty.forall_iff, iff_true, List.cons.injEq, and_true]
    rintro b - c - hd hlt
    rw [hd] at hlt
    exact lt_irrefl _ hlt

/-- **Numbers follow the order exactly in a sorted list whose keys do not come back and tie.** -/
theorem groups_follow_iff : GroupsFollowOrder item (assignPriorityGroups batches item) ↔
    batches.Pairwise (fun b c => ¬ item.DrawerPrecedes c b) ∧ RunsOnce (batches.map item.issuingKey) ∧
    ∀ b ∈ batches, ∀ c ∈ batches, item.issuingKey b = item.issuingKey c → ¬ item.DrawerPrecedes b c := by
  have hup := numberRuns_pairwise item.issuingKey batches
  have hfst := map_fst_numberRuns item.issuingKey batches
  rw [← numbersKeys_iff item.issuingKey batches]
  unfold assignPriorityGroups
  generalize numberRuns item.issuingKey batches = groups at hup hfst
  subst hfst
  simp only [List.pairwise_map, List.forall_mem_map]
  constructor
  · rintro ⟨hsame, hearlier⟩
    refine ⟨hup.imp_of_mem fun hx hy hle hp => ?_, hsame, fun x hx y hy hk hp => ?_⟩
    · exact absurd (hearlier _ hy _ hx hp) (not_lt.2 hle)
    · exact absurd ((hsame x hx y hy).2 hk) (hearlier x hx y hy hp).ne
  · rintro ⟨hsorted, hsame, hagree⟩
    refine ⟨hsame, fun x hx y hy hp => ?_⟩
    have hle : ∀ x ∈ groups, ∀ y ∈ groups, item.DrawerPrecedes x.1 y.1 → x.2 ≤ y.2 := fun x hx y hy hp =>
      not_lt.1 fun hlt => before_of_lt hup hy hx hlt hsorted hp
    refine (hle x hx y hy hp).lt_of_ne fun he => ?_
    exact hagree x hx y hy ((hsame x hx y hy).1 he) hp

/-- What is shown of one warehouse is sorted. -/
theorem shown_pairwise : ((warehousesOf availableQty ids all).flatMap (shownOf today item ids availableQty r all)).Pairwise
    fun b c => b.inventoryId = c.inventoryId → ¬ item.DrawerPrecedes c b := by
  rw [List.pairwise_flatMap]
  refine ⟨fun w _ => ?_, (keys_groupsOf _ _ _ _).1.imp fun hne b hb c hc he => absurd ?_ hne⟩
  · have hsub := limit_sublist (fun b => b.batchId ∈ ids) availableQty r 0 false
      (drawerOf today item ids availableQty all w)
    refine ((sortBatchesForDrawer_pairwise _ _ _ _).sublist hsub).imp fun {b c} h _ => ?_
    exact h
  · rw [← (mem_drawerOf.1 (shownOf_subset hb)).2.1, he]
    exact (mem_drawerOf.1 (shownOf_subset hc)).2.1

end

/-- **Priority groups of the shown batches follow the issuing order exactly when the list is in one order.** -/
theorem priority_groups_follow (cat : Catalog) (today : Day) (item : Item)
    (hi : cat.item.get? item.itemId = some item) (available allocated : List ItemBatch) (remainingQty : ℚ)
    (ids : List Nat) (current : Nat → Option ℚ) (batches : List ItemBatch)
    (hb : batches =
      (getLimitedBatchesForDrawer today cat available allocated item.itemId remainingQty ids current).1) :
    GroupsFollowOrder item (assignPriorityGroups batches item) ↔ InOneOrder item batches := by
  rw [groups_follow_iff, agree_iff]
  have hwithin : batches.Pairwise fun b c => b.inventoryId = c.inventoryId → ¬ item.DrawerPrecedes c b := by
    rw [hb, getLimited_eq hi]
    exact shown_pairwise
  constructor
  · rintro ⟨hsorted, hruns, hexp⟩
    refine ⟨hsorted.imp fun {b c} h _ => ?_, hruns, hexp⟩
    exact h
  · rintro ⟨hacross, hruns, hexp⟩
    refine ⟨(hwithin.and hacross).imp fun {b c} h => ?_, hruns, hexp⟩
    by_cases he : b.inventoryId = c.inventoryId
    · exact h.1 he
    · exact h.2 he

namespace Site

def earlyBatch : ItemBatch := { batch with batchId := 2, inventoryId := 2, batchDate := some 40 }

/-- The site with a second warehouse, whose batch is older. -/
def twoWarehouses : Database :=
  ⟨{ tables with
      itembatch := ⟨[batch, earlyBatch], by decide⟩
      inventory := ⟨[stock, { stock with inventoryId := 2 }], by decide⟩ }, by decide +kernel⟩

def twoWarehouseCatalog : Catalog :=
  { catalog with warehouse := ⟨[⟨1, "CENTRAL", .active⟩, ⟨2, "NORTH", .active⟩], by decide⟩ }

end Site

/-- The batches of one warehouse. -/
theorem priority_groups_follow_site :
    GroupsFollowOrder Site.fifoItem (assignPriorityGroups [Site.batch] Site.fifoItem) :=
  (priority_groups_follow Site.catalog 100 Site.fifoItem (by decide) [Site.batch] [] 3 [] (fun _ => none) [Site.batch]
    (by decide +kernel)).2 ⟨List.pairwise_singleton _ _, by decide, by decide⟩

/-- The older batch of the second warehouse comes after the batch of the first one, in a later group. -/
theorem priority_groups_reversed :
    getAvailableBatches Site.twoWarehouseCatalog 1 none (some "EA") Site.twoWarehouses.tables =
      [Site.batch, Site.earlyBatch] ∧
    (getLimitedBatchesForDrawer 100 Site.twoWarehouseCatalog [Site.batch, Site.earlyBatch] [] 1 20 []
      fun _ => none).1 = [Site.batch, Site.earlyBatch] ∧
    assignPriorityGroups [Site.batch, Site.earlyBatch] Site.fifoItem = [(Site.batch, 0), (Site.earlyBatch, 1)] ∧
    ¬ GroupsFollowOrder Site.fifoItem (assignPriorityGroups [Site.batch, Site.earlyBatch] Site.fifoItem) := by
  refine ⟨by decide +kernel, by decide +kernel, by decide +kernel, fun h => ?_⟩
  have hbefore : Site.fifoItem.DrawerPrecedes Site.earlyBatch Site.batch :=
    .inr ⟨rfl, by decide⟩
  exact absurd (h.earlier (Site.earlyBatch, 1) (by decide +kernel) (Site.batch, 0) (by decide +kernel) hbefore) (by decide)

end Dmis
