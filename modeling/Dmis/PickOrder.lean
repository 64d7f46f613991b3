import Dmis.PriorityGroups
import Dmis.Availability

/-!
# The order of picking

`batch-allocation.js`: the drawer shows the batches of an item with their priority groups, keeps what is entered of each
between nothing and what is available, and writes it to the form. `validatePickOrder` (`:572-644`) refuses an allocation
from a group while a smaller one has something left.

| here | there |
| --- | --- |
| `getItemBatches` | the answer of `get_item_batches` (`packaging.py:2161-2201`) |
| `openDrawer` | `openDrawer`, `loadBatches`, `loadExistingAllocations` (`:79-230`) |
| `DrawerPage.enter`, `drawerStep` | the handlers of an input and of its "Use Max" button (`:523-565`) |
| `applyAllocations` | `:649-692` |

Nothing calls `validatePickOrder`, and `_process_allocations` has no such check. So an allocation is in order exactly
when that function would have let it through: `pick_order_enforced`.
-/

namespace Dmis

open Relational Keyed

/-! ## The drawer -/

/-- Sums and differences of the page's numbers. -/
def jsAdd (x y : ℚ) : ℚ := toBinary64 (x + y)
def jsSub (x y : ℚ) : ℚ := toBinary64 (x - y)

/-- A batch as the page has it, with its `data-priority-group`. -/
structure ShownBatch where
  batchId : Nat
  priorityGroup : ℕ
  availableQty : ℚ
  deriving DecidableEq, Repr

def shownBatch (availableQty : ItemBatch → ℚ) (x : ItemBatch × ℕ) : ShownBatch := ⟨x.1.batchId, x.2, availableQty x.1⟩

/-- `available` and `allocated` are what the two queries answered. -/
def getItemBatches (today : Day) (cat : Catalog) (item : Item) (available allocated : List ItemBatch) (remainingQty : ℚ)
    (allocatedBatchIds : List Nat) (currentAllocations : Nat → Option ℚ) : List ShownBatch :=
  let limitedBatches := (getLimitedBatchesForDrawer today cat available allocated item.itemId remainingQty
    allocatedBatchIds currentAllocations).1
  (assignPriorityGroups limitedBatches item).map
    (shownBatch fun b => toBinary64 (effectiveQty currentAllocations b))

instance : Keyed (Nat × ℚ) Nat := ⟨Prod.fst⟩

/-- `{batch_id: qty}`. -/
abbrev Amounts := Table (Nat × ℚ)

def Amounts.qty (a : Amounts) (batchId : Nat) : ℚ := ((a.get? batchId).map Prod.snd).getD 0

/-- The keys of an object that are numbers come in ascending order. -/
def getTotalAllocated (a : Amounts) : ℚ := ((sortOn Prod.fst a.rows).map Prod.snd).foldl jsAdd 0

/-- The hidden inputs of the item, in the order of the page. -/
def loadExistingAllocations (inputs : List (Nat × ℚ)) : Amounts :=
  inputs.foldl (fun a e => if 0 < toBinary64 e.2 then a.upsert (e.1, toBinary64 e.2) else a) Table.empty

structure DrawerPage where
  requestedQty : ℚ
  shown : List ShownBatch
  currentAllocations : Amounts

/-- The amounts travel as they are printed. The buttons of `approve.html` have no requested quantity:
what the drawer does with the `NaN` it takes from them is left out. -/
def openDrawer (today : Day) (cat : Catalog) (item : Item) (available allocated : List ItemBatch) (requestedQty : ℚ)
    (inputs : List (Nat × ℚ)) : DrawerPage :=
  let current := loadExistingAllocations inputs
  { requestedQty := requestedQty
    shown := getItemBatches today cat item available allocated
      (shortest (jsSub requestedQty (getTotalAllocated current))) current.keys
      fun batchId => (current.get? batchId).map fun e => shortest e.2
    currentAllocations := current }

/-- The handler of an input of the batch that holds `qty`. -/
def DrawerPage.enter (d : DrawerPage) (b : ShownBatch) (qty : ℚ) : DrawerPage :=
  let finalQty := if qty < 0 then 0 else if b.availableQty < qty then b.availableQty else qty
  { d with
    currentAllocations :=
      if 0 < finalQty then d.currentAllocations.upsert (b.batchId, finalQty)
      else d.currentAllocations.deleteWhere fun e => e.1 = b.batchId }

inductive DrawerEvent where
  /-- What is typed; `none` is no number. -/
  | input (batchId : Nat) (typed : Option ℚ)
  | useMax (batchId : Nat)

def drawerStep (d : DrawerPage) : DrawerEvent → DrawerPage
  | .input batchId typed =>
    match d.shown.find? (·.batchId = batchId) with
    | none => d
    | some b => d.enter b (toBinary64 (typed.getD 0))
  | .useMax batchId =>
    match d.shown.find? (·.batchId = batchId) with
    | none => d
    | some b =>
      let remainingQty := jsSub d.requestedQty (getTotalAllocated d.currentAllocations)
      d.enter b (min b.availableQty (jsAdd remainingQty (d.currentAllocations.qty batchId)))

/-- The inputs that are written, if the total may be given. -/
def DrawerPage.applyAllocations (d : DrawerPage) : Option Amounts :=
  if d.requestedQty < getTotalAllocated d.currentAllocations then none
  else some (d.currentAllocations.deleteWhere fun e => e.2 ≤ 0)

/-! ## The check nobody calls -/

/-- The batches of a priority group. -/
def groupOf (shown : List ShownBatch) (groupId : ℕ) : List ShownBatch := shown.filter (·.priorityGroup = groupId)

/-- Some batch of the group is taken from. -/
def touched (shown : List ShownBatch) (allocated : Nat → ℚ) (groupId : ℕ) : Bool :=
  (groupOf shown groupId).any fun b => 0 < allocated b.batchId

def sumWith (add : ℚ → ℚ → ℚ) (qty : ShownBatch → ℚ) (group : List ShownBatch) : ℚ := (group.map qty).foldl add 0

/-- Less is allocated of the group than it has, by sums that `add` computes. -/
def short (add : ℚ → ℚ → ℚ) (shown : List ShownBatch) (allocated : Nat → ℚ) (groupId : ℕ) : Bool :=
  sumWith add (fun b => allocated b.batchId) (groupOf shown groupId) <
    sumWith add ShownBatch.availableQty (groupOf shown groupId)

/-- The loop over the sorted groups. -/
def checkGroups (add : ℚ → ℚ → ℚ) (shown : List ShownBatch) (allocated : Nat → ℚ) : List ℕ → Bool
  | [] => true
  | groupId :: laterGroups =>
    if laterGroups.any (touched shown allocated) ∧ short add shown allocated groupId then false
    else checkGroups add shown allocated laterGroups

/-- `validatePickOrder` on a page with these amounts; its own `add` is `jsAdd`. -/
def validatePickOrder (add : ℚ → ℚ → ℚ) (shown : List ShownBatch) (allocated : Nat → ℚ) : Bool :=
  checkGroups add shown allocated (sortOn id (shown.map ShownBatch.priorityGroup).dedup)

/-- What is taken from a batch leaves nothing of the shown batches of smaller groups. -/
def PicksInOrder (shown : List ShownBatch) (allocated : Nat → ℚ) : Prop :=
  ∀ b ∈ shown, 0 < allocated b.batchId → ∀ c ∈ shown, c.priorityGroup < b.priorityGroup →
    c.availableQty ≤ allocated c.batchId

section
variable {shown : List ShownBatch} {allocated : Nat → ℚ} {add : ℚ → ℚ → ℚ} {b c : ShownBatch} {groupId : ℕ}

theorem mem_groupOf : b ∈ groupOf shown groupId ↔ b ∈ shown ∧ b.priorityGroup = groupId := by
  simp [groupOf]

theorem touched_iff : touched shown allocated groupId = true ↔
    ∃ b ∈ shown, b.priorityGroup = groupId ∧ 0 < allocated b.batchId := by
  simp [touched, mem_groupOf, and_assoc]

/-- The loop lets through what is not short before a touched group. -/
theorem checkGroups_iff {ids : List ℕ} : checkGroups add shown allocated ids = true ↔
    ids.Pairwise fun g h => touched shown allocated h = true → short add shown allocated g = false := by
  induction ids with
  | nil => simp [checkGroups]
  | cons g ids ih =>
    rw [checkGroups, List.pairwise_cons]
    split_ifs with h
    · obtain ⟨htouched, hshort⟩ := h
      obtain ⟨h, hh, htouched⟩ := List.any_eq_true.1 htouched
      refine iff_of_false (by simp) fun hall => ?_
      rw [hall.1 h hh htouched] at hshort
      cases hshort
    · rw [ih, iff_and_self]
      intro _ h' hh' htouched
      by_contra hshort
      exact h ⟨List.any_eq_true.2 ⟨h', hh', htouched⟩, by simpa using hshort⟩

/-- **What the check lets through:** no group is short while a batch of a larger one is taken from. -/
theorem validatePickOrder_iff : validatePickOrder add shown allocated = true ↔
    ∀ b ∈ shown, 0 < allocated b.batchId → ∀ c ∈ shown, c.priorityGroup < b.priorityGroup →
      short add shown allocated c.priorityGroup = false := by
  have hids : ∀ {g}, g ∈ sortOn id (shown.map ShownBatch.priorityGroup).dedup ↔ ∃ b ∈ shown, b.priorityGroup = g := by
    intro g
    rw [(sortOn_perm _ _).mem_iff, List.mem_dedup, List.mem_map]
  have hsorted : (sortOn id (shown.map ShownBatch.priorityGroup).dedup).Pairwise (· < ·) := by
    have hnodup := (sortOn_perm id (shown.map ShownBatch.priorityGroup).dedup).nodup_iff.2 (List.nodup_dedup _)
    exact ((sortOn_pairwise id _).and hnodup).imp fun h => h.1.lt_of_ne h.2
  rw [validatePickOrder, checkGroups_iff]
  generalize sortOn id (shown.map ShownBatch.priorityGroup).dedup = ids at hids hsorted
  constructor
  · intro hall b hb hpos c hc hlt
    exact before_of_lt (hsorted.imp fun h => h.le) (hids.2 ⟨c, hc, rfl⟩) (hids.2 ⟨b, hb, rfl⟩) hlt hall
      (touched_iff.2 ⟨b, hb, rfl, hpos⟩)
  · intro hall
    refine hsorted.imp_of_mem fun hg hh hlt htouched => ?_
    obtain ⟨c, hc, rfl⟩ := hids.1 hg
    obtain ⟨b, hb, rfl, hpos⟩ := touched_iff.1 htouched
    exact hall b hb hpos c hc hlt

/-- Nothing is taken from a batch beyond what it has. -/
def Within (shown : List ShownBatch) (allocated : Nat → ℚ) : Prop :=
  ∀ b ∈ shown, allocated b.batchId ≤ b.availableQty

/-- An exact sum falls short where some batch does. -/
theorem short_iff (h : Within shown allocated) : short (· + ·) shown allocated groupId = false ↔
    ∀ c ∈ shown, c.priorityGroup = groupId → c.availableQty ≤ allocated c.batchId := by
  have hsum : ∀ qty : ShownBatch → ℚ, ∀ group, sumWith (· + ·) qty group = (group.map qty).sum := fun qty group =>
    List.sum_eq_foldl.symm
  simp only [short, hsum, decide_eq_false_iff_not, not_lt]
  constructor
  · intro hle c hc hg
    by_contra hlt
    refine absurd hle (not_le.2 (List.sum_lt_sum _ _ (fun b hb => h b (mem_groupOf.1 hb).1) ?_))
    exact ⟨c, mem_groupOf.2 ⟨hc, hg⟩, not_le.1 hlt⟩
  · intro hall
    exact List.sum_le_sum fun b hb => hall b (mem_groupOf.1 hb).1 (mem_groupOf.1 hb).2

/-- **With exact sums the check lets through what is in order, and nothing else.** -/
theorem validatePickOrder_exact (h : Within shown allocated) :
    validatePickOrder (· + ·) shown allocated = true ↔ PicksInOrder shown allocated := by
  rw [validatePickOrder_iff]
  refine forall₃_congr fun b hb hpos => ⟨fun hall c hc hlt => ?_, fun hall c hc hlt => ?_⟩
  · exact (short_iff h).1 (hall c hc hlt) c hc rfl
  · exact (short_iff h).2 fun d hd hg => hall d hd (hg ▸ hlt)

/-- However the sums are rounded, what is in order is let through. -/
theorem validatePickOrder_of_inOrder (h : Within shown allocated) (hin : PicksInOrder shown allocated) :
    validatePickOrder add shown allocated = true := by
  refine validatePickOrder_iff.2 fun b hb hpos c hc hlt => ?_
  have hsame : sumWith add (fun b => allocated b.batchId) (groupOf shown c.priorityGroup) =
      sumWith add ShownBatch.availableQty (groupOf shown c.priorityGroup) := by
    unfold sumWith
    congr 1
    refine List.map_congr_left fun d hd => ?_
    obtain ⟨hd, hg⟩ := mem_groupOf.1 hd
    exact le_antisymm (h d hd) (hin b hb hpos d hd (hg ▸ hlt))
  rw [short, hsame, decide_eq_false (lt_irrefl _)]

end

/-! ## What the drawer holds -/

/-- No batch is taken from beyond what is shown of it, and none shows less than nothing. -/
structure DrawerPage.Ok (d : DrawerPage) : Prop where
  /-- Every entry of a batch shows the same. -/
  same : ∀ b ∈ d.shown, ∀ c ∈ d.shown, b.batchId = c.batchId → b.availableQty = c.availableQty
  nonneg : ∀ b ∈ d.shown, 0 ≤ b.availableQty
  within : Within d.shown d.currentAllocations.qty

section
variable {d : DrawerPage} {b : ShownBatch} {a : Amounts} {batchId : Nat}

theorem amount_upsert (e : Nat × ℚ) :
    Amounts.qty (a.upsert e) batchId = if e.1 = batchId then e.2 else a.qty batchId := by
  unfold Amounts.qty
  rw [Table.get?_upsert]
  change ((if e.1 = batchId then some e else a.get? batchId).map Prod.snd).getD 0 = _
  split_ifs <;> rfl

theorem qty_deleteWhere (a : Amounts) (batchId : Nat) (p : Nat × ℚ → Bool) :
    Amounts.qty (a.deleteWhere p) batchId = a.qty batchId ∨ Amounts.qty (a.deleteWhere p) batchId = 0 := by
  unfold Amounts.qty
  rw [Table.get?_deleteWhere]
  cases a.get? batchId with
  | none => exact .inl rfl
  | some e =>
    rw [Option.filter_some]
    split_ifs
    · exact .inl rfl
    · exact .inr rfl

theorem DrawerPage.Ok.enter (h : d.Ok) (hb : b ∈ d.shown) (qty : ℚ) : (d.enter b qty).Ok := by
  refine ⟨h.same, h.nonneg, fun c hc => ?_⟩
  have hc : c ∈ d.shown := hc
  unfold DrawerPage.enter
  dsimp only
  set finalQty := if qty < 0 then 0 else if b.availableQty < qty then b.availableQty else qty with hfinal
  have hle : finalQty ≤ b.availableQty := by
    rw [hfinal]
    split_ifs with hneg hbig
    · exact h.nonneg b hb
    · exact le_rfl
    · exact not_lt.1 hbig
  split_ifs
  · rw [amount_upsert]
    split_ifs with hid
    · exact (h.same b hb c hc hid) ▸ hle
    · exact h.within c hc
  · rcases qty_deleteWhere d.currentAllocations c.batchId (fun e => e.1 = b.batchId) with he | he
    · rw [he]
      exact h.within c hc
    · rw [he]
      exact h.nonneg c hc

/-- An event enters a quantity of a shown batch, or nothing. -/
theorem drawerStep_cases (d : DrawerPage) (e : DrawerEvent) :
    drawerStep d e = d ∨ ∃ b ∈ d.shown, ∃ qty, drawerStep d e = d.enter b qty := by
  cases e with
  | input batchId typed =>
    simp only [drawerStep]
    split
    · exact .inl rfl
    · rename_i b hf
      exact .inr ⟨b, List.mem_of_find?_eq_some hf, _, rfl⟩
  | useMax batchId =>
    simp only [drawerStep]
    split
    · exact .inl rfl
    · rename_i b hf
      exact .inr ⟨b, List.mem_of_find?_eq_some hf, _, rfl⟩

/-- **No event takes more of a batch than it shows.** -/
theorem drawerStep_ok {shown : List ShownBatch} (d : DrawerPage) (e : DrawerEvent) (h : d.Ok ∧ d.shown = shown) :
    (drawerStep d e).Ok ∧ (drawerStep d e).shown = shown := by
  rcases drawerStep_cases d e with he | ⟨b, hb, qty, he⟩
  · rw [he]
    exact h
  · rw [he]
    exact ⟨h.1.enter hb qty, h.2⟩

/-- What is applied takes no more of a batch than it shows. -/
theorem applied_within (h : d.Ok) (ha : d.applyAllocations = some a) : Within d.shown a.qty := by
  unfold DrawerPage.applyAllocations at ha
  split_ifs at ha
  cases ha
  intro b hb
  rcases qty_deleteWhere d.currentAllocations b.batchId (fun e => e.2 ≤ 0) with he | he
  · rw [he]
    exact h.within b hb
  · rw [he]
    exact h.nonneg b hb

/-! ## What the drawer opens with -/

/-- The amounts the page holds are positive, and numbers. -/
theorem loadExistingAllocations_row {inputs : List (Nat × ℚ)} {e : Nat × ℚ}
    (he : e ∈ (loadExistingAllocations inputs).rows) : 0 < e.2 ∧ toBinary64 e.2 = e.2 := by
  have hfold : ∀ (inputs : List (Nat × ℚ)) (a : Amounts), (∀ e ∈ a.rows, 0 < e.2 ∧ toBinary64 e.2 = e.2) →
      ∀ e ∈ (inputs.foldl (fun a e => if 0 < toBinary64 e.2 then a.upsert (e.1, toBinary64 e.2) else a) a).rows,
        0 < e.2 ∧ toBinary64 e.2 = e.2 := by
    intro inputs
    induction inputs with
    | nil => exact fun a h => h
    | cons i inputs ih =>
      refine fun a h => ih _ fun e he => ?_
      dsimp only at he
      split_ifs at he with hpos
      · rcases Table.mem_upsert he with rfl | he
        · exact ⟨hpos, toBinary64_idem _⟩
        · exact h e he
      · exact h e he
  exact hfold inputs Table.empty (by simp [Table.empty]) e he

end

section
variable {today : Day} {cat : Catalog} {t : Tables} {item : Item} {available allocated : List ItemBatch}
  {requiredUom : Option String} {ids : List Nat} {inputs : List (Nat × ℚ)} {r : ℚ} {current : Nat → Option ℚ}
  {x : ShownBatch}

/-- Every shown entry is a batch of the store. -/
theorem mem_getItemBatches (hc : t.Consistent) (hi : cat.item.get? item.itemId = some item)
    (ha : Answers cat item requiredUom ids t available allocated)
    (hx : x ∈ getItemBatches today cat item available allocated r ids current) :
    ∃ b ∈ t.itembatch.rows, x.batchId = b.batchId ∧ x.availableQty = toBinary64 (effectiveQty current b) := by
  obtain ⟨⟨b, g⟩, hb, rfl⟩ := List.mem_map.1 hx
  refine ⟨b, ?_, rfl, rfl⟩
  have hb : b ∈ (numberRuns item.issuingKey _).map Prod.fst := List.mem_map_of_mem hb
  rw [map_fst_numberRuns, getLimited_eq hi, mem_shown] at hb
  have hall := (mem_drawerOf.1 (shownOf_subset hb)).1
  rcases (mem_allBatches hc ha).1 hall with hb | hb
  · exact (mem_getAvailableBatches.1 hb).1
  · exact (mem_getAllocatedBatches.1 hb).1

/-- **The drawer opens with no more of a batch than it shows:** the amounts are released before it looks. -/
theorem openDrawer_ok (hc : t.Consistent) (hi : cat.item.get? item.itemId = some item)
    (ha : Answers cat item requiredUom (loadExistingAllocations inputs).keys t available allocated) (requestedQty : ℚ) :
    (openDrawer today cat item available allocated requestedQty inputs).Ok := by
  have hrow : ∀ {x}, x ∈ (openDrawer today cat item available allocated requestedQty inputs).shown → _ :=
    fun hx => mem_getItemBatches hc hi ha hx
  have hamount : ∀ batchId, 0 ≤ (((loadExistingAllocations inputs).get? batchId).map fun e => shortest e.2).getD 0 ∧
      (loadExistingAllocations inputs).qty batchId =
        toBinary64 ((((loadExistingAllocations inputs).get? batchId).map fun e => shortest e.2).getD 0) := by
    intro batchId
    unfold Amounts.qty
    cases he : (loadExistingAllocations inputs).get? batchId with
    | none => exact ⟨le_rfl, toBinary64_zero.symm⟩
    | some e =>
      obtain ⟨hpos, hnum⟩ := loadExistingAllocations_row (Table.mem_of_get? he)
      exact ⟨shortest_nonneg hpos.le, (toBinary64_shortest hnum).symm⟩
  have hle : ∀ b ∈ t.itembatch.rows, ∀ current : Nat → Option ℚ,
      (current b.batchId).getD 0 ≤ effectiveQty current b := by
    intro b hb current
    have hres := (hc.batch b hb).2.1.1
    unfold effectiveQty
    linarith
  refine ⟨fun x hx y hy hid => ?_, fun x hx => ?_, fun x hx => ?_⟩
  · obtain ⟨b, hb, hxb, hxq⟩ := hrow hx
    obtain ⟨c, hc', hyc, hyq⟩ := hrow hy
    obtain rfl := batch_eq_of_id hc hb hc' (hxb.symm.trans (hid.trans hyc))
    rw [hxq, hyq]
  · obtain ⟨b, hb, -, hq⟩ := hrow hx
    rw [hq, ← toBinary64_zero]
    exact toBinary64_mono le_rfl ((hamount b.batchId).1.trans (hle b hb _))
  · obtain ⟨b, hb, hid, hq⟩ := hrow hx
    rw [hq, hid]
    exact (hamount b.batchId).2.trans_le (toBinary64_mono (hamount b.batchId).1 (hle b hb _))

end

/-! ## What the server accepts -/

/-- What the package takes of the item's batch. -/
def takenBy (t t' : Tables) (pkgId itemId batchId : Nat) : ℚ :=
  ((batchById t.itembatch batchId).map fun b => t'.pkgQty pkgId ⟨itemId, b.inventoryId, batchId⟩).getD 0

/-- What the other packages leave of the batch: the package's own quantity is released. -/
def releasedQty (old : Allocations) (b : ItemBatch) : ℚ := b.usableQty - (b.reservedQty - old.qty b.key)

theorem processed_within {ctx : Ctx} {form : Form} {vc : Bool} {r : ReliefRqst} {t t' t₁ : Tables} {new : List Alloc}
    {old : Allocations} {p : ReliefPkg} {plans : List ItemPlan} (h : Processed ctx form vc r t t' new old p t₁ plans)
    (hc : t.Consistent) {itemId : Nat} {shown : List (ItemBatch × ℕ)}
    (hshown : ∀ x ∈ shown, x.1 ∈ t.itembatch.rows ∧ x.1.itemId = itemId) :
    Within (shown.map (shownBatch (releasedQty old))) (takenBy t t' p.reliefpkgId itemId) := by
  intro x hx
  obtain ⟨⟨b, g⟩, hb, rfl⟩ := List.mem_map.1 hx
  obtain ⟨hb, hitem⟩ := hshown _ hb
  dsimp only [shownBatch] at hb hitem ⊢
  have hkey : (⟨itemId, b.inventoryId, b.batchId⟩ : BatchKey) = b.key := by rw [← hitem]; rfl
  have htaken : takenBy t t' p.reliefpkgId itemId b.batchId = t'.pkgQty p.reliefpkgId b.key := by
    rw [takenBy, batchById_of_mem hc hb, ← hkey]
    rfl
  rw [htaken]
  by_cases hpos : 0 < t'.pkgQty p.reliefpkgId b.key
  · obtain ⟨c, hget, hfits⟩ := h.row_pos hpos
    obtain rfl : c = b := Option.some.inj (hget.symm.trans (Table.get?_key hb))
    exact hfits.fits
  · have hown : 0 ≤ old.qty b.key := by
      rw [h.old_qty]
      exact pkgQty_nonneg hc.pkgItem _ _
    have hres := (hc.batch b hb).2.1.1
    unfold releasedQty
    linarith

/-- **What is applied or accepted is in order exactly when the check would let it through.** -/
theorem pick_order_enforced (db : Database) :
    (∀ (today : Day) (cat : Catalog) (item : Item) (requiredUom : Option String) (available allocated : List ItemBatch)
      (requestedQty : ℚ) (inputs : List (Nat × ℚ)) (events : List DrawerEvent) (applied : Amounts),
      cat.item.get? item.itemId = some item →
      Answers cat item requiredUom (loadExistingAllocations inputs).keys db.tables available allocated →
      let page := openDrawer today cat item available allocated requestedQty inputs
      (run drawerStep page events).applyAllocations = some applied →
      (PicksInOrder page.shown applied.qty ↔ validatePickOrder (· + ·) page.shown applied.qty = true)) ∧
    (∀ (ctx : Ctx) (form : Form) (validateComplete : Bool) (r : ReliefRqst) (t' : Tables) (new : List Alloc)
      (old : Allocations) (p : ReliefPkg) (itemId : Nat) (shown : List (ItemBatch × ℕ)),
      processAllocations ctx form validateComplete r db.tables = .ok (t', new, old) →
      t'.firstPkg r.reliefrqstId = some p →
      (∀ x ∈ shown, x.1 ∈ db.tables.itembatch.rows ∧ x.1.itemId = itemId) →
      let batches := shown.map (shownBatch (releasedQty old))
      let taken := takenBy db.tables t' p.reliefpkgId itemId
      (PicksInOrder batches taken ↔ validatePickOrder (· + ·) batches taken = true)) := by
  constructor
  · intro today cat item requiredUom available allocated requestedQty inputs events applied hi ha page happlied
    have hopened : page.Ok := openDrawer_ok db.consistent hi ha requestedQty
    obtain ⟨hok, hshown⟩ := run_invariant drawerStep_ok ⟨hopened, rfl⟩ events
    have hwithin := applied_within hok happlied
    rw [hshown] at hwithin
    exact (validatePickOrder_exact hwithin).symm
  · intro ctx form vc r t' new old p itemId shown hproc hp hshown
    obtain ⟨q, t₁, plans, h⟩ := processAllocations_ok hproc
    obtain rfl : q = p := Option.some.inj (h.firstPkg.symm.trans hp)
    exact (validatePickOrder_exact (processed_within h db.consistent hshown)).symm

namespace Site

def laterBatch : ItemBatch := { batch with batchId := 2, batchDate := some 60 }

/-- The site with a second, younger batch. -/
def agedBatches : Database :=
  ⟨{ tables with
      itembatch := ⟨[batch, laterBatch], by decide⟩
      inventory := ⟨[{ stock with usableQty := 20 }], by decide⟩ }, by decide +kernel⟩

/-- The drawer with both batches, for fifteen units. -/
def opened : DrawerPage := openDrawer 100 catalog fifoItem [batch, laterBatch] [] 15 []

/-- `q` units of one batch. -/
def fromBatch (batchId : ℤ) (q : ℚ) : Form := ⟨[⟨1, some batchId, some (.finite q)⟩], fun _ => none, fun _ => ""⟩

def processed (form : Form) : Tables × List Alloc × Allocations :=
  match processAllocations officer form false rqst agedBatches.tables with
  | .ok x => x
  | .error _ => (tables, [], ⟨[], by simp⟩)

theorem processed_ok {form : Form} (h : (processAllocations officer form false rqst agedBatches.tables).isOk = true) :
    processAllocations officer form false rqst agedBatches.tables = .ok (processed form) := by
  unfold processed
  cases hp : processAllocations officer form false rqst agedBatches.tables with
  | ok x => rfl
  | error e =>
    rw [hp] at h
    cases h

/-- Both batches with what is free of them for the package. -/
def onOffer (form : Form) : List ShownBatch :=
  [(batch, 0), (laterBatch, 1)].map (shownBatch (releasedQty (processed form).2.2))

end Site

/-- Ten units of the older batch and five of the younger; then five of the older. -/
theorem pick_order_enforced_site :
    (∀ applied, (run drawerStep Site.opened [.useMax 1, .useMax 2]).applyAllocations = some applied →
      PicksInOrder Site.opened.shown applied.qty) ∧
    PicksInOrder (Site.onOffer (Site.fromBatch 1 5))
      (takenBy Site.agedBatches.tables (Site.processed (Site.fromBatch 1 5)).1 1 1) := by
  constructor
  · intro applied happlied
    have hrows : (run drawerStep Site.opened [.useMax 1, .useMax 2]).applyAllocations =
        some ⟨[(1, 10), (2, 5)], by decide⟩ := by decide +kernel
    obtain rfl := Option.some.inj (hrows.symm.trans happlied)
    exact ((pick_order_enforced Site.agedBatches).1 100 Site.catalog Site.fifoItem (some "EA")
      [Site.batch, Site.laterBatch] [] 15 [] [.useMax 1, .useMax 2] _ (by decide)
      ⟨by decide +kernel, by decide +kernel⟩ hrows).2 (by decide +kernel)
  · exact ((pick_order_enforced Site.agedBatches).2 Site.officer (Site.fromBatch 1 5) false Site.rqst _ _ _
      (newPkg Site.officer Site.rqst 1) 1 [(Site.batch, 0), (Site.laterBatch, 1)]
      (Site.processed_ok (by decide +kernel)) (by decide +kernel) (by decide +kernel)).2 (by decide +kernel)

/-- Five units of the younger batch alone are applied, and accepted. -/
theorem pick_order_skipped :
    Site.opened.shown = [⟨1, 0, 10⟩, ⟨2, 1, 10⟩] ∧
    (∃ applied, (run drawerStep Site.opened [.input 2 (some 5)]).applyAllocations = some applied ∧
      ¬ PicksInOrder Site.opened.shown applied.qty) ∧
    processAllocations Site.officer (Site.fromBatch 2 5) false Site.rqst Site.agedBatches.tables =
      .ok (Site.processed (Site.fromBatch 2 5)) ∧
    Site.onOffer (Site.fromBatch 2 5) = Site.opened.shown ∧
    ¬ PicksInOrder (Site.onOffer (Site.fromBatch 2 5))
      (takenBy Site.agedBatches.tables (Site.processed (Site.fromBatch 2 5)).1 1 1) := by
  have hshown : Site.opened.shown = [⟨1, 0, 10⟩, ⟨2, 1, 10⟩] := by decide +kernel
  have hoffer : Site.onOffer (Site.fromBatch 2 5) = Site.opened.shown := by decide +kernel
  refine ⟨hshown, ⟨⟨[(2, 5)], by decide⟩, by decide +kernel, fun h => ?_⟩, Site.processed_ok (by decide +kernel),
    hoffer, fun h => ?_⟩
  · rw [hshown] at h
    exact absurd (h ⟨2, 1, 10⟩ (by decide) (by decide +kernel) ⟨1, 0, 10⟩ (by decide) (by decide)) (by decide +kernel)
  · rw [hoffer, hshown] at h
    exact absurd (h ⟨2, 1, 10⟩ (by decide) (by decide +kernel) ⟨1, 0, 10⟩ (by decide) (by decide)) (by decide +kernel)

end Dmis
