import Dmis.Frames
import Dmis.Lib.Binary64
import Dmis.Lib.Greedy
import Mathlib.Data.Prod.Lex

/-!
# Batches in issuing order

`app/services/batch_allocation_service.py`: the batches an item can be taken from, their order, and the plan that
takes a quantity from the first ones.

| here | there |
| --- | --- |
| `InStock` | the joins and status filters of both queries (`:80-92`, `:468-484`) |
| `getAvailableBatches` | `get_available_batches` (`:62-101`) |
| `sortBatchesByAllocationRule` | `sort_batches_by_allocation_rule` (`:163-223`) |
| `autoAllocateBatches` | `auto_allocate_batches` (`:226-290`) |

A query without `ORDER BY` answers in any order; what the loop is given is a parameter, some permutation of the rows.
The dictionaries hold doubles, which are read back with `safe_decimal` (`packaging.py:2284`), as `shortest` says.

`auto_allocate_greedy` is the main result: the plan is exact and takes nothing past a batch that is not used up.
-/

namespace Dmis

open Relational Keyed

/-! ## Items and warehouses -/

/-- `item.issuance_order`: `items.py:89-94` accepts these three. -/
inductive IssuanceOrder where
  | fifo | fefo | lifo
  deriving DecidableEq, Repr

structure Item where
  itemId : Nat
  canExpireFlag : Bool
  issuanceOrder : IssuanceOrder
  deriving DecidableEq, Repr

/-- `warehouse.status_code`: A, I. -/
inductive WarehouseStatus where
  | active | inactive
  deriving DecidableEq, Repr

structure Warehouse where
  warehouseId : Nat
  warehouseName : String
  statusCode : WarehouseStatus
  deriving DecidableEq, Repr

instance : Keyed Item Nat := ⟨Item.itemId⟩
instance : Keyed Warehouse Nat := ⟨Warehouse.warehouseId⟩

/-- The tables the stock refers to. -/
structure Catalog where
  item : Table Item
  warehouse : Table Warehouse

/-! ## get_available_batches -/

/-- `ItemBatch.available_qty` (`models.py:538`). -/
def ItemBatch.availableQty (b : ItemBatch) : ℚ := b.usableQty - b.reservedQty

/-- An active batch with an active total in an active warehouse. -/
def InStock (cat : Catalog) (t : Tables) (b : ItemBatch) : Prop :=
  b.statusCode = .active ∧ (∃ v ∈ t.inventory.get? b.key.stock, v.statusCode = .active) ∧
  ∃ w ∈ cat.warehouse.get? b.inventoryId, w.statusCode = .active

instance (cat : Catalog) (t : Tables) (b : ItemBatch) : Decidable (InStock cat t b) := by
  unfold InStock; infer_instance

/-- No warehouse, warehouse 0, no unit and the empty unit do not filter. -/
def getAvailableBatches (cat : Catalog) (itemId : Nat) (warehouseId : Option Nat) (requiredUom : Option String)
    (t : Tables) : List ItemBatch :=
  t.itembatch.select fun b =>
    b.itemId = itemId ∧ InStock cat t b ∧ b.reservedQty < b.usableQty ∧
    (∀ w ∈ warehouseId, w ≠ 0 → b.inventoryId = w) ∧ ∀ u ∈ requiredUom, u ≠ "" → b.uomCode = u

/-! ## sort_batches_by_allocation_rule -/

/-- `date.min` and `date.max` as ordinals. -/
def dateMin : Day := 1
def dateMax : Day := 3652059

/-- The expired batches of an item that can expire are left out. -/
def unexpired (today : Day) (item : Item) (batches : List ItemBatch) : List ItemBatch :=
  if item.canExpireFlag then batches.filter fun b => ¬ b.Expired today else batches

def sortBatchesByAllocationRule (today : Day) (batches : List ItemBatch) (item : Item) : List ItemBatch :=
  let activeBatches := (unexpired today item batches).filter fun b => 0 < b.availableQty
  if item.issuanceOrder = .fefo ∧ item.canExpireFlag then
    sortOn (fun b => toLex (b.expiryDate.isNone, toLex (b.expiryDate.getD dateMax,
      toLex (b.batchDate.getD dateMax, -b.availableQty)))) activeBatches
  else if item.issuanceOrder = .lifo then
    sortOn (fun b => toLex (-(b.batchDate.getD 0 : ℤ), -b.availableQty)) activeBatches
  else
    sortOn (fun b => toLex (b.batchDate.getD dateMin, -b.availableQty)) activeBatches

/-! ## auto_allocate_batches -/

/-- One dictionary of the answer; the quantities are doubles. -/
structure BatchAllocation where
  batchId : Nat
  batchNo : String
  warehouseId : Nat
  warehouseName : Option String
  inventoryId : Nat
  batchDate : Option Day
  expiryDate : Option Day
  availableQty : ℚ
  allocatedQty : ℚ
  uomCode : String
  sizeSpec : Option String
  deriving DecidableEq, Repr

def batchAllocation (cat : Catalog) (x : ItemBatch × ℚ) : BatchAllocation where
  batchId := x.1.batchId
  batchNo := x.1.batchNo
  warehouseId := x.1.inventoryId
  warehouseName := (cat.warehouse.get? x.1.inventoryId).map Warehouse.warehouseName
  inventoryId := x.1.inventoryId
  batchDate := x.1.batchDate
  expiryDate := x.1.expiryDate
  availableQty := toBinary64 x.1.availableQty
  allocatedQty := toBinary64 x.2
  uomCode := x.1.uomCode
  sizeSpec := x.1.sizeSpec

/-- `batches` is what the query answered. -/
def autoAllocateBatches (today : Day) (cat : Catalog) (batches : List ItemBatch) (itemId : Nat) (requestedQty : ℚ) :
    List BatchAllocation :=
  match cat.item.get? itemId with
  | none => []
  | some item =>
    (handOut ItemBatch.availableQty requestedQty (sortBatchesByAllocationRule today batches item)).map
      (batchAllocation cat)

/-! ## The order -/

/-- An earlier expiry date; what has none expires last. -/
def ExpiresBefore (b c : ItemBatch) : Prop := ∃ d ∈ b.expiryDate, ∀ e ∈ c.expiryDate, d < e

/-- What has to be issued strictly before what. -/
def Item.Precedes (item : Item) (b c : ItemBatch) : Prop :=
  if item.issuanceOrder = .fefo ∧ item.canExpireFlag then
    ExpiresBefore b c ∨ (b.expiryDate = c.expiryDate ∧ b.batchDate.getD dateMax < c.batchDate.getD dateMax)
  else if item.issuanceOrder = .lifo then c.batchDate.getD 0 < b.batchDate.getD 0
  else b.batchDate.getD dateMin < c.batchDate.getD dateMin

/-- What may be taken of an item, at one warehouse or at all of them. -/
def eligibleBatches (today : Day) (cat : Catalog) (item : Item) (warehouseId : Option Nat) (t : Tables) :
    List ItemBatch :=
  (getAvailableBatches cat item.itemId warehouseId none t).filter fun b => item.canExpireFlag → ¬ b.Expired today

/-- The batches of the plan are eligible and distinct, none gives more than is free, together they give `q` or all
there is, and a batch that has to be issued before one of them is used up. -/
structure AllocatesInOrder (today : Day) (item : Item) (eligible : List ItemBatch) (q : ℚ)
    (allotted : List (ItemBatch × ℚ)) : Prop where
  distinct : (allotted.map fun x => x.1.batchId).Nodup
  bounded : ∀ x ∈ allotted, x.1 ∈ eligible ∧ 0 < x.2 ∧ x.2 ≤ x.1.usableQty - x.1.reservedQty
  total : (allotted.map Prod.snd).sum = min q (eligible.map fun b => b.usableQty - b.reservedQty).sum
  fresh : item.canExpireFlag → ∀ x ∈ allotted, ¬ x.1.Expired today
  inOrder : ∀ x ∈ allotted, ∀ c ∈ eligible, item.Precedes c x.1 → (c, c.usableQty - c.reservedQty) ∈ allotted

section
variable {today : Day} {cat : Catalog} {t : Tables} {item : Item} {batches : List ItemBatch} {b c : ItemBatch}
  {warehouseId : Option Nat} {requiredUom : Option String} {itemId : Nat} {q : ℚ}

theorem mem_getAvailableBatches :
    b ∈ getAvailableBatches cat itemId warehouseId requiredUom t ↔
      b ∈ t.itembatch.rows ∧ b.itemId = itemId ∧ InStock cat t b ∧ b.reservedQty < b.usableQty ∧
      (∀ w ∈ warehouseId, w ≠ 0 → b.inventoryId = w) ∧ ∀ u ∈ requiredUom, u ≠ "" → b.uomCode = u := by
  simp [getAvailableBatches, Table.select]

theorem unexpired_eq : unexpired today item batches = batches.filter fun b => item.canExpireFlag → ¬ b.Expired today := by
  unfold unexpired
  cases item.canExpireFlag <;> simp

/-- Expiry dates as both first-expired-first-out rules compare them, before anything else. -/
theorem not_before_of_expiry_le {κ : Type} [LinearOrder κ] {x y : κ}
    (h : toLex (b.expiryDate.isNone, toLex (b.expiryDate.getD dateMax, x)) ≤
      toLex (c.expiryDate.isNone, toLex (c.expiryDate.getD dateMax, y))) :
    ¬ ExpiresBefore c b ∧ (c.expiryDate = b.expiryDate → x ≤ y) := by
  simp only [Prod.Lex.toLex_le_toLex] at h
  refine ⟨fun ⟨d, hd, hbefore⟩ => ?_, fun he => ?_⟩
  · rw [Option.mem_def.1 hd] at h
    cases hb : b.expiryDate with
    | none => simp [hb, Bool.lt_iff] at h
    | some e =>
      simp only [hb, Option.isNone_some, Option.getD_some, lt_irrefl, true_and, false_or] at h
      rcases h with h | ⟨h, -⟩
      · exact lt_asymm h (hbefore e hb)
      · exact (hbefore e hb).ne' h
  · rw [he] at h
    simpa using h

/-- **The rule sorts by the issuing order.** -/
theorem sortBatchesByAllocationRule_pairwise (today : Day) (batches : List ItemBatch) (item : Item) :
    (sortBatchesByAllocationRule today batches item).Pairwise fun b c => ¬ item.Precedes c b := by
  unfold sortBatchesByAllocationRule Item.Precedes
  dsimp only
  split_ifs with hfefo hlifo
  · refine (sortOn_pairwise _ _).imp fun {b c} h => ?_
    obtain ⟨hexp, hdate⟩ := not_before_of_expiry_le h
    rw [not_or, not_and, not_lt]
    exact ⟨hexp, fun he => Prod.Lex.monotone_fst _ _ (hdate he)⟩
  · refine (sortOn_pairwise _ _).imp fun {b c} h => not_lt.2 ?_
    have hle := Prod.Lex.monotone_fst _ _ h
    exact_mod_cast neg_le_neg_iff.1 hle
  · refine (sortOn_pairwise _ _).imp fun {b c} h => not_lt.2 ?_
    exact Prod.Lex.monotone_fst _ _ h

/-- It sorts what is not expired and has something free. -/
theorem sortBatchesByAllocationRule_perm (today : Day) (batches : List ItemBatch) (item : Item) :
    (sortBatchesByAllocationRule today batches item).Perm
      ((batches.filter fun b => item.canExpireFlag → ¬ b.Expired today).filter fun b => 0 < b.availableQty) := by
  unfold sortBatchesByAllocationRule
  rw [unexpired_eq]
  dsimp only
  split_ifs <;> exact sortOn_perm _ _

/-- What is sorted is what is eligible. -/
theorem sorted_perm (today : Day) (ha : batches.Perm (getAvailableBatches cat item.itemId warehouseId none t)) :
    (sortBatchesByAllocationRule today batches item).Perm (eligibleBatches today cat item warehouseId t) := by
  refine (sortBatchesByAllocationRule_perm today batches item).trans ?_
  refine ((ha.filter _).filter _).trans (.of_eq ?_)
  rw [List.filter_eq_self.2]
  · rfl
  · intro b hb
    have hfree := (mem_getAvailableBatches.1 (List.mem_filter.1 hb).1).2.2.2.1
    exact decide_eq_true (sub_pos.2 hfree)

theorem availableQty_pos (hb : b ∈ eligibleBatches today cat item warehouseId t) : 0 < b.availableQty :=
  sub_pos.2 (mem_getAvailableBatches.1 (List.mem_filter.1 hb).1).2.2.2.1

theorem ids_nodup (hc : t.Consistent) : ((eligibleBatches today cat item warehouseId t).map ItemBatch.batchId).Nodup :=
  hc.pkItembatch.sublist ((List.filter_sublist.trans List.filter_sublist).map _)

theorem precedes_irrefl (item : Item) (b : ItemBatch) : ¬ item.Precedes b b := by
  unfold Item.Precedes ExpiresBefore
  split_ifs
  · rintro (⟨d, hd, hlt⟩ | ⟨-, hlt⟩)
    · exact lt_irrefl d (hlt d hd)
    · exact lt_irrefl _ hlt
  · exact lt_irrefl _
  · exact lt_irrefl _

/-! ## Doubles -/

/-- What is left of a quantity of 15 digits has 15 digits, and so has what each batch gives. -/
theorem handOut_fifteenDigits {l : List ItemBatch} (hq : 0 < q) (hd : FifteenDigits q)
    (hl : ∀ b ∈ l, 0 < b.availableQty ∧ b.availableQty < 10 ^ 11 ∧ AtScale 4 b.availableQty) {x : ItemBatch × ℚ}
    (hx : x ∈ handOut ItemBatch.availableQty q l) : FifteenDigits x.2 := by
  obtain ⟨n, s, hn, hs, he⟩ := hd
  have hn' : (n : ℚ) < 10 ^ 15 := by exact_mod_cast (abs_lt.1 hn).2
  -- the scale of the quantity, when it has more decimals than a column
  obtain ⟨k, hk4, hk, hqk, hsmall⟩ : ∃ k : ℕ, 4 ≤ k ∧ k ≤ 307 ∧ AtScale k q ∧ (k = 4 ∨ q * 10 ^ k < 10 ^ 15) := by
    rcases le_or_gt (-4) s with hs4 | hs4
    · refine ⟨4, le_rfl, by norm_num, atScale_iff.2 ⟨n * 10 ^ (s + 4).toNat, ?_⟩, .inl rfl⟩
      push_cast
      rw [he, mul_assoc, ← zpow_natCast, ← zpow_natCast, ← zpow_add₀ (by norm_num), Int.toNat_of_nonneg (by omega)]
      norm_num
    · have hten : (10 : ℚ) ^ s * 10 ^ (-s).toNat = 1 := by
        rw [← zpow_natCast, ← zpow_add₀ (by norm_num), Int.toNat_of_nonneg (by omega), add_neg_cancel, zpow_zero]
      refine ⟨(-s).toNat, by omega, by omega, atScale_iff.2 ⟨n, ?_⟩, .inr ?_⟩
      · rw [he, mul_assoc, hten, mul_one]
      · rwa [he, mul_assoc, hten, mul_one]
  refine handOut_induction (P := FifteenDigits) (Q := fun r => 0 ≤ r ∧ r ≤ q ∧ AtScale k r) (fun b hb r hr => ?_)
    (fun b hb r hr => ?_) ⟨hq.le, le_rfl, hqk⟩ hx
  · obtain ⟨hpos, hlt, hat⟩ := hl b hb
    have hmin : 0 ≤ min b.availableQty r := le_min hpos.le hr.1
    refine fifteenDigits_of_scale hk ((hat.mono hk4).min hr.2.2) hmin ?_
    rcases hsmall with rfl | hsmall
    · have := min_le_left b.availableQty r
      linarith
    · exact (mul_le_mul_of_nonneg_right ((min_le_right _ _).trans hr.2.1) (by positivity)).trans_lt hsmall
  · obtain ⟨hpos, -, hat⟩ := hl b hb
    have hmin : 0 ≤ min b.availableQty r := le_min hpos.le hr.1
    exact ⟨sub_nonneg.2 (min_le_right _ _), (sub_le_self r hmin).trans hr.2.1,
      hr.2.2.sub ((hat.mono hk4).min hr.2.2)⟩

end

/-- **The automatic plan is exact and greedy in issuing order**, and its doubles read back as the quantities. -/
theorem auto_allocate_greedy (db : Database) (cat : Catalog) (today : Day) (item : Item)
    (hi : cat.item.get? item.itemId = some item) (warehouseId : Option Nat) (batches : List ItemBatch)
    (ha : batches.Perm (getAvailableBatches cat item.itemId warehouseId none db.tables)) (q : ℚ) (hq : 0 < q) :
    ∃ allotted, autoAllocateBatches today cat batches item.itemId q = allotted.map (batchAllocation cat) ∧
      AllocatesInOrder today item (eligibleBatches today cat item warehouseId db.tables) q allotted ∧
      ((∀ b ∈ db.tables.itembatch.rows, b.usableQty < 10 ^ 11) → FifteenDigits q →
        ∀ x ∈ allotted, shortest (batchAllocation cat x).allocatedQty = x.2) := by
  have hc := db.consistent
  have hperm := sorted_perm today ha
  set sorted := sortBatchesByAllocationRule today batches item with hsorted
  have hpos : ∀ b ∈ sorted, 0 < b.availableQty := fun b hb => availableQty_pos (hperm.mem_iff.1 hb)
  have hsub := handOut_sublist ItemBatch.availableQty q sorted
  have hmem : ∀ x ∈ handOut ItemBatch.availableQty q sorted, x.1 ∈ sorted := fun x hx =>
    hsub.subset (List.mem_map_of_mem hx)
  refine ⟨handOut ItemBatch.availableQty q sorted, ?_, ⟨?_, fun x hx => ?_, ?_, fun he x hx => ?_, fun x hx c hce hp => ?_⟩,
    fun hlt hd x hx => ?_⟩
  · rw [autoAllocateBatches, hi]
  · have hids := (hsub.map ItemBatch.batchId).nodup ((hperm.map ItemBatch.batchId).nodup_iff.2 (ids_nodup hc))
    rwa [List.map_map] at hids
  · exact ⟨hperm.mem_iff.1 (hmem x hx), handOut_bounds hx⟩
  · rw [sum_handOut hpos hq.le, (hperm.map ItemBatch.availableQty).sum_eq]
    rfl
  · have := (List.mem_filter.1 (hperm.mem_iff.1 (hmem x hx))).2
    exact of_decide_eq_true this he
  · exact handOut_full (precedes_irrefl item) (sortBatchesByAllocationRule_pairwise today batches item) hpos hx
      (hperm.mem_iff.2 hce) (not_not.2 hp)
  · refine shortest_toBinary64 (handOut_bounds hx).1 (handOut_fifteenDigits hq hd (fun b hb => ⟨hpos b hb, ?_⟩) hx)
    have hb := (mem_getAvailableBatches.1 (List.mem_filter.1 (hperm.mem_iff.1 hb)).1).1
    obtain ⟨hu, hr⟩ := batch_atScale hc hb
    exact ⟨(sub_le_self _ (hc.batch b hb).2.1.2).trans_lt (hlt b hb), hu.sub hr⟩

namespace Site

def fifoItem : Item := ⟨1, true, .fifo⟩

def catalog : Catalog := ⟨⟨[fifoItem], by decide⟩, ⟨[⟨1, "CENTRAL", .active⟩], by decide⟩⟩

end Site

/-- Of the ten units of the only batch, seven and a quarter are given. -/
theorem auto_allocate_greedy_site :
    ∃ allotted, autoAllocateBatches 40 Site.catalog [Site.batch] 1 (29 / 4) =
        allotted.map (batchAllocation Site.catalog) ∧
      AllocatesInOrder 40 Site.fifoItem (eligibleBatches 40 Site.catalog Site.fifoItem none Site.db.tables) (29 / 4)
        allotted ∧
      ((∀ b ∈ Site.db.tables.itembatch.rows, b.usableQty < 10 ^ 11) → FifteenDigits (29 / 4) →
        ∀ x ∈ allotted, shortest (batchAllocation Site.catalog x).allocatedQty = x.2) :=
  auto_allocate_greedy Site.db Site.catalog 40 Site.fifoItem (by decide) none [Site.batch]
    (.of_eq (by decide +kernel)) (29 / 4) (by norm_num)

example : (autoAllocateBatches 40 Site.catalog [Site.batch] 1 (29 / 4)).map (fun a => (a.batchId, a.allocatedQty)) =
    [(1, 29 / 4)] := by decide +kernel

end Dmis
