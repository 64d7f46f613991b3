import Dmis.ItemCodes
import Dmis.Schema
import Dmis.Lib.Greedy
import Dmis.Lib.Query
import Mathlib.Data.Prod.Lex
import Mathlib.Order.WithBot

/-!
# Stock of the UPC warehouse

`scripts/populate_upc_inventory.py`: three passes make items for the descriptions of the MLSS staging rows, add up what
was received and issued, and book it into warehouse 5.

| here | there |
| --- | --- |
| `Texts.upperTrim`, `upperStrip`, `itemName` | `UPPER(TRIM(..))`, `desc.upper().strip()`, `item_desc.upper()[:60]` |
| `allMissing`, `missingItems` | the query for missing items and the loop over it |
| `createMissingItems` | `create_missing_items` (`:46-121`) |
| `calculateNetInventory` | `calculate_net_inventory` (`:123-160`) |
| `populateUpcInventory` | `populate_upc_inventory` (`:162-215`) |
| `run` | the three of them; `none` where the database refuses a row |

A query without `ORDER BY` returns its rows in any order (`scan`). The passes find an item by three readings of a text.
-/

namespace Dmis

open Relational Keyed

namespace UpcInventory

open ItemCodes (Text PythonCasing generateItemCode)

/-! ## Texts -/

/-- How Python and the database read texts; the collation sorts by a key. -/
structure Texts (κ : Type) where
  up : PythonCasing
  /-- `UPPER`. -/
  dbUpper : Text → Text
  collation : Text → κ

/-- `TRIM`, which takes blanks only. -/
def sqlTrim (s : Text) : Text := (s.dropWhile (· = ' ')).rdropWhile (· = ' ')

namespace Texts
variable {κ : Type} (tx : Texts κ)

def upperTrim (s : Text) : Text := tx.dbUpper (sqlTrim s)

def pyUpper (s : Text) : Text := s.flatMap tx.up.upper

def upperStrip (s : Text) : Text := strip (tx.pyUpper s)

def itemName (itemDesc : Text) : Text := (tx.pyUpper itemDesc).take 60

end Texts

/-! ## Tables -/

/-- A row of `hadr_aid_movement_staging`. -/
structure StagingRow where
  itemDesc : Text
  categoryCode : String
  movementType : MovementType
  qty : ℚ
  createById : String
  /-- `numeric(12,2)`. -/
  scale : AtScale 2 qty

structure Item where
  itemId : ℕ
  itemCode : Text
  itemName : Text
  skuCode : Text
  categoryId : ℕ
  deriving DecidableEq, Repr

/-- `pk_item`, `uk_item_1` to `uk_item_3`. -/
structure ItemTable where
  rows : List Item
  pkItem : (rows.map Item.itemId).Nodup
  ukItem1 : (rows.map Item.itemCode).Nodup
  ukItem2 : (rows.map Item.itemName).Nodup
  ukItem3 : (rows.map Item.skuCode).Nodup

/-- What foreign keys refer to, and which rows of `inventory` are referred to. -/
structure References where
  categoryIds : List ℕ
  uomCodes : List String
  warehouseIds : List ℕ
  /-- By `item_location`, `transfer_item` and `xfreturn_item`. -/
  inventoryKeys : List StockKey

structure Db where
  items : ItemTable
  inventory : Table Inventory
  staging : List StagingRow
  references : References

def upcWarehouse : ℕ := 5

/-- `create_by_id = 'MLSS_IMPORT'`. -/
def Db.mlss (db : Db) : List StagingRow := db.staging.filter fun s => s.createById = "MLSS_IMPORT"

/-! ## Missing items -/

def categoryIdOf : String → Option ℕ
  | "FOOD_WATER" => some 1
  | "MEDICAL" => some 2
  | "SHELTER" => some 3
  | "HYGIENE" => some 4
  | "LOGS_ENGR" => some 5
  | _ => none

/-- A row of the query for missing items. -/
structure Missing where
  itemDesc : Text
  categoryCode : String
  deriving DecidableEq, Repr

def Missing.categoryId (r : Missing) : Option ℕ := categoryIdOf r.categoryCode

/-- `NULL` is the greatest. -/
def Missing.categoryKey (r : Missing) : WithTop ℕ :=
  match r.categoryId with
  | some c => c
  | none => ⊤

section
variable {κ : Type} [LinearOrder κ] (tx : Texts κ)

def allMissing (db : Db) : List Missing :=
  sortOn (fun r => toLex (r.categoryKey, tx.collation r.itemDesc))
    (((outerJoin (fun s i => tx.upperTrim s.itemDesc = tx.upperTrim i.itemName) db.mlss db.items.rows).filter
      fun x => x.2.isNone).map fun x => (⟨x.1.itemDesc, x.1.categoryCode⟩ : Missing)).dedup

def existingNames (items : ItemTable) : List Text := items.rows.map fun i => tx.upperTrim i.itemName

/-- The loop over `all_missing`. -/
def missingItems : List Text → List Missing → List Missing
  | _, [] => []
  | seenNames, r :: rows =>
    let nameUpper := tx.upperStrip r.itemDesc
    if seenNames.contains nameUpper then missingItems seenNames rows
    else r :: missingItems (nameUpper :: seenNames) rows

/-! ## New items -/

/-- `c_item_1a` to `c_item_1c`, the foreign keys, and the range of `integer`. -/
def Item.Check (refs : References) (i : Item) : Prop :=
  tx.dbUpper i.itemCode = i.itemCode ∧ tx.dbUpper i.itemName = i.itemName ∧ tx.dbUpper i.skuCode = i.skuCode ∧
    i.categoryId ∈ refs.categoryIds ∧ "EA" ∈ refs.uomCodes ∧ i.itemId < 2 ^ 31

instance (refs : References) (i : Item) : Decidable (i.Check tx refs) := by unfold Item.Check; infer_instance

/-- No row has a value of the new one in a unique column. -/
def ItemTable.Admits (t : ItemTable) (i : Item) : Prop :=
  ∀ r ∈ t.rows, r.itemId ≠ i.itemId ∧ r.itemCode ≠ i.itemCode ∧ r.itemName ≠ i.itemName ∧ r.skuCode ≠ i.skuCode

instance (t : ItemTable) (i : Item) : Decidable (t.Admits i) := by unfold ItemTable.Admits; infer_instance

def ItemTable.insert (refs : References) (t : ItemTable) (i : Item) : Option ItemTable :=
  if h : t.Admits i ∧ i.Check tx refs then
    some {
      rows := t.rows ++ [i]
      pkItem := nodup_map_concat t.pkItem fun r hr => (h.1 r hr).1
      ukItem1 := nodup_map_concat t.ukItem1 fun r hr => (h.1 r hr).2.1
      ukItem2 := nodup_map_concat t.ukItem2 fun r hr => (h.1 r hr).2.2.1
      ukItem3 := nodup_map_concat t.ukItem3 fun r hr => (h.1 r hr).2.2.2
    }
  else none

/-- The loop over `missing_items`; `category_id` is `NOT NULL`. -/
def createItems (fuel : ℕ) (refs : References) : List Missing → ℕ → Finset Text → ItemTable → Option ItemTable
  | [], _, _, t => some t
  | r :: rows, nextId, existingCodes, t => do
    let (itemCode, existingCodes) ← generateItemCode tx.up fuel r.itemDesc existingCodes
    let categoryId ← r.categoryId
    let t ← t.insert tx refs ⟨nextId, itemCode, tx.itemName r.itemDesc, itemCode, categoryId⟩
    createItems fuel refs rows (nextId + 1) existingCodes t

def createMissingItems (fuel : ℕ) (db : Db) : Option ItemTable :=
  let maxId := (db.items.rows.map Item.itemId).max?.getD 0
  createItems tx fuel db.references (missingItems tx (existingNames tx db.items) (allMissing tx db)) (maxId + 1)
    (db.items.rows.map Item.itemCode).toFinset db.items

/-! ## Net quantities -/

def received (rows : List StagingRow) : ℚ := (rows.map fun s => if s.movementType = .received then s.qty else 0).sum

def issued (rows : List StagingRow) : ℚ := (rows.map fun s => if s.movementType = .issued then s.qty else 0).sum

def netQty (rows : List StagingRow) : ℚ := received rows - issued rows

/-- An entry of `inventory_data`. -/
structure NetInventory where
  itemName : Text
  received : ℚ
  issued : ℚ
  netQty : ℚ

def calculateNetInventory (db : Db) : List NetInventory :=
  (sortOn (fun g => tx.collation g.1) (groupBy (fun s => tx.upperTrim s.itemDesc) db.mlss)).map fun g =>
    ⟨g.1, toBinary64 (received g.2), toBinary64 (issued g.2), toBinary64 (netQty g.2)⟩

/-! ## Stock -/

/-- `item_lookup`, of the rows as they come. -/
def itemLookup (rows : List Item) : Text → Option ℕ := dict (fun i => tx.upperTrim i.itemName) Item.itemId rows

/-- The row that is inserted for an entry, if any. -/
def stockRow (lookup : Text → Option ℕ) (inv : NetInventory) : Option Inventory :=
  match lookup inv.itemName with
  | none | some 0 => none -- `if not item_id`
  | some itemId =>
    let usableQty := max 0 inv.netQty
    if usableQty = 0 then none
    else some ⟨upcWarehouse, itemId, numeric 2 (shortest usableQty), 0, 0, 0, .active⟩

end

/-- `numeric(12,2)`, the constraints, and the foreign keys. -/
def Storable (refs : References) (v : Inventory) : Prop :=
  v.usableQty < 10 ^ 10 ∧ v.Check ∧ v.inventoryId ∈ refs.warehouseIds ∧ "EA" ∈ refs.uomCodes

instance (refs : References) : DecidablePred (Storable refs) := fun v => by unfold Storable; infer_instance

def insertInventory (refs : References) (lookup : Text → Option ℕ) : List NetInventory → Table Inventory →
    Option (Table Inventory)
  | [], t => some t
  | inv :: data, t =>
    match stockRow lookup inv with
    | none => insertInventory refs lookup data t
    | some v => if Storable refs v then (t.insert v).bind (insertInventory refs lookup data) else none

section
variable {κ : Type} [LinearOrder κ] (tx : Texts κ) (fuel : ℕ) (scan : List Item → List Item)

/-- A row that is referred to cannot be deleted. -/
def populateUpcInventory (inventoryData : List NetInventory) (db : Db) : Option (Table Inventory) :=
  if db.references.inventoryKeys.any fun k => k.inventoryId = upcWarehouse then none
  else insertInventory db.references (itemLookup tx (scan db.items.rows)) inventoryData
    (db.inventory.deleteWhere fun v => v.inventoryId = upcWarehouse)

def run (db : Db) : Option Db := do
  let items ← createMissingItems tx fuel db
  let db := { db with items }
  let inventory ← populateUpcInventory tx scan (calculateNetInventory tx db) db
  pure { db with inventory }

end

/-! ## The items that are made -/

section
variable {κ : Type} [LinearOrder κ] (tx : Texts κ) {db : Db}

theorem mem_allMissing {r : Missing} : r ∈ allMissing tx db ↔
    (∃ s ∈ db.mlss, (⟨s.itemDesc, s.categoryCode⟩ : Missing) = r) ∧
      tx.upperTrim r.itemDesc ∉ existingNames tx db.items := by
  have hborne : ∀ s : StagingRow,
      (∀ i ∈ db.items.rows, decide (tx.upperTrim s.itemDesc = tx.upperTrim i.itemName) = false) ↔
        tx.upperTrim s.itemDesc ∉ existingNames tx db.items := fun s => by
    unfold existingNames
    simp only [decide_eq_false_iff_not, List.mem_map, not_exists, not_and]
    exact forall₂_congr fun i _ => not_congr eq_comm
  unfold allMissing
  rw [(sortOn_perm _ _).mem_iff, List.mem_dedup, List.mem_map]
  constructor
  · rintro ⟨⟨s, o⟩, hx, rfl⟩
    obtain ⟨hx, hnone⟩ := List.mem_filter.1 hx
    cases o with
    | some i => cases hnone
    | none =>
      obtain ⟨hs, hmiss⟩ := mem_outerJoin_none.1 hx
      exact ⟨⟨s, hs, rfl⟩, (hborne s).1 hmiss⟩
  · rintro ⟨⟨s, hs, rfl⟩, hmiss⟩
    exact ⟨(s, none), List.mem_filter.2 ⟨mem_outerJoin_none.2 ⟨hs, (hborne s).2 hmiss⟩, rfl⟩, rfl⟩

theorem missing_of_mlss {s : StagingRow} (hs : s ∈ db.mlss) (h : tx.upperTrim s.itemDesc ∉ existingNames tx db.items) :
    ⟨s.itemDesc, s.categoryCode⟩ ∈ allMissing tx db :=
  (mem_allMissing tx).2 ⟨⟨s, hs, rfl⟩, h⟩

omit [LinearOrder κ] in
theorem missingItems_eq (seenNames : List Text) (rows : List Missing) : missingItems tx seenNames rows =
    (firsts (fun r => some (tx.upperStrip r.itemDesc)) seenNames rows).reduceOption := by
  induction rows generalizing seenNames with
  | nil => rfl
  | cons r rows ih =>
    unfold missingItems firsts
    simp only [List.contains_iff_mem]
    by_cases hseen : tx.upperStrip r.itemDesc ∈ seenNames
    · simp only [hseen, if_true, ih]
      rfl
    · simp only [hseen, if_false, ih]
      rfl

/-- A description gets an item: the first without one of those that Python reads alike, if no item is read so. -/
def GetsItem (db : Db) (r : Missing) : Prop :=
  tx.upperStrip r.itemDesc ∉ existingNames tx db.items ∧
    (allMissing tx db).find? (fun x => tx.upperStrip x.itemDesc = tx.upperStrip r.itemDesc) = some r

theorem mem_missingItems {r : Missing} :
    r ∈ missingItems tx (existingNames tx db.items) (allMissing tx db) ↔ GetsItem tx db r := by
  rw [missingItems_eq, List.reduceOption_mem_iff, mem_firsts]
  unfold GetsItem IsNew
  rw [List.find?_eq_some_iff_append]
  simp only [Option.mem_def, Option.some.injEq, exists_eq_left', List.mem_append, List.mem_filterMap, not_or,
    not_exists, not_and, decide_true, true_and, Bool.not_eq_true', decide_eq_false_iff_not]
  constructor
  · rintro ⟨before, after, hrows, hbefore, hnew⟩
    exact ⟨hnew, before, after, hrows, hbefore⟩
  · rintro ⟨hnew, before, after, hrows, hbefore⟩
    exact ⟨before, after, hrows, hbefore, hnew⟩

/-- Nothing is made when every description without an item is the name of one for Python. -/
theorem missingItems_eq_nil_iff : missingItems tx (existingNames tx db.items) (allMissing tx db) = [] ↔
    ∀ s ∈ db.mlss, tx.upperTrim s.itemDesc ∈ existingNames tx db.items ∨
      tx.upperStrip s.itemDesc ∈ existingNames tx db.items := by
  rw [missingItems_eq, firsts_none_iff]
  constructor
  · intro hall s hs
    by_cases hborne : tx.upperTrim s.itemDesc ∈ existingNames tx db.items
    · exact .inl hborne
    · exact .inr (hall _ (List.mem_filterMap.2 ⟨_, missing_of_mlss tx hs hborne, rfl⟩))
  · intro hall name hname
    obtain ⟨r, hr, hkey⟩ := List.mem_filterMap.1 hname
    obtain ⟨⟨s, hs, rfl⟩, hmiss⟩ := (mem_allMissing tx).1 hr
    cases hkey
    exact (hall s hs).resolve_left hmiss

omit [LinearOrder κ] in
theorem rows_insert {refs : References} {t t' : ItemTable} {i : Item} (h : t.insert tx refs i = some t') :
    t'.rows = t.rows ++ [i] := by
  unfold ItemTable.insert at h
  split at h
  · cases h
    rfl
  · cases h

omit [LinearOrder κ] in
/-- Each missing item becomes a row with its name and a new number. -/
theorem rows_createItems {fuel : ℕ} {refs : References} {rows : List Missing} {nextId : ℕ} {codes : Finset Text}
    {t t' : ItemTable} (h : createItems tx fuel refs rows nextId codes t = some t') :
    ∃ created, t'.rows = t.rows ++ created ∧
      List.Forall₂ (fun r i => tx.itemName r.itemDesc = i.itemName ∧ nextId ≤ i.itemId) rows created := by
  induction rows generalizing nextId codes t with
  | nil =>
    cases h
    exact ⟨[], (List.append_nil _).symm, .nil⟩
  | cons r rows ih =>
    unfold createItems at h
    simp only [Option.bind_eq_bind, Option.bind_eq_some_iff] at h
    obtain ⟨⟨code, codes'⟩, -, categoryId, -, t₁, hinsert, hrest⟩ := h
    obtain ⟨created, hrows, hcreated⟩ := ih hrest
    refine ⟨⟨nextId, code, tx.itemName r.itemDesc, code, categoryId⟩ :: created, ?_,
      .cons ⟨rfl, le_refl nextId⟩ (hcreated.imp fun r i hri => ⟨hri.1, (Nat.le_succ nextId).trans hri.2⟩)⟩
    rw [hrows, rows_insert tx hinsert, List.append_assoc]
    rfl

/-- The names of items, those made included. -/
def Named (db : Db) (n : Text) : Prop :=
  n ∈ db.items.rows.map Item.itemName ∨ ∃ r, GetsItem tx db r ∧ tx.itemName r.itemDesc = n

section
variable {tx} {fuel : ℕ} {items : ItemTable}

theorem named_iff (h : createMissingItems tx fuel db = some items) {n : Text} :
    n ∈ items.rows.map Item.itemName ↔ Named tx db n := by
  obtain ⟨created, hrows, hcreated⟩ := rows_createItems tx h
  have hnames := map_eq_of_forall₂ (f := fun r : Missing => tx.itemName r.itemDesc) (fun _ _ hri => hri.1) hcreated
  unfold Named
  rw [hrows, List.map_append, List.mem_append, ← hnames]
  refine or_congr Iff.rfl ?_
  simp only [List.mem_map, mem_missingItems]

theorem old_or_numbered (h : createMissingItems tx fuel db = some items) {i : Item} (hi : i ∈ items.rows) :
    i ∈ db.items.rows ∨ i.itemId ≠ 0 := by
  obtain ⟨created, hrows, hcreated⟩ := rows_createItems tx h
  rw [hrows] at hi
  rcases List.mem_append.1 hi with hold | hnew
  · exact .inl hold
  · obtain ⟨r, -, hri⟩ := exists_of_forall₂_right hcreated i hnew
    exact .inr (by omega)

theorem mem_of_old (h : createMissingItems tx fuel db = some items) {i : Item} (hi : i ∈ db.items.rows) :
    i ∈ items.rows := by
  obtain ⟨created, hrows, -⟩ := rows_createItems tx h
  rw [hrows]
  exact List.mem_append_left _ hi

theorem createMissingItems_nil (h : missingItems tx (existingNames tx db.items) (allMissing tx db) = []) :
    createMissingItems tx fuel db = some db.items := by
  unfold createMissingItems
  rw [h]
  rfl

/-- A run that makes no item had none to make. -/
theorem missingItems_of_same (h : createMissingItems tx fuel db = some items) (hsame : items.rows = db.items.rows) :
    missingItems tx (existingNames tx db.items) (allMissing tx db) = [] := by
  obtain ⟨created, hrows, hcreated⟩ := rows_createItems tx h
  rw [hsame] at hrows
  have hnil : created = [] := List.self_eq_append_right.1 hrows
  rw [hnil] at hcreated
  exact List.forall₂_nil_right_iff.1 hcreated

end

end

/-! ## What a run books -/

section
variable {κ : Type} [LinearOrder κ] (tx : Texts κ) (db : Db)

/-- The descriptions as the net quantities group them. -/
def descriptions : List Text := (db.mlss.map fun s => tx.upperTrim s.itemDesc).dedup

def rowsOf (k : Text) : List StagingRow := db.mlss.filter fun s => tx.upperTrim s.itemDesc = k

/-- Received minus issued. -/
def net (k : Text) : ℚ := netQty (rowsOf tx db k)

def entryOf (k : Text) : NetInventory :=
  ⟨k, toBinary64 (received (rowsOf tx db k)), toBinary64 (issued (rowsOf tx db k)), toBinary64 (net tx db k)⟩

theorem calculateNetInventory_perm : (calculateNetInventory tx db).Perm ((descriptions tx db).map (entryOf tx db)) := by
  unfold calculateNetInventory groupBy descriptions
  refine ((sortOn_perm _ _).map _).trans ?_
  rw [List.map_map]
  rfl

omit [LinearOrder κ] in
theorem net_atScale (k : Text) : AtScale 2 (net tx db k) := by
  have hsum : ∀ (m : MovementType) (rows : List StagingRow),
      AtScale 2 (rows.map fun s => if s.movementType = m then s.qty else 0).sum := fun m rows => by
    refine AtScale.sum fun q hq => ?_
    obtain ⟨s, -, rfl⟩ := List.mem_map.1 hq
    split_ifs
    · exact s.scale
    · exact AtScale.zero
  exact (hsum .received _).sub (hsum .issued _)

/-- What is written for a quantity. -/
def bookedRow (itemId : ℕ) (q : ℚ) : Inventory :=
  ⟨upcWarehouse, itemId, numeric 2 (shortest (toBinary64 q)), 0, 0, 0, .active⟩

omit [LinearOrder κ] in
/-- A positive quantity is booked if an item is found. -/
theorem stockRow_entryOf (lookup : Text → Option ℕ) (k : Text) : stockRow lookup (entryOf tx db k) =
    if 0 < net tx db k then ((lookup k).filter (· ≠ 0)).map fun itemId => bookedRow itemId (net tx db k) else none := by
  unfold stockRow entryOf bookedRow
  by_cases hpos : 0 < net tx db k
  · have hdouble := toBinary64_pos_of_scale (by norm_num) (net_atScale tx db k) hpos
    rw [if_pos hpos]
    cases lookup k with
    | none => rfl
    | some itemId =>
      cases itemId with
      | zero => rfl
      | succ n =>
        simp only [max_eq_right hdouble.le, hdouble.ne', if_false]
        rfl
  · have hdouble := toBinary64_nonpos (not_lt.1 hpos)
    rw [if_neg hpos]
    cases lookup k with
    | none => rfl
    | some itemId =>
      cases itemId with
      | zero => rfl
      | succ n =>
        simp only [max_eq_left hdouble, if_true]

theorem rows_insertInventory {refs : References} {lookup : Text → Option ℕ} {data : List NetInventory}
    {t t' : Table Inventory} (h : insertInventory refs lookup data t = some t') :
    t'.rows = t.rows ++ data.filterMap (stockRow lookup) ∧ ∀ v ∈ data.filterMap (stockRow lookup), Storable refs v := by
  induction data generalizing t with
  | nil =>
    cases h
    exact ⟨(List.append_nil _).symm, by simp⟩
  | cons inv data ih =>
    unfold insertInventory at h
    cases hrow : stockRow lookup inv with
    | none =>
      rw [hrow] at h
      rw [List.filterMap_cons_none hrow]
      exact ih h
    | some v =>
      rw [hrow] at h
      rw [List.filterMap_cons_some hrow, List.forall_mem_cons]
      simp only at h
      split_ifs at h with hstorable
      obtain ⟨t₁, hinsert, hrest⟩ := Option.bind_eq_some_iff.1 h
      obtain ⟨hrows, hall⟩ := ih hrest
      refine ⟨?_, hstorable, hall⟩
      rw [hrows, (Table.insert_eq_some.1 hinsert).2, List.append_assoc]
      rfl

theorem insertInventory_congr {refs : References} {lookup lookup' : Text → Option ℕ} {data : List NetInventory}
    (h : ∀ inv ∈ data, stockRow lookup' inv = stockRow lookup inv) (t : Table Inventory) :
    insertInventory refs lookup' data t = insertInventory refs lookup data t := by
  induction data generalizing t with
  | nil => rfl
  | cons inv data ih =>
    obtain ⟨hinv, hdata⟩ := List.forall_mem_cons.1 h
    unfold insertInventory
    rw [hinv]
    simp only [funext (ih hdata)]

end

/-! ## Runs -/

section
variable {κ : Type} [LinearOrder κ] (tx : Texts κ) (fuel : ℕ) (scan : List Item → List Item)

/-- The three passes on the way from `db` to `db'`. -/
structure Populated (db db' : Db) : Prop where
  items : createMissingItems tx fuel db = some db'.items
  staging : db'.staging = db.staging
  references : db'.references = db.references
  unreferenced : (db.references.inventoryKeys.any fun k => k.inventoryId = upcWarehouse) = false
  inventory : insertInventory db.references (itemLookup tx (scan db'.items.rows)) (calculateNetInventory tx db)
    (db.inventory.deleteWhere fun v => v.inventoryId = upcWarehouse) = some db'.inventory

theorem run_eq_some {db db' : Db} : run tx fuel scan db = some db' ↔ Populated tx fuel scan db db' := by
  unfold run populateUpcInventory
  simp only [Option.bind_eq_bind, Option.bind_eq_some_iff, Option.pure_def, Option.some.injEq]
  constructor
  · rintro ⟨items, hitems, inventory, hinventory, rfl⟩
    split_ifs at hinventory with href
    exact ⟨hitems, rfl, rfl, by simpa using href, hinventory⟩
  · intro h
    refine ⟨db'.items, h.items, db'.inventory, ?_, ?_⟩
    · rw [if_neg (by rw [h.unreferenced]; simp)]
      exact h.inventory
    · cases db'
      cases h.staging
      cases h.references
      rfl

/-- The stock of the warehouse. -/
def Db.upc (db : Db) : List Inventory := db.inventory.rows.filter fun v => v.inventoryId = upcWarehouse

theorem inventoryId_of_stockRow {lookup : Text → Option ℕ} {inv : NetInventory} {v : Inventory}
    (h : stockRow lookup inv = some v) : v.inventoryId = upcWarehouse := by
  unfold stockRow at h
  split at h
  · cases h
  · cases h
  · simp only at h
    split_ifs at h
    cases h
    rfl

namespace Populated
variable {tx fuel scan} {db db' : Db} (h : Populated tx fuel scan db db')
include h

theorem mlss : db'.mlss = db.mlss := by
  unfold Db.mlss
  rw [h.staging]

theorem upc : db'.upc = (calculateNetInventory tx db).filterMap (stockRow (itemLookup tx (scan db'.items.rows))) := by
  have hkept : (db.inventory.deleteWhere fun v => v.inventoryId = upcWarehouse).rows.filter
      (fun v => v.inventoryId = upcWarehouse) = [] := by
    refine List.filter_eq_nil_iff.2 fun v hv => ?_
    simpa using (List.mem_filter.1 hv).2
  unfold Db.upc
  rw [(rows_insertInventory h.inventory).1, List.filter_append, hkept, List.nil_append, List.filter_eq_self]
  intro v hv
  obtain ⟨inv, -, hrow⟩ := List.mem_filterMap.1 hv
  exact decide_eq_true (inventoryId_of_stockRow hrow)

/-- What is in the other warehouses stays. -/
theorem rest : db'.inventory.deleteWhere (fun v => v.inventoryId = upcWarehouse) =
    db.inventory.deleteWhere fun v => v.inventoryId = upcWarehouse := by
  have hnew : ((calculateNetInventory tx db).filterMap (stockRow (itemLookup tx (scan db'.items.rows)))).filter
      (fun v => !decide (v.inventoryId = upcWarehouse)) = [] := by
    refine List.filter_eq_nil_iff.2 fun v hv => ?_
    obtain ⟨inv, -, hrow⟩ := List.mem_filterMap.1 hv
    simp [inventoryId_of_stockRow hrow]
  refine Table.ext ?_
  have hrows := (rows_insertInventory h.inventory).1
  unfold Table.deleteWhere at hrows ⊢
  simp only at hrows ⊢
  rw [hrows, List.filter_append, hnew, List.append_nil, List.filter_filter]
  simp only [Bool.and_self]

theorem mem_upc {v : Inventory} : v ∈ db'.upc ↔ ∃ k ∈ descriptions tx db, 0 < net tx db k ∧
    ∃ itemId, itemLookup tx (scan db'.items.rows) k = some itemId ∧ itemId ≠ 0 ∧
      bookedRow itemId (net tx db k) = v := by
  rw [h.upc, ((calculateNetInventory_perm tx db).filterMap _).mem_iff, List.filterMap_map, List.mem_filterMap]
  simp only [Function.comp_apply, stockRow_entryOf]
  refine exists_congr fun k => and_congr_right fun _ => ?_
  by_cases hpos : 0 < net tx db k
  · simp only [hpos, if_true, true_and, Option.map_eq_some_iff, Option.filter_eq_some_iff, decide_eq_true_eq, and_assoc]
  · simp only [hpos, if_false, false_and, reduceCtorEq]

/-- What is booked is in range, and so it is the quantity. -/
theorem usableQty {k : Text} {itemId : ℕ} (hpos : 0 < net tx db k) (hv : bookedRow itemId (net tx db k) ∈ db'.upc) :
    (bookedRow itemId (net tx db k)).usableQty = net tx db k := by
  rw [h.upc] at hv
  have hfits := ((rows_insertInventory h.inventory).2 _ hv).1
  have hdouble : toBinary64 (10 ^ 10) = 10 ^ 10 := by
    have hbits := toBinary64_of_bits (n := 10 ^ 10) (e := 0) (by norm_num) (by norm_num)
    norm_num at hbits ⊢
    exact hbits
  have hdigits : FifteenDigits (10 ^ 10) := ⟨10 ^ 10, 0, by norm_num, by norm_num, by norm_num⟩
  have hscale : AtScale 2 (10 ^ 10) := atScale_iff.2 ⟨10 ^ 12, by norm_num⟩
  exact numeric_shortest (by norm_num) (net_atScale tx db k) hpos hscale (by norm_num) hdouble hdigits (by norm_num)
    hfits

end Populated

end

end UpcInventory

end Dmis
