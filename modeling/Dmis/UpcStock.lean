import Dmis.UpcInventory

/-!
# Stock that is not booked

After a run of `scripts/populate_upc_inventory.py`, warehouse 5 should have the net quantity of every description, and a
second run should change nothing (`LosesNoStock`). An item is found by `UPPER(TRIM(item_name))`, but it was missed by
`upper().strip()`, and its name is cut after 60 characters: a longer description makes an item that is never found, and
its stock is left out in silence.

Main theorem `loses_no_stock_iff`: no stock is lost exactly when the three readings agree on the names that the table
has at the end (`NamesAgree`): every description with stock is read from one name, and every description from some name.
They do where each description keeps its reading as a name (`namesAgree_of_alike`).
-/

namespace Dmis

open Relational Keyed

namespace UpcInventory

open ItemCodes (Text)

section
variable {κ : Type} [LinearOrder κ] (tx : Texts κ)

/-! ## What a run should do -/

/-- A row of the warehouse for an item with this name. -/
def StockOf (db : Db) (k : Text) (v : Inventory) : Prop :=
  v ∈ db.upc ∧ ∃ i ∈ db.items.rows, i.itemId = v.itemId ∧ tx.upperTrim i.itemName = k

structure LosesNoStock (fuel : ℕ) (db db' : Db) : Prop where
  booked : ∀ k ∈ descriptions tx db, 0 < net tx db k →
    ∃ v, StockOf tx db' k v ∧ v.usableQty = net tx db k ∧ ∀ w, StockOf tx db' k w → w = v
  total : (db'.upc.map Inventory.usableQty).sum =
    (((descriptions tx db).filter fun k => 0 < net tx db k).map (net tx db)).sum
  /-- Running the passes again. -/
  again : ∀ scan : List Item → List Item, (∀ l, (scan l).Perm l) → ∃ db'', run tx fuel scan db' = some db'' ∧
    db''.items.rows = db'.items.rows ∧ db''.inventory.rows.Perm db'.inventory.rows

/-- The readings agree on the names, those of the items to be made included. -/
structure NamesAgree (db : Db) : Prop where
  one : ∀ k ∈ descriptions tx db, 0 < net tx db k → ∃! n, Named tx db n ∧ tx.upperTrim n = k
  /-- An item with the number 0 counts as none. -/
  numbered : ∀ i ∈ db.items.rows, i.itemId = 0 → net tx db (tx.upperTrim i.itemName) ≤ 0
  found : ∀ s ∈ db.mlss, ∃ n, Named tx db n ∧
    (tx.upperTrim n = tx.upperTrim s.itemDesc ∨ tx.upperTrim n = tx.upperStrip s.itemDesc)

end

/-! ## Items and names -/

section
variable {κ : Type} [LinearOrder κ] {tx : Texts κ} {fuel : ℕ} {db : Db}

omit [LinearOrder κ] in
theorem mem_descriptions_of_net {k : Text} (h : 0 < net tx db k) : k ∈ descriptions tx db := by
  by_contra hk
  have hnil : rowsOf tx db k = [] := by
    refine List.filter_eq_nil_iff.2 fun s hs hkey => hk ?_
    exact List.mem_dedup.2 (List.mem_map.2 ⟨s, hs, of_decide_eq_true hkey⟩)
  simp [net, hnil, netQty, received, issued] at h

theorem one_item_iff {items : ItemTable} (h : createMissingItems tx fuel db = some items) (k : Text) :
    (∃! n, Named tx db n ∧ tx.upperTrim n = k) ↔ ∃! i, i ∈ items.rows ∧ tx.upperTrim i.itemName = k := by
  rw [← existsUnique_mem_map (f := Item.itemName) (p := fun n => tx.upperTrim n = k) items.ukItem2]
  simp only [named_iff h]

theorem mem_existingNames_iff {items : ItemTable} (h : createMissingItems tx fuel db = some items) (k : Text) :
    k ∈ existingNames tx items ↔ ∃ n, Named tx db n ∧ tx.upperTrim n = k := by
  simp only [← named_iff h]
  unfold existingNames
  simp only [List.mem_map, exists_exists_and_eq_and]

/-- Nothing is left to make. -/
theorem no_missingItems_iff {scan : List Item → List Item} {db' : Db} (h : Populated tx fuel scan db db') :
    missingItems tx (existingNames tx db'.items) (allMissing tx db') = [] ↔
      ∀ s ∈ db.mlss, ∃ n, Named tx db n ∧
        (tx.upperTrim n = tx.upperTrim s.itemDesc ∨ tx.upperTrim n = tx.upperStrip s.itemDesc) := by
  rw [missingItems_eq_nil_iff, h.mlss]
  simp only [mem_existingNames_iff h.items, ← exists_or, ← and_or_left]

end

/-! ## Where the readings agree -/

section
variable {κ : Type} [LinearOrder κ] {tx : Texts κ} {fuel : ℕ} {scan : List Item → List Item} {db db' : Db}

/-- The item of a description with stock. -/
theorem NamesAgree.item (hagree : NamesAgree tx db) (h : Populated tx fuel scan db db') {k : Text}
    (hpos : 0 < net tx db k) :
    ∃ i ∈ db'.items.rows, tx.upperTrim i.itemName = k ∧ i.itemId ≠ 0 ∧
      ∀ j ∈ db'.items.rows, tx.upperTrim j.itemName = k → j = i := by
  obtain ⟨i, ⟨hi, hkey⟩, hunique⟩ := (one_item_iff h.items k).1 (hagree.one k (mem_descriptions_of_net hpos) hpos)
  refine ⟨i, hi, hkey, ?_, fun j hj hjkey => hunique j ⟨hj, hjkey⟩⟩
  intro hzero
  rcases old_or_numbered h.items hi with hold | hnum
  · have hle := hagree.numbered i hold hzero
    rw [hkey] at hle
    exact not_lt.2 hle hpos
  · exact hnum hzero

omit [LinearOrder κ] in
theorem lookup_of_unique {rows scanned : List Item} (hscan : scanned.Perm rows) {i : Item} (hi : i ∈ rows)
    (hunique : ∀ j ∈ rows, tx.upperTrim j.itemName = tx.upperTrim i.itemName → j = i) :
    itemLookup tx scanned (tx.upperTrim i.itemName) = some i.itemId :=
  dict_of_unique (hscan.mem_iff.2 hi) fun j hj hkey => hunique j (hscan.mem_iff.1 hj) hkey

/-- The row of a description with stock. -/
theorem NamesAgree.row (hagree : NamesAgree tx db) (h : Populated tx fuel scan db db') (hscan : ∀ l, (scan l).Perm l)
    {k : Text} (hpos : 0 < net tx db k) :
    ∃ i ∈ db'.items.rows, tx.upperTrim i.itemName = k ∧ (∀ j ∈ db'.items.rows, tx.upperTrim j.itemName = k → j = i) ∧
      ((itemLookup tx (scan db'.items.rows) k).filter (· ≠ 0)) = some i.itemId ∧
      bookedRow i.itemId (net tx db k) ∈ db'.upc := by
  obtain ⟨i, hi, rfl, hid, hunique⟩ := hagree.item h hpos
  have hlookup := lookup_of_unique (hscan _) hi hunique
  refine ⟨i, hi, rfl, hunique, ?_, ?_⟩
  · rw [hlookup]
    exact Option.filter_some_pos (by simpa using hid)
  · exact h.mem_upc.2 ⟨_, mem_descriptions_of_net hpos, hpos, i.itemId, hlookup, hid, rfl⟩

theorem NamesAgree.booked (hagree : NamesAgree tx db) (h : Populated tx fuel scan db db') (hscan : ∀ l, (scan l).Perm l)
    {k : Text} (hpos : 0 < net tx db k) :
    ∃ v, StockOf tx db' k v ∧ v.usableQty = net tx db k ∧ ∀ w, StockOf tx db' k w → w = v := by
  obtain ⟨i, hi, hkey, hunique, -, hv⟩ := hagree.row h hscan hpos
  refine ⟨_, ⟨hv, i, hi, rfl, hkey⟩, h.usableQty hpos hv, ?_⟩
  rintro w ⟨hw, j, hj, hjid, hjkey⟩
  have hji := hunique j hj hjkey
  rw [hji] at hjid
  obtain ⟨hvrow, -⟩ := List.mem_filter.1 hv
  obtain ⟨hwrow, hwwarehouse⟩ := List.mem_filter.1 hw
  refine List.inj_on_of_nodup_map db'.inventory.nodup hwrow hvrow ?_
  have hwarehouse : w.inventoryId = upcWarehouse := of_decide_eq_true hwwarehouse
  change (⟨w.itemId, w.inventoryId⟩ : StockKey) = ⟨i.itemId, upcWarehouse⟩
  rw [← hjid, hwarehouse]

theorem NamesAgree.total (hagree : NamesAgree tx db) (h : Populated tx fuel scan db db')
    (hscan : ∀ l, (scan l).Perm l) : (db'.upc.map Inventory.usableQty).sum =
      (((descriptions tx db).filter fun k => 0 < net tx db k).map (net tx db)).sum := by
  have hrow : ∀ k, (stockRow (itemLookup tx (scan db'.items.rows)) (entryOf tx db k)).map Inventory.usableQty =
      if 0 < net tx db k then some (net tx db k) else none := by
    intro k
    rw [stockRow_entryOf]
    split_ifs with hpos
    · obtain ⟨i, -, -, -, hfound, hv⟩ := hagree.row h hscan hpos
      rw [hfound, Option.map_some, Option.map_some, h.usableQty hpos hv]
    · rfl
  have hperm := ((calculateNetInventory_perm tx db).filterMap
    (stockRow (itemLookup tx (scan db'.items.rows)))).map Inventory.usableQty
  rw [h.upc, hperm.sum_eq]
  refine congrArg List.sum ?_
  rw [List.filterMap_map, List.map_filterMap, ← List.filterMap_eq_map, List.filterMap_filter]
  refine List.filterMap_congr fun k _ => ?_
  simpa using hrow k

/-- A second run ends where the first did. -/
theorem NamesAgree.again (hagree : NamesAgree tx db) (h : Populated tx fuel scan db db') (hscan : ∀ l, (scan l).Perm l)
    {scan' : List Item → List Item} (hscan' : ∀ l, (scan' l).Perm l) : Populated tx fuel scan' db' db' := by
  have hdata : calculateNetInventory tx db' = calculateNetInventory tx db := by
    unfold calculateNetInventory
    rw [h.mlss]
  have hsame : ∀ inv ∈ calculateNetInventory tx db, stockRow (itemLookup tx (scan' db'.items.rows)) inv =
      stockRow (itemLookup tx (scan db'.items.rows)) inv := by
    intro inv hinv
    obtain ⟨k, hk, rfl⟩ := List.mem_map.1 ((calculateNetInventory_perm tx db).mem_iff.1 hinv)
    rw [stockRow_entryOf, stockRow_entryOf]
    split_ifs with hpos
    · -- whatever the orders, the one item is found
      obtain ⟨i, hi, rfl, -, hunique⟩ := hagree.item h hpos
      rw [lookup_of_unique (hscan' _) hi hunique, lookup_of_unique (hscan _) hi hunique]
    · rfl
  exact {
    items := createMissingItems_nil ((no_missingItems_iff h).2 hagree.found)
    staging := rfl
    references := rfl
    unreferenced := by
      rw [h.references]
      exact h.unreferenced
    inventory := by
      rw [h.references, hdata, h.rest, insertInventory_congr hsame]
      exact h.inventory
  }

/-! ## Where they do not -/

/-- The order with one item at the end. -/
def scanLast (j : Item) (rows : List Item) : List Item := rows.filter (· ≠ j) ++ rows.filter (· = j)

theorem scanLast_perm (j : Item) (rows : List Item) : (scanLast j rows).Perm rows := by
  have hperm := List.filter_append_perm (fun i : Item => decide (i ≠ j)) rows
  simpa [scanLast] using hperm

omit [LinearOrder κ] in
theorem lookup_scanLast {rows : List Item} (hnodup : rows.Nodup) {j : Item} (hj : j ∈ rows) :
    itemLookup tx (scanLast j rows) (tx.upperTrim j.itemName) = some j.itemId := by
  have hone : rows.filter (· = j) = [j] := by
    rw [List.filter_eq, List.count_eq_one_of_mem hnodup hj]
    rfl
  unfold itemLookup scanLast
  rw [hone]
  exact dict_concat_self _ _ _ j

/-- Two items of one description: a second run may take the other. -/
theorem LosesNoStock.one (hloses : LosesNoStock tx fuel db db') (h : Populated tx fuel scan db db') {k : Text}
    (hk : k ∈ descriptions tx db) (hpos : 0 < net tx db k) :
    ∃ i, (i ∈ db'.items.rows ∧ tx.upperTrim i.itemName = k ∧ i.itemId ≠ 0) ∧
      ∀ j ∈ db'.items.rows, tx.upperTrim j.itemName = k → j = i := by
  obtain ⟨v, ⟨hv, i, hi, hid, hkey⟩, -, -⟩ := hloses.booked k hk hpos
  have hzero : i.itemId ≠ 0 := by
    obtain ⟨k', -, -, itemId, -, hne, rfl⟩ := h.mem_upc.1 hv
    rw [hid]
    exact hne
  refine ⟨i, ⟨hi, hkey, hzero⟩, fun j hj hjkey => ?_⟩
  -- with `j` at the end of the scan the stock is booked on `j`, and it has to be the row of `i`
  obtain ⟨db'', hrun, hrows, hperm⟩ := hloses.again (scanLast j) (scanLast_perm j)
  have h' := (run_eq_some tx fuel (scanLast j)).1 hrun
  have hv'' : v ∈ db''.upc := (hperm.filter _).mem_iff.2 hv
  obtain ⟨k', -, -, itemId, hlookup, -, rfl⟩ := h'.mem_upc.1 hv''
  rw [hrows] at hlookup
  have hnumber : i.itemId = itemId := hid
  obtain ⟨a, ha, hakey, haid⟩ := exists_of_dict hlookup
  have hai : a = i :=
    List.inj_on_of_nodup_map db'.items.pkItem ((scanLast_perm j _).mem_iff.1 ha) hi (haid.trans hnumber.symm)
  rw [← hakey, hai, hkey, ← hjkey, lookup_scanLast db'.items.pkItem.of_map hj, Option.some.injEq] at hlookup
  exact List.inj_on_of_nodup_map db'.items.pkItem hj hi (hlookup.trans hnumber.symm)

theorem LosesNoStock.agree (hloses : LosesNoStock tx fuel db db') (h : Populated tx fuel scan db db') :
    NamesAgree tx db where
  one k hk hpos := by
    obtain ⟨i, ⟨hi, hkey, -⟩, hunique⟩ := hloses.one h hk hpos
    exact (one_item_iff h.items k).2 ⟨i, ⟨hi, hkey⟩, fun j hj => hunique j hj.1 hj.2⟩
  numbered i hi hzero := by
    by_contra hpos
    rw [not_le] at hpos
    obtain ⟨j, ⟨-, -, hne⟩, hunique⟩ := hloses.one h (mem_descriptions_of_net hpos) hpos
    rw [← hunique i (mem_of_old h.items hi) rfl] at hne
    exact hne hzero
  found := by
    obtain ⟨db'', hrun, hrows, -⟩ := hloses.again id fun l => .refl l
    exact (no_missingItems_iff h).1 (missingItems_of_same ((run_eq_some tx fuel id).1 hrun).items hrows)

/-! ## When no stock is lost -/

/-- **A run loses no stock** exactly when the readings of the texts agree on the names of the items. -/
theorem loses_no_stock_iff (hscan : ∀ l, (scan l).Perm l) (hrun : run tx fuel scan db = some db') :
    LosesNoStock tx fuel db db' ↔ NamesAgree tx db := by
  have h := (run_eq_some tx fuel scan).1 hrun
  constructor
  · intro hloses
    exact hloses.agree h
  · intro hagree
    exact {
      booked := fun k _ hpos => hagree.booked h hscan hpos
      total := hagree.total h hscan
      again := fun scan' hscan' =>
        ⟨db', (run_eq_some tx fuel scan').2 (hagree.again h hscan hscan'), rfl, .refl _⟩
    }

end

/-! ## Texts that are read alike -/

section
variable {κ : Type} [LinearOrder κ] {tx : Texts κ} {db : Db}

/-- A description that keeps its reading as a name. -/
structure Alike (tx : Texts κ) (itemDesc : Text) : Prop where
  python : tx.upperStrip itemDesc = tx.upperTrim itemDesc
  named : tx.upperTrim (tx.itemName itemDesc) = tx.upperTrim itemDesc

theorem alike_of_getsItem (halike : ∀ s ∈ db.mlss, Alike tx s.itemDesc) {r : Missing} (h : GetsItem tx db r) :
    Alike tx r.itemDesc ∧ tx.upperTrim r.itemDesc ∉ existingNames tx db.items := by
  obtain ⟨⟨s, hs, rfl⟩, hmiss⟩ := (mem_allMissing tx).1 (List.mem_of_find?_eq_some h.2)
  exact ⟨halike s hs, hmiss⟩

/-- Every description is read from a name. -/
theorem exists_named (halike : ∀ s ∈ db.mlss, Alike tx s.itemDesc) {s : StagingRow} (hs : s ∈ db.mlss) :
    ∃ n, Named tx db n ∧ tx.upperTrim n = tx.upperTrim s.itemDesc := by
  by_cases hborne : tx.upperTrim s.itemDesc ∈ existingNames tx db.items
  · obtain ⟨i, hi, hkey⟩ := List.mem_map.1 hborne
    exact ⟨i.itemName, .inl (List.mem_map_of_mem hi), hkey⟩
  · obtain ⟨r, hfirst⟩ : ∃ r,
        (allMissing tx db).find? (fun x => tx.upperStrip x.itemDesc = tx.upperStrip s.itemDesc) = some r :=
      Option.isSome_iff_exists.1 (List.find?_isSome.2 ⟨_, missing_of_mlss tx hs hborne, by simp⟩)
    have hread : tx.upperStrip r.itemDesc = tx.upperStrip s.itemDesc := by simpa using List.find?_some hfirst
    obtain ⟨⟨s', hs', rfl⟩, -⟩ := (mem_allMissing tx).1 (List.mem_of_find?_eq_some hfirst)
    have hsame : tx.upperTrim s'.itemDesc = tx.upperTrim s.itemDesc := by
      rw [← (halike s' hs').python, ← (halike s hs).python]
      exact hread
    have hgets : GetsItem tx db ⟨s'.itemDesc, s'.categoryCode⟩ := by
      refine ⟨?_, ?_⟩
      · rw [hread, (halike s hs).python]
        exact hborne
      · simp only [hread]
        exact hfirst
    exact ⟨tx.itemName s'.itemDesc, .inr ⟨_, hgets, rfl⟩, (halike s' hs').named.trans hsame⟩

/-- No description is read from two names. -/
theorem named_unique (hitems : (existingNames tx db.items).Nodup) (halike : ∀ s ∈ db.mlss, Alike tx s.itemDesc)
    {n n' : Text} (hn : Named tx db n) (hn' : Named tx db n') (h : tx.upperTrim n = tx.upperTrim n') : n = n' := by
  have hapart : ∀ {i : Item} {r : Missing}, i ∈ db.items.rows → GetsItem tx db r →
      tx.upperTrim i.itemName ≠ tx.upperTrim (tx.itemName r.itemDesc) := by
    intro i r hi hr he
    obtain ⟨hread, hmiss⟩ := alike_of_getsItem halike hr
    rw [hread.named] at he
    exact hmiss (List.mem_map.2 ⟨i, hi, he⟩)
  rcases hn with hold | ⟨r, hr, rfl⟩ <;> rcases hn' with hold' | ⟨r', hr', rfl⟩
  · obtain ⟨i, hi, rfl⟩ := List.mem_map.1 hold
    obtain ⟨i', hi', rfl⟩ := List.mem_map.1 hold'
    rw [List.inj_on_of_nodup_map hitems hi hi' h]
  · obtain ⟨i, hi, rfl⟩ := List.mem_map.1 hold
    exact absurd h (hapart hi hr')
  · obtain ⟨i, hi, rfl⟩ := List.mem_map.1 hold'
    exact absurd h.symm (hapart hi hr)
  · have hread := (alike_of_getsItem halike hr).1
    have hread' := (alike_of_getsItem halike hr').1
    have hsame : tx.upperStrip r.itemDesc = tx.upperStrip r'.itemDesc := by
      rw [hread.python, hread'.python, ← hread.named, ← hread'.named]
      exact h
    have hfirst := hr.2
    rw [hsame, hr'.2, Option.some.injEq] at hfirst
    rw [hfirst]

/-- The readings agree where every description keeps its reading as a name, no two items are read alike and none has
the number 0. -/
theorem namesAgree_of_alike (hitems : (existingNames tx db.items).Nodup) (hnumbered : ∀ i ∈ db.items.rows, i.itemId ≠ 0)
    (halike : ∀ s ∈ db.mlss, Alike tx s.itemDesc) : NamesAgree tx db where
  one k hk _ := by
    obtain ⟨s, hs, rfl⟩ := List.mem_map.1 (List.mem_dedup.1 hk)
    obtain ⟨n, hn, hkey⟩ := exists_named halike hs
    refine ⟨n, ⟨hn, hkey⟩, ?_⟩
    rintro n' ⟨hn', hkey'⟩
    exact named_unique hitems halike hn' hn (hkey'.trans hkey.symm)
  numbered i hi hzero := absurd hzero (hnumbered i hi)
  found s hs := by
    obtain ⟨n, hn, hkey⟩ := exists_named halike hs
    exact ⟨n, hn, .inl hkey⟩

end

/-! ## A long description -/

namespace Site

/-- Both upper-case ASCII letters only. -/
def texts : Texts (List ℕ) where
  up := ItemCodes.asciiCasing
  dbUpper s := s.flatMap ItemCodes.asciiCasing.upper
  collation s := s.map Char.toNat

def receipt (itemDesc : Text) : StagingRow where
  itemDesc := itemDesc
  categoryCode := "SHELTER"
  movementType := .received
  qty := 5
  createById := "MLSS_IMPORT"
  scale := atScale_iff.2 ⟨500, by norm_num⟩

/-- No items yet, and one receipt. -/
def received (itemDesc : Text) : Db where
  items := ⟨[], List.nodup_nil, List.nodup_nil, List.nodup_nil, List.nodup_nil⟩
  inventory := Table.empty
  staging := [receipt itemDesc]
  references := ⟨[1, 2, 3, 4, 5], ["EA"], [5], []⟩

def issue (itemDesc : Text) : StagingRow :=
  { receipt itemDesc with movementType := .issued, qty := 2.5, scale := atScale_iff.2 ⟨250, by norm_num⟩ }

/-- Tarpaulins come and go, all ropes are issued, and there is an item for the blankets. -/
def moved : Db where
  items := ⟨[⟨7, "BLANKET".toList, "BLANKET".toList, "BLANKET".toList, 3⟩], by decide, by decide, by decide, by decide⟩
  inventory := Table.empty
  staging := [receipt " Tarpaulin".toList, issue "TARPAULIN".toList, receipt "Rope".toList, issue "rope".toList,
    issue "ROPE ".toList, receipt "blanket".toList, receipt "Blanket".toList]
  references := ⟨[1, 2, 3, 4, 5], ["EA"], [5], []⟩

end Site

/-- One character too many: the run succeeds, and the warehouse stays empty. -/
theorem long_description_lost : ∃ db', run Site.texts 1 id (Site.received (List.replicate 61 'a')) = some db' ∧
    ¬ LosesNoStock Site.texts 1 (Site.received (List.replicate 61 'a')) db' := by
  have hempty : (run Site.texts 1 id (Site.received (List.replicate 61 'a'))).map (fun db => db.upc) = some [] := by
    decide +kernel
  obtain ⟨db', hrun, hupc⟩ := Option.map_eq_some_iff.1 hempty
  refine ⟨db', hrun, fun hloses => ?_⟩
  have htotal := hloses.total
  rw [hupc] at htotal
  exact absurd htotal (by decide +kernel)

theorem loses_no_stock_iff_tarpaulin :
    ∃ db', run Site.texts 1 id Site.moved = some db' ∧ LosesNoStock Site.texts 1 Site.moved db' := by
  have hsome : (run Site.texts 1 id Site.moved).isSome = true := by decide +kernel
  obtain ⟨db', hrun⟩ := Option.isSome_iff_exists.1 hsome
  have hread : ∀ s ∈ Site.moved.mlss, Site.texts.upperStrip s.itemDesc = Site.texts.upperTrim s.itemDesc ∧
      Site.texts.upperTrim (Site.texts.itemName s.itemDesc) = Site.texts.upperTrim s.itemDesc := by decide +kernel
  have hagree : NamesAgree Site.texts Site.moved :=
    namesAgree_of_alike (by decide +kernel) (by decide) fun s hs => ⟨(hread s hs).1, (hread s hs).2⟩
  exact ⟨db', hrun, (loses_no_stock_iff (fun l => .refl l) hrun).2 hagree⟩

end UpcInventory

end Dmis
