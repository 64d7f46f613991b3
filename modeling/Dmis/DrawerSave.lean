import Dmis.PickOrder

/-!
# What the drawer applies and what the server saves

The prepare page prints the saved rows of a package as numbers, the drawer computes with those numbers and writes other
ones to the form, and `_process_allocations` reads these as decimals and checks them against what the batches have.

| here | there |
| --- | --- |
| `savedInputs` | `existing_batch_allocations` and the hidden inputs (`packaging.py:1382-1420`, `prepare.html:643-650`) |
| `postedField` | the input `applyAllocations` writes (`batch-allocation.js:667-678`) |

The drawer never asks for more than the server finds (`applied_amounts_saved`): what is applied on a page that shows the
saved rows is refused exactly when a batch of it is inactive or past its expiry date. Such a batch is not shown, but the
amount saved for it stays in the form; and the drawer shows an expired batch of an item that cannot expire. A drawer
opened again before the page is saved counts as released what nobody has reserved.
-/

namespace Dmis

open Relational Keyed

/-! ## Translation -/

/-- `float(pkg_item.item_qty)`, printed. -/
def savedInputs (t : Tables) (pkgId itemId : Nat) : List (Nat × ℚ) :=
  ((t.pkgItems pkgId).filter fun i => i.itemId = itemId).map fun i => (i.batchId, shortest (toBinary64 i.itemQty))

def postedField (itemId : Nat) (e : Nat × ℚ) : AllocField := ⟨itemId, some (e.1 : ℤ), some (.finite (shortest e.2))⟩

/-- Batch numbers start at one, and quantities are in the range of `numeric(15,4)`. -/
structure BatchColumns (t : Tables) : Prop where
  identity : ∀ b ∈ t.itembatch.rows, 0 < b.batchId
  range : ∀ b ∈ t.itembatch.rows, b.usableQty < 10 ^ 11

/-- An amount of the page: within what the other packages leave of a batch of the item. -/
structure Backed (t : Tables) (old : Allocations) (itemId : Nat) (e : Nat × ℚ) : Prop where
  pos : 0 < e.2
  number : toBinary64 e.2 = e.2
  batch : ∃ b ∈ t.itembatch.rows, b.batchId = e.1 ∧ b.itemId = itemId ∧ e.2 ≤ toBinary64 (releasedQty old b)

/-! ## Numbers -/

section
variable {x d : ℚ}

/-- What is printed for a double is no more than a decimal of 15 digits it does not exceed. -/
theorem shortest_le (hx : toBinary64 x = x) (hd : 0 < d) (hdigits : FifteenDigits d) (h : x ≤ toBinary64 d) :
    shortest x ≤ d := by
  by_contra hlt
  have hge := toBinary64_mono hd.le (not_le.1 hlt).le
  rw [toBinary64_shortest hx] at hge
  have hsame : x = toBinary64 d := le_antisymm h hge
  rw [hsame, shortest_toBinary64 hd hdigits] at hlt
  exact hlt le_rfl

theorem shortest_pos (hx : toBinary64 x = x) (h : 0 < x) : 0 < shortest x := by
  refine (shortest_nonneg h.le).lt_of_ne fun h0 => ?_
  have hback := toBinary64_shortest hx
  rw [← h0, toBinary64_zero] at hback
  exact h.ne hback

theorem pos_of_toBinary64_pos (h : 0 < toBinary64 d) : 0 < d := by
  by_contra hle
  exact absurd (toBinary64_nonpos (not_lt.1 hle)) (not_le.2 h)

end

/-! ## The amounts the page starts with -/

section
variable {inputs : List (Nat × ℚ)} {e : Nat × ℚ}

/-- The inputs, read into the amounts `a`. -/
theorem foldl_load (inputs : List (Nat × ℚ)) (a : Amounts) :
    let loaded := inputs.foldl (fun a e => if 0 < toBinary64 e.2 then a.upsert (e.1, toBinary64 e.2) else a) a
    (∀ e ∈ loaded.rows, e ∈ a.rows ∨ ∃ i ∈ inputs, e = (i.1, toBinary64 i.2)) ∧
    (∀ k ∈ a.keys, k ∈ loaded.keys) ∧ ∀ i ∈ inputs, 0 < toBinary64 i.2 → i.1 ∈ loaded.keys := by
  induction inputs generalizing a with
  | nil => simp
  | cons i inputs ih =>
    intro loaded
    set a' : Amounts := if 0 < toBinary64 i.2 then a.upsert (i.1, toBinary64 i.2) else a with ha'
    obtain ⟨hrows, hkeys, hin⟩ := ih a'
    have hstep : ∀ e ∈ a'.rows, e ∈ a.rows ∨ e = (i.1, toBinary64 i.2) := by
      intro e he
      rw [ha'] at he
      split_ifs at he
      · exact (Table.mem_upsert he).symm
      · exact .inl he
    have hkept : ∀ k, k ∈ a.keys ∨ (k = i.1 ∧ 0 < toBinary64 i.2) → k ∈ a'.keys := by
      intro k hk
      rw [ha']
      split_ifs with hpos
      · refine not_not.1 fun hno => ?_
        rw [← Table.get?_eq_none, Table.get?_upsert] at hno
        split_ifs at hno with hi
        rcases hk with hk | ⟨rfl, -⟩
        · exact Table.get?_eq_none.1 hno hk
        · exact hi rfl
      · exact hk.resolve_right fun h => hpos h.2
    refine ⟨fun e he => ?_, fun k hk => hkeys k (hkept k (.inl hk)), fun j hj hpos => ?_⟩
    · rcases hrows e he with hm | ⟨j, hj, rfl⟩
      · rcases hstep e hm with hm | rfl
        · exact .inl hm
        · exact .inr ⟨i, by simp, rfl⟩
      · exact .inr ⟨j, by simp [hj], rfl⟩
    · rcases List.mem_cons.1 hj with rfl | hj
      · exact hkeys _ (hkept _ (.inr ⟨rfl, hpos⟩))
      · exact hin j hj hpos

theorem exists_of_loaded (he : e ∈ (loadExistingAllocations inputs).rows) : ∃ i ∈ inputs, e = (i.1, toBinary64 i.2) := by
  rcases (foldl_load inputs Table.empty).1 e he with h | h
  · simp [Table.empty] at h
  · exact h

theorem loaded_of_mem {i : Nat × ℚ} (hi : i ∈ inputs) (hpos : 0 < toBinary64 i.2) :
    i.1 ∈ (loadExistingAllocations inputs).keys := (foldl_load inputs Table.empty).2.2 i hi hpos

end

section
variable {t : Tables} {itemId pkgId : Nat} {p : ReliefPkg} {inputs : List (Nat × ℚ)} {b : ItemBatch} {e : Nat × ℚ}

theorem mem_savedInputs {x : Nat × ℚ} : x ∈ savedInputs t pkgId itemId ↔
    ∃ i ∈ t.pkgItems pkgId, i.itemId = itemId ∧ x = (i.batchId, shortest (toBinary64 i.itemQty)) := by
  simp only [savedInputs, List.mem_map, List.mem_filter, decide_eq_true_eq, and_assoc]
  exact exists_congr fun i => and_congr_right fun _ => and_congr_right fun _ => eq_comm

/-- A row of the package is of the batch it names. -/
theorem batch_of_row (hc : t.Consistent) {i : ReliefPkgItem} (hi : i ∈ t.pkgItems pkgId) :
    ∃ b ∈ t.itembatch.rows, b.key = i.batch ∧ b.batchId = i.batchId ∧ b.itemId = i.itemId := by
  obtain ⟨b, hb, hk⟩ := List.mem_map.1 (hc.fkBatch i (mem_pkgItems.1 hi).1)
  exact ⟨b, hb, hk, congrArg BatchKey.batchId hk, congrArg BatchKey.itemId hk⟩

/-- What the package has of a batch is a column value of at most 15 digits, and was reserved for it. -/
theorem pkgQty_digits (hc : t.Consistent) (hl : Ledger t) (hcol : BatchColumns t) (hp : p ∈ t.reliefpkg.rows)
    (hopen : p.statusCode ≠ .dispatched) (hb : b ∈ t.itembatch.rows) :
    t.pkgQty p.reliefpkgId b.key ≤ b.reservedQty ∧
      (0 < t.pkgQty p.reliefpkgId b.key → FifteenDigits (t.pkgQty p.reliefpkgId b.key)) := by
  have hle : t.pkgQty p.reliefpkgId b.key ≤ b.reservedQty :=
    (pkgQty_le_pledged hc.pkgItem hp hopen b.key).trans_eq (hl.reserved b hb).symm
  have hrange := hcol.range b hb
  have hbound := (hl.bounds b hb).2
  refine ⟨hle, fun hpos => fifteenDigits_of_scale (by norm_num) (pkgQty_atScale hl.rowScale _ _) hpos.le ?_⟩
  have hlt : t.pkgQty p.reliefpkgId b.key < 10 ^ 11 := by linarith
  norm_num at hlt ⊢
  linarith

/-- **The page releases what the package has reserved of a batch**, and nothing else. -/
theorem released_current (hc : t.Consistent) (hl : Ledger t) (hcol : BatchColumns t) (hp : p ∈ t.reliefpkg.rows)
    (hopen : p.statusCode ≠ .dispatched) (hin : inputs.Perm (savedInputs t p.reliefpkgId itemId))
    (hb : b ∈ t.itembatch.rows) (hitem : b.itemId = itemId) :
    (((loadExistingAllocations inputs).get? b.batchId).map fun e => shortest e.2).getD 0 =
      t.pkgQty p.reliefpkgId b.key := by
  obtain ⟨-, hdigits⟩ := pkgQty_digits hc hl hcol hp hopen hb
  have hnn := pkgQty_nonneg hc.pkgItem p.reliefpkgId b.key
  cases he : (loadExistingAllocations inputs).get? b.batchId with
  | none =>
    by_contra hne
    have hpos : 0 < t.pkgQty p.reliefpkgId b.key := hnn.lt_of_ne (by simpa using hne)
    obtain ⟨i, hi, hk, hq⟩ := exists_of_pkgQty_ne_zero hpos.ne'
    have hrow : (i.batchId, shortest (toBinary64 i.itemQty)) ∈ inputs :=
      hin.mem_iff.2 (mem_savedInputs.2 ⟨i, hi, (congrArg BatchKey.itemId hk).trans hitem, rfl⟩)
    have hid : i.batchId = b.batchId := congrArg BatchKey.batchId hk
    refine Table.get?_eq_none.1 he (hid ▸ loaded_of_mem hrow ?_)
    rw [hq, shortest_toBinary64 hpos (hdigits hpos)]
    exact toBinary64_pos_of_scale (by norm_num) (pkgQty_atScale hl.rowScale _ _) hpos
  | some e =>
    obtain ⟨x, hx, rfl⟩ := exists_of_loaded (Table.mem_of_get? he)
    obtain ⟨i, hi, -, rfl⟩ := mem_savedInputs.1 (hin.mem_iff.1 hx)
    obtain ⟨c, hc', hk, hid, -⟩ := batch_of_row hc hi
    obtain rfl : c = b := batch_eq_of_id hc hc' hb (hid.trans (Table.key_of_get? he))
    have hpos := (loadExistingAllocations_row (Table.mem_of_get? he)).1
    have hqty : t.pkgQty p.reliefpkgId c.key = i.itemQty := hk ▸ pkgQty_of_mem hi
    rw [toBinary64_shortest (toBinary64_idem _)] at hpos
    rw [hqty] at hdigits hnn ⊢
    have hpos' := pos_of_toBinary64_pos hpos
    simp only [Option.map_some, Option.getD_some]
    rw [toBinary64_shortest (toBinary64_idem _), shortest_toBinary64 hpos' (hdigits hpos')]

end

/-! ## What the page holds -/

section
variable {today : Day} {cat : Catalog} {t : Tables} {item : Item} {available allocated : List ItemBatch}
  {requiredUom : Option String} {ids : List Nat} {current : Nat → Option ℚ} {r : ℚ} {x : ShownBatch} {old : Allocations}
  {itemId : Nat} {d : DrawerPage} {e : Nat × ℚ} {p : ReliefPkg} {inputs : List (Nat × ℚ)} {a : Amounts}

/-- Every shown entry is a batch of the item. -/
theorem mem_getItemBatches_item (hc : t.Consistent) (hi : cat.item.get? item.itemId = some item)
    (ha : Answers cat item requiredUom ids t available allocated)
    (hx : x ∈ getItemBatches today cat item available allocated r ids current) :
    ∃ b ∈ t.itembatch.rows, b.batchId = x.batchId ∧ b.itemId = item.itemId ∧
      x.availableQty = toBinary64 (effectiveQty current b) := by
  obtain ⟨⟨b, g⟩, hb, rfl⟩ := List.mem_map.1 hx
  have hb : b ∈ (numberRuns item.issuingKey _).map Prod.fst := List.mem_map_of_mem hb
  rw [map_fst_numberRuns, getLimited_eq hi, mem_shown] at hb
  rcases (mem_allBatches hc ha).1 (mem_drawerOf.1 (shownOf_subset hb)).1 with hb | hb
  · obtain ⟨hm, hitem, -⟩ := mem_getAvailableBatches.1 hb
    exact ⟨b, hm, rfl, hitem, rfl⟩
  · obtain ⟨hm, -, hitem, -⟩ := mem_getAllocatedBatches.1 hb
    exact ⟨b, hm, rfl, hitem, rfl⟩

/-- What is shown of a batch is what the other packages leave of it, as a number. -/
def ShowsReleased (t : Tables) (old : Allocations) (itemId : Nat) (x : ShownBatch) : Prop :=
  ∃ b ∈ t.itembatch.rows, b.batchId = x.batchId ∧ b.itemId = itemId ∧ x.availableQty = toBinary64 (releasedQty old b)

/-- An event enters a number of a shown batch, or nothing. -/
theorem drawerStep_number (hshown : ∀ x ∈ d.shown, toBinary64 x.availableQty = x.availableQty) (e : DrawerEvent) :
    drawerStep d e = d ∨ ∃ x ∈ d.shown, ∃ qty, toBinary64 qty = qty ∧ drawerStep d e = d.enter x qty := by
  cases e with
  | input batchId typed =>
    simp only [drawerStep]
    split
    · exact .inl rfl
    · rename_i x hf
      exact .inr ⟨x, List.mem_of_find?_eq_some hf, _, toBinary64_idem _, rfl⟩
  | useMax batchId =>
    simp only [drawerStep]
    split
    · exact .inl rfl
    · rename_i x hf
      refine .inr ⟨x, List.mem_of_find?_eq_some hf, _, ?_, rfl⟩
      rcases min_choice x.availableQty
        (jsAdd (jsSub d.requestedQty (getTotalAllocated d.currentAllocations)) (d.currentAllocations.qty batchId))
        with h | h
      · rw [h]
        exact hshown x (List.mem_of_find?_eq_some hf)
      · rw [h]
        exact toBinary64_idem _

/-- **No event puts more on the page than the server finds.** -/
theorem drawerStep_backed {shown : List ShownBatch} (hshown : ∀ x ∈ shown, ShowsReleased t old itemId x) (d : DrawerPage)
    (e : DrawerEvent) (h : (∀ a ∈ d.currentAllocations.rows, Backed t old itemId a) ∧ d.shown = shown) :
    (∀ a ∈ (drawerStep d e).currentAllocations.rows, Backed t old itemId a) ∧ (drawerStep d e).shown = shown := by
  obtain ⟨hrows, rfl⟩ := h
  have hnumber : ∀ x ∈ d.shown, toBinary64 x.availableQty = x.availableQty := by
    intro x hx
    obtain ⟨b, -, -, -, hq⟩ := hshown x hx
    rw [hq, toBinary64_idem]
  rcases drawerStep_number hnumber e with he | ⟨x, hx, qty, hqty, he⟩
  · rw [he]
    exact ⟨hrows, rfl⟩
  · rw [he]
    refine ⟨fun a ha => ?_, rfl⟩
    simp only [DrawerPage.enter] at ha
    set finalQty := if qty < 0 then 0 else if x.availableQty < qty then x.availableQty else qty with hfinal
    have hfinal' : toBinary64 finalQty = finalQty ∧ (0 < finalQty → finalQty ≤ x.availableQty) := by
      rw [hfinal]
      split_ifs with hneg hbig
      · exact ⟨toBinary64_zero, fun h => absurd h (lt_irrefl _)⟩
      · exact ⟨hnumber x hx, fun _ => le_rfl⟩
      · exact ⟨hqty, fun _ => not_lt.1 hbig⟩
    split_ifs at ha with hpos
    · rcases Table.mem_upsert ha with rfl | ha
      · obtain ⟨b, hb, hid, hitem, hq⟩ := hshown x hx
        exact ⟨hpos, hfinal'.1, b, hb, hid, hitem, hq ▸ hfinal'.2 hpos⟩
      · exact hrows a ha
    · exact hrows a (List.mem_filter.1 ha).1

/-- The drawer opens with what is saved, and shows what would be free without it. -/
theorem openDrawer_backed (today : Day) (hc : t.Consistent) (hl : Ledger t) (hcol : BatchColumns t) (hp : p ∈ t.reliefpkg.rows)
    (hopen : p.statusCode ≠ .dispatched) (hi : cat.item.get? item.itemId = some item)
    (hin : inputs.Perm (savedInputs t p.reliefpkgId item.itemId))
    (ha : Answers cat item requiredUom (loadExistingAllocations inputs).keys t available allocated) (requestedQty : ℚ) :
    let page := openDrawer today cat item available allocated requestedQty inputs
    (∀ e ∈ page.currentAllocations.rows, Backed t (t.allocations p.reliefpkgId) item.itemId e) ∧
      ∀ x ∈ page.shown, ShowsReleased t (t.allocations p.reliefpkgId) item.itemId x := by
  intro page
  constructor
  · intro e he
    obtain ⟨hpos, hnumber⟩ := loadExistingAllocations_row he
    obtain ⟨x, hx, rfl⟩ := exists_of_loaded he
    obtain ⟨i, hi', hitem, rfl⟩ := mem_savedInputs.1 (hin.mem_iff.1 hx)
    obtain ⟨b, hb, hk, hid, hbi⟩ := batch_of_row hc hi'
    refine ⟨hpos, hnumber, b, hb, hid, hbi.trans hitem, ?_⟩
    have hsame := pkgQty_of_mem hi'
    obtain ⟨hle, -⟩ := pkgQty_digits hc hl hcol hp hopen hb
    have hnn := pkgQty_nonneg hc.pkgItem p.reliefpkgId b.key
    rw [toBinary64_shortest (toBinary64_idem _)]
    rw [hk, hsame] at hle hnn
    refine toBinary64_mono hnn ?_
    rw [releasedQty, Tables.allocations_qty, hk, hsame]
    linarith [(hl.bounds b hb).2]
  · intro x hx
    obtain ⟨b, hb, hid, hitem, hq⟩ := mem_getItemBatches_item hc hi ha hx
    refine ⟨b, hb, hid, hitem, ?_⟩
    rw [hq, effectiveQty, released_current hc hl hcol hp hopen hin hb hitem, releasedQty, Tables.allocations_qty]

/-- What is applied is some of what the page holds. -/
theorem applied_rows (h : d.applyAllocations = some a) : ∀ e ∈ a.rows, e ∈ d.currentAllocations.rows := by
  intro e he
  unfold DrawerPage.applyAllocations at h
  split_ifs at h
  cases h
  exact (List.mem_filter.1 he).1

end

/-! ## What the server reads -/

section
variable {ctx : Ctx} {t : Tables} {old : Allocations} {pkgId itemId : Nat} {e : Nat × ℚ} {b : ItemBatch}
  {fs : List AllocField} {q : ℚ}

/-- What the server makes of a printed amount. -/
theorem safeQuantity_printed (h : 0 < q) : ∃ qty, safeQuantity (some (.finite q)) = .ok qty ∧ qty = min q maxQty ∧ 0 < qty := by
  have hmax : (0 : ℚ) < maxQty := by norm_num [maxQty]
  refine ⟨_, rfl, ?_, ?_⟩
  · rw [if_neg (not_lt.2 h.le)]
    split_ifs with hbig
    · exact (min_eq_right hbig.le).symm
    · exact (min_eq_left (not_lt.1 hbig)).symm
  · split_ifs
    · exact absurd h (not_lt.2 ‹q < 0›.le)
    · exact hmax
    · exact h

theorem readFields_ok_iff {batches : Table ItemBatch} {totals : Table Inventory} :
    (∃ as, readFields ctx batches totals old itemId fs = .ok as) ↔
      ∀ f ∈ fs, ∃ o, readField ctx batches totals old itemId f = .ok o := by
  induction fs with
  | nil => simp [readFields]
  | cons f fs ih =>
    rw [List.forall_mem_cons, ← ih]
    simp only [readFields, bind_ok, pure_ok]
    constructor
    · rintro ⟨-, o, ho, as, has, -⟩
      exact ⟨⟨o, ho⟩, as, has⟩
    · rintro ⟨⟨o, ho⟩, as, has⟩
      exact ⟨_, o, ho, as, has, rfl⟩

/-- An amount the batch can give is read, if the batch may be taken from. -/
theorem readField_posted (hc : t.Consistent) (hs : Stocked t) (hcol : BatchColumns t) (hb : b ∈ t.itembatch.rows)
    (hid : b.batchId = e.1) (hitem : b.itemId = itemId) (hpos : 0 < shortest e.2) (hle : shortest e.2 ≤ releasedQty old b) :
    (∃ o, readField ctx t.itembatch t.inventory old itemId (postedField itemId e) = .ok o) ↔
      b.statusCode = .active ∧ ¬ b.Expired ctx.today := by
  have hid0 : safeId (postedField itemId e).batchPart = b.batchId := by simp [postedField, safeId, hid]
  have hne : b.batchId ≠ 0 := (hcol.identity b hb).ne'
  obtain ⟨qty, hqty, hmin, hq⟩ := safeQuantity_printed hpos
  have hfits : ¬ b.usableQty - (b.reservedQty - old.qty b.key) < qty :=
    not_lt.2 ((hmin ▸ min_le_left _ _).trans hle)
  have hkey : (⟨itemId, b.inventoryId, b.batchId⟩ : BatchKey) = b.key := by rw [← hitem]; rfl
  obtain ⟨v, hv, -⟩ := hs b hb
  have htotal : t.inventory.get? b.key.stock ≠ none := by
    rw [Option.mem_def.1 hv]
    simp
  have hcheck : (∃ u, checkAllocation ctx t.inventory old itemId b qty = .ok u) ↔
      b.statusCode = .active ∧ ¬ b.Expired ctx.today := by
    simp only [checkAllocation, if_pos hq, validateBatchAllocation, bind_ok, check_ok, exists_const, hkey]
    constructor
    · rintro ⟨⟨-, hactive, hfresh, -⟩, -⟩
      exact ⟨hactive, hfresh⟩
    · rintro ⟨hactive, hfresh⟩
      exact ⟨⟨hitem, hactive, hfresh, fun h => hfits h.1, hfits, hq⟩, htotal⟩
  rw [← hcheck]
  unfold readField
  rw [hid0, if_neg hne]
  simp only [bind_ok, require_ok, pure_ok]
  constructor
  · rintro ⟨o, qty', hqty', c, hc', u, hu, -⟩
    rw [batchById_of_mem hc hb] at hc'
    cases hc'
    cases hqty.symm.trans hqty'
    exact ⟨u, hu⟩
  · rintro ⟨u, hu⟩
    exact ⟨_, qty, hqty, b, batchById_of_mem hc hb, u, hu, rfl⟩

/-- What is read is what was posted. -/
theorem read_posted {amounts : List (Nat × ℚ)} {batches : Table ItemBatch} {totals : Table Inventory}
    {as : List (Alloc × String)} (hamounts : ∀ e ∈ amounts, 0 < e.1 ∧ 0 < shortest e.2)
    (h : readFields ctx batches totals old itemId (amounts.map (postedField itemId)) = .ok as) :
    as.map (fun a => (a.1.batchId, a.1.allocatedQty)) = amounts.map fun e => (e.1, min (shortest e.2) maxQty) := by
  have hread := readFields_ok h
  have hnamed : (amounts.map (postedField itemId)).filter AllocField.named = amounts.map (postedField itemId) := by
    refine List.filter_eq_self.2 fun f hf => ?_
    obtain ⟨e, he, rfl⟩ := List.mem_map.1 hf
    have := (hamounts e he).1
    simp [AllocField.named, safeId, postedField, this.ne']
  rw [hnamed, List.forall₂_map_left_iff] at hread
  have hmem : List.Forall₂ (fun e (a : Alloc × String) => e ∈ amounts ∧
      ReadsAs ctx batches totals old itemId (postedField itemId e) a) amounts as := by
    exact (List.forall₂_and_left amounts as).2 ⟨fun e he => he, hread⟩
  refine (map_eq_of_forall₂ (fun e a => ?_) hmem).symm
  rintro ⟨he, ha⟩
  obtain ⟨qty, hqty, hmin, -⟩ := safeQuantity_printed (hamounts e he).2
  have hq : qty = a.1.allocatedQty := Except.ok.inj (hqty.symm.trans ha.qty)
  have hid : a.1.batchId = e.1 := by rw [ha.batch]; simp [postedField, safeId]
  rw [hid, ← hq, hmin]

/-- What is printed of an amount is within what the batch has for the package. -/
theorem Backed.fits {p : ReliefPkg} (h : Backed t (t.allocations p.reliefpkgId) itemId e) (hc : t.Consistent)
    (hl : Ledger t) (hcol : BatchColumns t) (hp : p ∈ t.reliefpkg.rows) (hopen : p.statusCode ≠ .dispatched)
    (hb : b ∈ t.itembatch.rows) (hid : b.batchId = e.1) :
    b.itemId = itemId ∧ shortest e.2 ≤ releasedQty (t.allocations p.reliefpkgId) b := by
  obtain ⟨hpos, hnumber, c, hcm, hcid, hcitem, hle⟩ := h
  obtain rfl : c = b := batch_eq_of_id hc hcm hb (hcid.trans hid.symm)
  have hfree := pos_of_toBinary64_pos (hpos.trans_le hle)
  have hscale : AtScale 2 (releasedQty (t.allocations p.reliefpkgId) c) := by
    rw [releasedQty, Tables.allocations_qty]
    exact (hl.batchScale c hb).1.sub ((hl.batchScale c hb).2.sub (pkgQty_atScale hl.rowScale _ _))
  have hrange : releasedQty (t.allocations p.reliefpkgId) c * 10 ^ 2 < 10 ^ 15 := by
    obtain ⟨hown, -⟩ := pkgQty_digits hc hl hcol hp hopen hb
    have hcolumn := hcol.range c hb
    rw [releasedQty, Tables.allocations_qty]
    norm_num at hcolumn ⊢
    linarith
  exact ⟨hcitem, shortest_le hnumber hfree (fifteenDigits_of_scale (by norm_num) hscale hfree.le hrange) hle⟩

end

/-- **What the drawer applies is saved**, unless one of its batches is inactive or past its expiry date; and what is
saved are the amounts, cut at the bound of a quantity. -/
theorem applied_amounts_saved (db : Database) (hl : Ledger db.tables) (hs : Stocked db.tables)
    (hcol : BatchColumns db.tables) (ctx : Ctx) (cat : Catalog) (item : Item) (requiredUom : Option String)
    (available allocated : List ItemBatch) (requestedQty : ℚ) (p : ReliefPkg) (inputs : List (Nat × ℚ))
    (events : List DrawerEvent) (applied : Amounts) (amounts : List (Nat × ℚ))
    (hi : cat.item.get? item.itemId = some item) (hp : p ∈ db.tables.reliefpkg.rows) (hopen : p.statusCode ≠ .dispatched)
    (hin : inputs.Perm (savedInputs db.tables p.reliefpkgId item.itemId))
    (ha : Answers cat item requiredUom (loadExistingAllocations inputs).keys db.tables available allocated)
    (happlied : (run drawerStep (openDrawer ctx.today cat item available allocated requestedQty inputs)
      events).applyAllocations = some applied)
    (hamounts : amounts.Perm applied.rows) :
    let read := readFields ctx db.tables.itembatch db.tables.inventory (db.tables.allocations p.reliefpkgId) item.itemId
      (amounts.map (postedField item.itemId))
    ((∃ as, read = .ok as) ↔ ∀ b ∈ db.tables.itembatch.rows, 0 < applied.qty b.batchId →
      b.statusCode = .active ∧ ¬ b.Expired ctx.today) ∧
    ∀ as, read = .ok as →
      as.map (fun a => (a.1.batchId, a.1.allocatedQty)) = amounts.map fun e => (e.1, min (shortest e.2) maxQty) := by
  intro read
  have hc := db.consistent
  obtain ⟨hstart, hshown⟩ := openDrawer_backed ctx.today hc hl hcol hp hopen hi hin ha requestedQty
  obtain ⟨hrows, -⟩ := run_invariant (drawerStep_backed hshown) ⟨hstart, rfl⟩ events
  have hbacked : ∀ e ∈ amounts, Backed db.tables (db.tables.allocations p.reliefpkgId) item.itemId e :=
    fun e he => hrows e (applied_rows happlied e (hamounts.mem_iff.1 he))
  have hfits : ∀ {e b}, e ∈ amounts → b ∈ db.tables.itembatch.rows → b.batchId = e.1 → b.itemId = item.itemId ∧
      shortest e.2 ≤ releasedQty (db.tables.allocations p.reliefpkgId) b :=
    fun he hb hid => (hbacked _ he).fits hc hl hcol hp hopen hb hid
  constructor
  · rw [readFields_ok_iff, List.forall_mem_map]
    constructor
    · intro hall b hb hpos
      obtain ⟨e, he, hid⟩ : ∃ e ∈ amounts, b.batchId = e.1 := by
        unfold Amounts.qty at hpos
        cases hget : applied.get? b.batchId with
        | none => simp [hget] at hpos
        | some e => exact ⟨e, hamounts.mem_iff.2 (Table.mem_of_get? hget), (Table.key_of_get? hget).symm⟩
      obtain ⟨hitem, hle⟩ := hfits he hb hid
      exact (readField_posted hc hs hcol hb hid hitem (shortest_pos (hbacked e he).number (hbacked e he).pos) hle).1
        (hall e he)
    · intro hall e he
      obtain ⟨hpos, hnumber, b, hb, hid, -⟩ := hbacked e he
      obtain ⟨hitem, hle⟩ := hfits he hb hid
      refine (readField_posted hc hs hcol hb hid hitem (shortest_pos hnumber hpos) hle).2 (hall b hb ?_)
      have hget : applied.get? b.batchId = some e := hid ▸ Table.get?_key (hamounts.mem_iff.1 he)
      rw [Amounts.qty, hget]
      exact hpos
  · intro as has
    refine read_posted (fun e he => ?_) has
    obtain ⟨hpos, hnumber, b, hb, hid, -⟩ := hbacked e he
    exact ⟨hid ▸ hcol.identity b hb, shortest_pos hnumber hpos⟩

namespace Site

/-- The batch with what both drafts have reserved of it. -/
def draftedBatch : ItemBatch := { batch with reservedQty := 7 }

/-- The first draft. -/
def firstDraft : ReliefPkg := (twoDrafts.tables.firstPkg 1).getD (newPkg officer rqst 1)

/-- Its drawer, opened with these inputs. -/
def draftDrawer (requestedQty : ℚ) (inputs : List (Nat × ℚ)) : DrawerPage :=
  openDrawer officer.today catalog fifoItem [draftedBatch] [draftedBatch] requestedQty inputs

/-- What the server makes of these amounts. -/
def readDraft (amounts : List (Nat × ℚ)) : Except Err (List (Alloc × String)) :=
  readFields officer twoDrafts.tables.itembatch twoDrafts.tables.inventory
    (twoDrafts.tables.allocations firstDraft.reliefpkgId) fifoItem.itemId (amounts.map (postedField fifoItem.itemId))

end Site

/-- The two units saved and two more of the three that are free. -/
theorem applied_amounts_saved_site : ∃ as, Site.readDraft [(1, 4)] = .ok as := by
  have hl : Ledger Site.twoDrafts.tables :=
    ⟨by decide +kernel, by decide +kernel, by decide +kernel, by decide +kernel, by decide +kernel, by decide +kernel⟩
  have happlied : (run drawerStep (Site.draftDrawer 4 [(1, 2)]) [.useMax 1]).applyAllocations =
      some ⟨[(1, 4)], by simp⟩ := by decide +kernel
  refine ((applied_amounts_saved Site.twoDrafts hl (by unfold Stocked; decide +kernel)
    ⟨by decide +kernel, by decide +kernel⟩ Site.officer Site.catalog Site.fifoItem (some "EA") [Site.draftedBatch]
    [Site.draftedBatch] 4 Site.firstDraft [(1, 2)] [.useMax 1] ⟨[(1, 4)], by simp⟩ [(1, 4)] (by decide +kernel)
    (by decide +kernel) (by decide +kernel) (by decide +kernel) ⟨by decide +kernel, by decide +kernel⟩ happlied
    (.refl _)).1).2 ?_
  decide +kernel

/-- Five units were applied and not saved: opened again, the drawer offers eight, and the server five. -/
example : (Site.draftDrawer 15 [(1, 5)]).shown = [⟨1, 0, 8⟩] ∧ (Site.readDraft [(1, 5)]).isOk = true ∧
    (Site.readDraft [(1, 8)]).isOk = false := by
  decide +kernel

end Dmis
