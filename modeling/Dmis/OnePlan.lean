import Mathlib.Data.List.Sort
import Dmis.IssueChecks
import Dmis.OneStepDispatch

/-!
# One plan

`_process_allocations` uses a posted quantity three times: it is added to the total that is compared with
`request_qty` (`packaging.py:1893`, `:1908`), it is listed for the reservation when it is positive (`:1899-1905`), and
it is written into the row of its batch (`:2014-2049`). The fields are found by the prefix of their names, and
`int('01')` is `1`, so several of them can mean one batch. Then the total has all of them, the list the positive ones,
and row and reservation each keep the last of theirs: they are one plan exactly when only the last field of a batch
counts (`one_plan`).
-/

namespace Dmis

open Relational Keyed

/-! ## The names of the fields -/

/-- A posted field, with the decimal its value stands for. -/
structure TextField where
  name : String
  value : Option PyDecimal
  deriving DecidableEq, Repr

/-- `k.startswith(f'batch_allocation_{item_id}_')`. -/
def TextField.isFor (f : TextField) (itemId : Nat) : Bool :=
  s!"batch_allocation_{itemId}_".toList.isPrefixOf f.name.toList

/-- `parts[3]` of the name, read by `int`. -/
def TextField.batchPart (int : String → Option ℤ) (f : TextField) : Option ℤ :=
  ((f.name.toList.splitOn '_')[3]?).bind fun part => int (String.ofList part)

def TextField.toAlloc (int : String → Option ℤ) (f : TextField) (itemId : Nat) : AllocField :=
  ⟨itemId, f.batchPart int, f.value⟩

/-- A posted form as it comes: the fields, and the status and its reason for each item. -/
structure PostedForm where
  fields : List TextField
  status : Nat → Option FormStatus
  statusReason : Nat → String

def PostedForm.sorted (f : PostedForm) : List TextField := f.fields.insertionSort fun a b => a.name ≤ b.name

/-- The form as the loop over the items of the request reads it. -/
def PostedForm.form (f : PostedForm) (int : String → Option ℤ) (t : Tables) (r : ReliefRqst) : Form where
  allocations := f.sorted.flatMap fun a =>
    (((t.rqstItems r.reliefrqstId).map ReliefRqstItem.itemId).filter a.isFor).map (a.toAlloc int)
  status := f.status
  statusReason := f.statusReason

/-- An item of the request finds the fields with its prefix, sorted by name: `allocation_keys`. -/
theorem allocations_form (f : PostedForm) (int : String → Option ℤ) {t : Tables} {r : ReliefRqst} {item : ReliefRqstItem}
    (hi : item ∈ t.rqstItems r.reliefrqstId) :
    ((f.form int t r).allocations.filter fun a => a.itemId = item.itemId) =
      (f.sorted.filter fun a => a.isFor item.itemId).map fun a => a.toAlloc int item.itemId := by
  have hn := nodup_rqstItems t r.reliefrqstId
  have hm := List.mem_map_of_mem (f := ReliefRqstItem.itemId) hi
  unfold PostedForm.form
  generalize (t.rqstItems r.reliefrqstId).map ReliefRqstItem.itemId = itemIds at hn hm
  have hself : itemIds.filter (fun i => i = item.itemId) = [item.itemId] := by
    have hone := filter_of_nodup_map (f := id) (by simpa using hn) item.itemId
    have hfind := find?_of_nodup_map (f := id) (by simpa using hn) hm
    simp only [id_eq] at hone hfind
    rw [hone, hfind]
    rfl
  induction f.sorted with
  | nil => rfl
  | cons a sorted ih =>
    have hown : ((itemIds.filter a.isFor).map (a.toAlloc int)).filter (fun x => x.itemId = item.itemId) =
        if a.isFor item.itemId then [a.toAlloc int item.itemId] else [] := by
      have hitem : ∀ i, (a.toAlloc int i).itemId = i := fun _ => rfl
      simp only [List.filter_map, Function.comp_def, hitem]
      rw [List.filter_comm, hself, List.filter_singleton]
      split_ifs with ha <;> simp [ha]
    simp only [List.flatMap_cons, List.filter_append, List.filter_cons, hown, ih]
    split <;> rfl

/-! ## Three readings of one form -/

/-- What is validated, written and reserved is one plan: `t'` is what the loop leaves, `new` what it returns. -/
structure OnePlan (t t' : Tables) (form : Form) (rqstId pkgId : Nat) (new : List Alloc) : Prop where
  rows : ((t'.positiveItems pkgId).map fun i => (i.batch, i.itemQty)).Perm (new.map fun a => (a.key, a.allocatedQty))
  once : (new.map fun a => (a.itemId, a.batchId)).Nodup
  checked : ∀ i ∈ t.rqstItems rqstId, (form.typed i.itemId).sum = itemTotal (t'.pkgItems pkgId) i.itemId
  reserved : ∀ k, (newBatchReservations new).qty k = t'.pkgQty pkgId k
  /-- A row that no field names is deleted. -/
  named : ∀ i ∈ t'.pkgItems pkgId, ∃ f ∈ form.allocations, f.itemId = i.itemId ∧ safeId f.batchPart = i.batchId

/-- Of the fields for one batch only the last is not zero. -/
def LastCounts (t : Tables) (form : Form) (rqstId : Nat) : Prop :=
  ∀ k, ∀ q ∈ (t.postedQtys rqstId form k).dropLast, q = 0

/-- Every quantity posted for an item of the request fits its column. -/
def FitsColumn (t : Tables) (form : Form) (rqstId : Nat) : Prop :=
  ∀ i ∈ t.rqstItems rqstId, ∀ q ∈ form.typed i.itemId, AtScale 4 q

section
variable {t t' u t₁ : Tables} {ctx : Ctx} {form : Form} {vc : Bool} {r : ReliefRqst} {p : ReliefPkg} {new : List Alloc}
  {old : Allocations} {plans : List ItemPlan} {rqstId pkgId : Nat} {s : ℚ → ℚ}

/-! ## Rows and entries -/

/-- A positive row, as its batch and quantity. -/
theorem mem_rows_iff {r : BatchKey × ℚ} :
    r ∈ (u.positiveItems pkgId).map (fun i => (i.batch, i.itemQty)) ↔ 0 < r.2 ∧ r.2 = u.pkgQty pkgId r.1 := by
  rw [List.mem_map]
  constructor
  · rintro ⟨i, hi, rfl⟩
    obtain ⟨hi, hpos⟩ := mem_positiveItems.1 hi
    exact ⟨hpos, (pkgQty_of_mem hi).symm⟩
  · rintro ⟨hpos, hq⟩
    obtain ⟨i, hi, hk, hv⟩ := exists_of_pkgQty_ne_zero (hq ▸ hpos.ne')
    rw [← hq] at hv
    exact ⟨i, mem_positiveItems.2 ⟨hi, hv ▸ hpos⟩, Prod.ext hk hv⟩

/-- Rows that are the entries are what is reserved. -/
theorem reserved_of_rows (hnew : ∀ a ∈ new, 0 < a.allocatedQty) (hu : ∀ k, 0 ≤ u.pkgQty pkgId k)
    (h : ((u.positiveItems pkgId).map fun i => (i.batch, i.itemQty)).Perm (new.map fun a => (a.key, a.allocatedQty)))
    (k : BatchKey) : (newBatchReservations new).qty k = u.pkgQty pkgId k := by
  have hlast : (newBatchReservations new).qty k = lastAt Alloc.key Alloc.allocatedQty new k := by
    rw [newBatchReservations_qty, lastAt]
    congr 3
    refine List.filter_congr fun a ha => ?_
    simp [hnew a ha]
  rw [hlast]
  by_cases h0 : lastAt Alloc.key Alloc.allocatedQty new k = 0
  · rw [h0]
    by_contra hne
    have hpos : 0 < u.pkgQty pkgId k := lt_of_le_of_ne (hu k) hne
    obtain ⟨a, ha, he⟩ := List.mem_map.1 (h.mem_iff.1 (mem_rows_iff (r := (k, u.pkgQty pkgId k)).2 ⟨hpos, rfl⟩))
    have hk : a.key = k := (Prod.ext_iff.1 he).1
    exact (lastAt_pos hnew ha).ne' (hk ▸ h0)
  · obtain ⟨a, ha, rfl, hv⟩ := exists_of_lastAt h0
    have hrow := mem_rows_iff.1 (h.mem_iff.2 (List.mem_map.2 ⟨a, ha, rfl⟩))
    rw [← hv]
    exact hrow.2

/-- Rows that are the entries add up to them, item by item. -/
theorem itemTotal_of_rows (hu : ∀ k, 0 ≤ u.pkgQty pkgId k)
    (h : ((u.positiveItems pkgId).map fun i => (i.batch, i.itemQty)).Perm (new.map fun a => (a.key, a.allocatedQty)))
    (itemId : Nat) :
    itemTotal (u.pkgItems pkgId) itemId = ((new.filter fun a => a.itemId = itemId).map Alloc.allocatedQty).sum := by
  have hrows := ((h.filter fun r => r.1.itemId = itemId).map Prod.snd).sum_eq
  simp only [List.filter_map, List.map_map] at hrows
  rw [itemTotal, ← sum_filter_pos fun i hi => ?_, List.filter_comm]
  · exact hrows
  · rw [← pkgQty_of_mem (List.mem_filter.1 hi).1]
    exact hu _

/-! ## The fields of a form -/

/-- Every row of the package has a field. -/
theorem Processed.named (h : Processed ctx form vc r t t' new old p t₁ plans) {i : ReliefPkgItem}
    (hi : i ∈ t'.pkgItems p.reliefpkgId) :
    ∃ f ∈ form.allocations, f.itemId = i.itemId ∧ safeId f.batchPart = i.batchId := by
  obtain ⟨a, ha, rfl⟩ := h.row hi
  obtain ⟨item, _, f, hf, hitem, hr⟩ := h.exists_field ha
  refine ⟨f, hf, ?_, ?_⟩
  · exact hitem.trans hr.item.symm
  · exact hr.batch.symm

/-- An item and a batch id name one row. -/
theorem Processed.key_congr (h : Processed ctx form vc r t t' new old p t₁ plans) {a b : Alloc × String}
    (ha : a ∈ plans.flatMap Prod.fst) (hb : b ∈ plans.flatMap Prod.fst) (hi : a.1.itemId = b.1.itemId)
    (hid : a.1.batchId = b.1.batchId) : a.1.key = b.1.key := by
  obtain ⟨_, _, _, _, -, hra⟩ := h.exists_field ha
  obtain ⟨_, _, _, _, -, hrb⟩ := h.exists_field hb
  obtain ⟨x, hx, hwa⟩ := hra.warehouse
  obtain ⟨y, hy, hwb⟩ := hrb.warehouse
  rw [hid] at hx
  have hw : a.1.warehouseId = b.1.warehouseId := by rw [hwa, hwb, Option.some.inj (hx.symm.trans hy)]
  simp only [Alloc.key, hi, hw, hid]

/-- What a form posts for a batch is what is allocated from it. -/
theorem Processed.postedQtys_eq (h : Processed ctx form vc r t t' new old p t₁ plans) (k : BatchKey) :
    t.postedQtys r.reliefrqstId form k =
      ((plans.flatMap Prod.fst).filter fun a => a.1.key = k).map fun a => a.1.allocatedQty :=
  (plans_entries (nodup_rqstItems t r.reliefrqstId) h.planOk k).symm

theorem Processed.lastCounts_iff (h : Processed ctx form vc r t t' new old p t₁ plans) :
    LastCounts t form r.reliefrqstId ↔
      LastOnly (fun a => a.1.key) (fun a => a.1.allocatedQty) (plans.flatMap Prod.fst) := by
  unfold LastCounts LastOnly
  refine forall_congr' fun k => ?_
  rw [h.postedQtys_eq, ← List.map_dropLast, List.forall_mem_map]

/-- The quantities of the items' fields are those of the allocations. -/
theorem Processed.typed_iff (h : Processed ctx form vc r t t' new old p t₁ plans) {P : ℚ → Prop} :
    (∀ i ∈ t.rqstItems r.reliefrqstId, ∀ q ∈ form.typed i.itemId, P q) ↔
      ∀ a ∈ plans.flatMap Prod.fst, P a.1.allocatedQty := by
  constructor
  · intro hall a ha
    obtain ⟨plan, hplan, ha⟩ := List.mem_flatMap.1 ha
    obtain ⟨item, hitem, hok⟩ := exists_of_forall₂_right h.planOk plan hplan
    refine hall item hitem _ ?_
    rw [← hok.typed]
    exact List.mem_map.2 ⟨a, ha, rfl⟩
  · intro hall item hitem q hq
    obtain ⟨plan, hplan, hok⟩ := exists_of_forall₂_left h.planOk item hitem
    rw [← hok.typed] at hq
    obtain ⟨a, ha, rfl⟩ := List.mem_map.1 hq
    exact hall a (List.mem_flatMap.2 ⟨plan, hplan, ha⟩)

/-- The total that is checked is that of the positive allocations. -/
theorem Processed.typed_sum (h : Processed ctx form vc r t t' new old p t₁ plans) {item : ReliefRqstItem}
    (hi : item ∈ t.rqstItems r.reliefrqstId) :
    (form.typed item.itemId).sum = ((new.filter fun a => a.itemId = item.itemId).map Alloc.allocatedQty).sum := by
  obtain ⟨plan, hok, he⟩ := filter_entries h.planOk (nodup_rqstItems t r.reliefrqstId) item hi
  have hnew : (new.filter fun a => a.itemId = item.itemId).map Alloc.allocatedQty =
      (((plans.flatMap Prod.fst).filter fun a => a.1.itemId = item.itemId).filter fun a =>
        0 < a.1.allocatedQty).map fun a => a.1.allocatedQty := by
    rw [h.new_eq, List.filter_comm, List.filter_map, List.filter_map, List.map_map]
    rfl
  rw [hnew, he, ← hok.typed, sum_filter_pos]
  intro a ha
  refine h.qty_nonneg ?_
  rw [← he] at ha
  exact (List.mem_filter.1 ha).1

/-- **One plan, exactly when only the last field of a batch counts**, where `s` is how the rows are stored. -/
theorem Processed.onePlan_iff (h : Processed ctx form vc r t t' new old p t₁ plans) (hs : s 0 = 0)
    (hnn : ∀ q, 0 ≤ q → 0 ≤ s q) (hqty : ∀ k, u.pkgQty p.reliefpkgId k = s (t'.pkgQty p.reliefpkgId k))
    (hrow : ∀ i ∈ u.pkgItems p.reliefpkgId, ∃ j ∈ t'.pkgItems p.reliefpkgId, i.batch = j.batch) :
    OnePlan t u form r.reliefrqstId p.reliefpkgId new ↔
      LastCounts t form r.reliefrqstId ∧ ∀ i ∈ t.rqstItems r.reliefrqstId, ∀ q ∈ form.typed i.itemId, s q = q := by
  have hlast : ∀ k, t'.pkgQty p.reliefpkgId k =
      lastAt (fun a => a.1.key) (fun a => a.1.allocatedQty) (plans.flatMap Prod.fst) k := h.pkgQty_eq
  have hnonneg : ∀ a ∈ plans.flatMap Prod.fst, 0 ≤ a.1.allocatedQty := fun a ha => h.qty_nonneg ha
  have hnew : new.map (fun a => (a.key, a.allocatedQty)) =
      ((plans.flatMap Prod.fst).filter fun a => 0 < a.1.allocatedQty).map fun a => (a.1.key, a.1.allocatedQty) := by
    rw [h.new_eq, List.filter_map, List.map_map]
    rfl
  have hkeys : (((u.positiveItems p.reliefpkgId).map fun i => (i.batch, i.itemQty)).map Prod.fst).Nodup := by
    rw [List.map_map]
    exact nodup_positiveItems u p.reliefpkgId
  have hiff := perm_positive_iff (f := fun a => a.1.key) hs hnonneg hkeys fun r => by rw [mem_rows_iff, hqty, hlast]
  rw [← hnew, ← h.lastCounts_iff, ← h.typed_iff (P := fun q => s q = q)] at hiff
  refine ⟨fun hone => hiff.1 hone.rows, fun hc => ?_⟩
  have hrows := hiff.2 hc
  have hu : ∀ k, 0 ≤ u.pkgQty p.reliefpkgId k := fun k => by
    rw [hqty]
    refine hnn _ ?_
    by_cases h0 : t'.pkgQty p.reliefpkgId k = 0
    · exact h0.ge
    · rw [hlast] at h0 ⊢
      obtain ⟨a, ha, -, he⟩ := exists_of_lastAt h0
      exact he ▸ hnonneg a ha
  have hmem : ∀ {a}, a ∈ new → 0 < a.allocatedQty ∧ ∃ x ∈ plans.flatMap Prod.fst, x.1 = a := fun ha => by
    rw [h.new_eq, List.mem_filter] at ha
    exact ⟨of_decide_eq_true ha.2, List.mem_map.1 ha.1⟩
  refine ⟨hrows, ?_, fun i hi => ?_, reserved_of_rows (fun a ha => (hmem ha).1) hu hrows, fun i hi => ?_⟩
  · have hnd : (new.map Alloc.key).Nodup := by
      have hd := (hrows.map Prod.fst).nodup_iff.1 hkeys
      rwa [List.map_map] at hd
    refine List.Nodup.map_on (fun a ha b hb e => ?_) hnd.of_map
    obtain ⟨-, x, hx, rfl⟩ := hmem ha
    obtain ⟨-, y, hy, rfl⟩ := hmem hb
    obtain ⟨hi, hid⟩ := Prod.ext_iff.1 e
    exact List.inj_on_of_nodup_map hnd ha hb (h.key_congr hx hy hi hid)
  · rw [h.typed_sum hi, itemTotal_of_rows hu hrows]
  · obtain ⟨j, hj, hk⟩ := hrow i hi
    obtain ⟨f, hf, hitem, hid⟩ := h.named hj
    refine ⟨f, hf, ?_, ?_⟩
    · exact hitem.trans (congrArg BatchKey.itemId hk).symm
    · exact hid.trans (congrArg BatchKey.batchId hk).symm

end

/-- **What is validated, written and reserved is one plan exactly when, of the fields for one batch, only the last is
not zero**; and the stored rows are that plan when the quantities fit their column too. -/
theorem one_plan (ctx : Ctx) (vc : Bool) (r : ReliefRqst) (t t' : Tables) (int : String → Option ℤ) (f : PostedForm)
    (new : List Alloc) (old : Allocations)
    (h : processAllocations ctx (f.form int t r) vc r t = .ok (t', new, old)) :
    ∃ p ∈ t'.firstPkg r.reliefrqstId,
      (OnePlan t t' (f.form int t r) r.reliefrqstId p.reliefpkgId new ↔
        LastCounts t (f.form int t r) r.reliefrqstId) ∧
      (OnePlan t t'.rounded (f.form int t r) r.reliefrqstId p.reliefpkgId new ↔
        LastCounts t (f.form int t r) r.reliefrqstId ∧ FitsColumn t (f.form int t r) r.reliefrqstId) := by
  obtain ⟨p, t₁, plans, hp⟩ := processAllocations_ok h
  refine ⟨p, hp.firstPkg, ?_, ?_⟩
  · have hiff := hp.onePlan_iff (s := id) (u := t') rfl (fun q hq => hq) (fun k => rfl) fun i hi => ⟨i, hi, rfl⟩
    simpa using hiff
  · refine hp.onePlan_iff (numeric_zero 4) (fun q hq => numeric_nonneg hq) (pkgQty_rounded t' p.reliefpkgId)
      fun i hi => ?_
    obtain ⟨j, hj, rfl⟩ := mem_pkgItems_rounded.1 hi
    exact ⟨j, hj, rfl⟩

namespace Site

/-- Decimal digits, read as `int` does. -/
def int (s : String) : Option ℤ :=
  s.toList.foldl (fun n c => n.bind fun n => if c.isDigit then some (10 * n + (c.toNat - 48 : ℕ)) else none) (some 0)

def postedForm (fields : List TextField) : PostedForm := ⟨fields, fun _ => none, fun _ => ""⟩

/-- Two names for the batch, the first with a zero, and a name without a batch. -/
def spelledTwice : PostedForm :=
  postedForm [⟨"batch_allocation_1_1", some (.finite 2)⟩, ⟨"batch_allocation_1_x", some (.finite 1)⟩,
    ⟨"batch_allocation_1_01", none⟩]

/-- Two names for the batch, with a quantity each. -/
def postedTwice : PostedForm :=
  postedForm [⟨"batch_allocation_1_1", some (.finite 2)⟩, ⟨"batch_allocation_1_01", some (.finite 1)⟩]

end Site

theorem one_plan_site :
    ∃ t' new old, processAllocations Site.officer (Site.spelledTwice.form Site.int Site.drafted.tables Site.rqst) false
        Site.rqst Site.drafted.tables = .ok (t', new, old) ∧
      OnePlan Site.drafted.tables t'.rounded (Site.spelledTwice.form Site.int Site.drafted.tables Site.rqst) 1 1 new := by
  have hok : (processAllocations Site.officer (Site.spelledTwice.form Site.int Site.drafted.tables Site.rqst) false
      Site.rqst Site.drafted.tables).toOption.map (fun x => (x.1.firstPkg 1).map ReliefPkg.reliefpkgId) =
      some (some 1) := by decide +kernel
  have hform : (Site.spelledTwice.form Site.int Site.drafted.tables Site.rqst).allocations =
      [⟨1, some 1, none⟩, ⟨1, some 1, some (.finite 2)⟩, ⟨1, none, some (.finite 1)⟩] := by decide +kernel
  have hlast : LastCounts Site.drafted.tables (Site.spelledTwice.form Site.int Site.drafted.tables Site.rqst) 1 := by
    rintro ⟨item, warehouse, batch⟩ q hq
    rw [Tables.postedQtys, hform] at hq
    split_ifs at hq
    · have hnamed : [(⟨1, some 1, none⟩ : AllocField), ⟨1, some 1, some (.finite 2)⟩, ⟨1, none, some (.finite 1)⟩].filter
          AllocField.named = [⟨1, some 1, none⟩, ⟨1, some 1, some (.finite 2)⟩] := by decide +kernel
      have hid : safeId (some 1) = 1 := rfl
      rw [hnamed] at hq
      by_cases hi : 1 = item
      · by_cases hb : 1 = batch
        · subst hi hb
          simpa [hid, AllocField.qty, safeQuantity, Except.toOption] using hq
        · simp [hid, hb] at hq
      · simp [hi] at hq
    · cases hq
  cases h : processAllocations Site.officer (Site.spelledTwice.form Site.int Site.drafted.tables Site.rqst) false
      Site.rqst Site.drafted.tables with
  | error e =>
    rw [h] at hok
    cases hok
  | ok x =>
    obtain ⟨t', new, old⟩ := x
    obtain ⟨p, hp, -, hiff⟩ := one_plan Site.officer false Site.rqst Site.drafted.tables t' Site.int Site.spelledTwice
      new old h
    simp only [h, Except.toOption, Option.map_some, Option.some.injEq] at hok
    have hid : p.reliefpkgId = 1 := by
      rw [show t'.firstPkg 1 = some p from hp, Option.map_some, Option.some.injEq] at hok
      exact hok
    rw [hid] at hiff
    exact ⟨t', new, old, rfl, hiff.2 ⟨hlast, by unfold FitsColumn; decide +kernel⟩⟩

/-- Three units are checked and listed, and the package has two. -/
theorem two_plans :
    ∃ t' new old, processAllocations Site.officer (Site.postedTwice.form Site.int Site.drafted.tables Site.rqst) false
        Site.rqst Site.drafted.tables = .ok (t', new, old) ∧ t'.rounded.Consistent ∧
      (new.map Alloc.allocatedQty, t'.pkgQty 1 ⟨1, 1, 1⟩) = ([1, 2], 2) ∧
      ¬ OnePlan Site.drafted.tables t' (Site.postedTwice.form Site.int Site.drafted.tables Site.rqst) 1 1 new := by
  have hval : (processAllocations Site.officer (Site.postedTwice.form Site.int Site.drafted.tables Site.rqst) false
      Site.rqst Site.drafted.tables).toOption.map (fun x => (decide x.1.rounded.Consistent, x.2.1,
        x.1.pkgQty 1 ⟨1, 1, 1⟩)) = some (true, [⟨1, 1, 1, 1⟩, ⟨1, 1, 1, 2⟩], 2) := by decide +kernel
  cases h : processAllocations Site.officer (Site.postedTwice.form Site.int Site.drafted.tables Site.rqst) false
      Site.rqst Site.drafted.tables with
  | error e =>
    rw [h] at hval
    cases hval
  | ok x =>
    obtain ⟨t', new, old⟩ := x
    simp only [h, Except.toOption, Option.map_some, Option.some.injEq, Prod.mk.injEq, decide_eq_true_eq] at hval
    obtain ⟨hcon, rfl, hqty⟩ := hval
    refine ⟨t', _, old, rfl, hcon, by rw [hqty]; rfl, fun hone => ?_⟩
    have honce := hone.once
    revert honce
    decide

end Dmis
