import Dmis.DispatchOnce

/-!
# The reservation ledger

`Ledger`: what is reserved on a batch is what the undispatched packages take from it, within what is
usable, and the totals of a warehouse are the sums of its batches. Drafting keeps it
(`drafting_keeps_ledger`): a form is processed into rows and a pair of allocation maps whose difference is
exactly the change of the pledges (`Drafted`), and `reserve_inventory` adds that difference.
-/

namespace Dmis

open Relational Keyed

/-! ## The ledger -/

/-- What the undispatched packages take from a batch. -/
def Tables.pledged (t : Tables) (k : BatchKey) : ℚ :=
  t.reliefpkg.sum (fun p => p.statusCode ≠ .dispatched) fun p => t.pkgQty p.reliefpkgId k

/-- The batches of an item at a warehouse, summed. -/
def batchSum (b : Table ItemBatch) (s : StockKey) (qty : ItemBatch → ℚ) : ℚ :=
  b.sum (fun r => decide (r.key.stock = s)) qty

/-- Sums over tables that hold the same values row by row are the same. -/
theorem batchSum_congr {b b' : Table ItemBatch} {col col' : ItemBatch → ℚ} (hk : b'.keys = b.keys)
    (h : ∀ k r r', b.get? k = some r → b'.get? k = some r' → col' r' = col r) (s : StockKey) :
    batchSum b' s col' = batchSum b s col :=
  Table.sum_congr hk fun k r r' hr hr' => by
    have e : r'.key = r.key := (Table.key_of_get? hr').trans (Table.key_of_get? hr).symm
    exact ⟨by rw [e], fun _ => h k r r' hr hr'⟩

theorem batchSum_atScale {b : Table ItemBatch} {col : ItemBatch → ℚ} {n : ℕ} (h : ∀ r ∈ b.rows, AtScale n (col r))
    (s : StockKey) : AtScale n (batchSum b s col) :=
  AtScale.sum fun q hq => by
    obtain ⟨r, hr, rfl⟩ := List.mem_map.1 hq
    exact h r (List.mem_filter.1 hr).1

structure Ledger (t : Tables) : Prop where
  reserved : ∀ b ∈ t.itembatch.rows, b.reservedQty = t.pledged b.key
  bounds : ∀ b ∈ t.itembatch.rows, 0 ≤ b.reservedQty ∧ b.reservedQty ≤ b.usableQty
  reservedTotal : ∀ v ∈ t.inventory.rows, v.reservedQty = batchSum t.itembatch v.key ItemBatch.reservedQty
  usableTotal : ∀ v ∈ t.inventory.rows, v.usableQty = batchSum t.itembatch v.key ItemBatch.usableQty
  /-- At most two decimals, so that no column rounds. -/
  batchScale : ∀ b ∈ t.itembatch.rows, AtScale 2 b.usableQty ∧ AtScale 2 b.reservedQty
  rowScale : ∀ i ∈ t.reliefpkgItem.rows, AtScale 2 i.itemQty

section
variable {t t' t₁ t₂ : Tables} {k : BatchKey} {s : StockKey}

theorem pkgQty_nonneg (h : ∀ i ∈ t.reliefpkgItem.rows, 0 ≤ i.itemQty) (pkgId : Nat) (k : BatchKey) :
    0 ≤ t.pkgQty pkgId k := by
  by_cases h0 : t.pkgQty pkgId k = 0
  · exact h0.ge
  · obtain ⟨i, hi, -, hq⟩ := exists_of_pkgQty_ne_zero h0
    exact hq ▸ h i (mem_pkgItems.1 hi).1

theorem pkgQty_atScale {n : ℕ} (h : ∀ i ∈ t.reliefpkgItem.rows, AtScale n i.itemQty) (pkgId : Nat) (k : BatchKey) :
    AtScale n (t.pkgQty pkgId k) := by
  by_cases h0 : t.pkgQty pkgId k = 0
  · rw [h0]; exact .zero
  · obtain ⟨i, hi, -, hq⟩ := exists_of_pkgQty_ne_zero h0
    exact hq ▸ h i (mem_pkgItems.1 hi).1

theorem pledged_nonneg (h : ∀ i ∈ t.reliefpkgItem.rows, 0 ≤ i.itemQty) (k : BatchKey) : 0 ≤ t.pledged k := by
  refine List.sum_nonneg fun q hq => ?_
  obtain ⟨p, -, rfl⟩ := List.mem_map.1 hq
  exact pkgQty_nonneg h p.reliefpkgId k

/-- A package that is not dispatched takes no more than is pledged. -/
theorem pkgQty_le_pledged {p : ReliefPkg} (h : ∀ i ∈ t.reliefpkgItem.rows, 0 ≤ i.itemQty)
    (hp : p ∈ t.reliefpkg.rows) (hs : p.statusCode ≠ .dispatched) (k : BatchKey) :
    t.pkgQty p.reliefpkgId k ≤ t.pledged k := by
  refine List.single_le_sum (fun q hq => ?_) _ ?_
  · obtain ⟨p', -, rfl⟩ := List.mem_map.1 hq
    exact pkgQty_nonneg h p'.reliefpkgId k
  · exact List.mem_map.2 ⟨p, List.mem_filter.2 ⟨hp, by simpa using hs⟩, rfl⟩

theorem pledged_atScale {n : ℕ} (h : ∀ i ∈ t.reliefpkgItem.rows, AtScale n i.itemQty) (k : BatchKey) :
    AtScale n (t.pledged k) := by
  refine AtScale.sum fun q hq => ?_
  obtain ⟨p, -, rfl⟩ := List.mem_map.1 hq
  exact pkgQty_atScale h p.reliefpkgId k

/-- A sum over stored columns is the plain sum. -/
theorem batchSum_numeric {b : Table ItemBatch} {col : ItemBatch → ℚ} (h : ∀ r ∈ b.rows, AtScale 2 (col r))
    (s : StockKey) : batchSum b s (fun r => numeric 4 (col r)) = batchSum b s col := by
  refine Table.sum_congr rfl fun k r r' hr hr' => ?_
  cases Option.mem_unique hr hr'
  exact ⟨rfl, fun _ => (h r (Table.mem_of_get? hr)).mono (by norm_num : 2 ≤ 4)⟩

theorem sumReserved_eq {b : Table ItemBatch} (h : ∀ r ∈ b.rows, AtScale 2 r.reservedQty) (s : StockKey) :
    sumReserved b s = batchSum b s ItemBatch.reservedQty := batchSum_numeric h s

theorem sumUsable_eq {b : Table ItemBatch} (h : ∀ r ∈ b.rows, AtScale 2 r.usableQty) (s : StockKey) :
    sumUsable b s = batchSum b s ItemBatch.usableQty := batchSum_numeric h s

/-! ## Pledges -/

/-- The same packages, with the same ones dispatched. -/
structure SameOpen (t t' : Tables) : Prop where
  keys : t'.reliefpkg.keys = t.reliefpkg.keys
  open_iff : ∀ id p p', t.reliefpkg.get? id = some p → t'.reliefpkg.get? id = some p' →
    (p'.statusCode = .dispatched ↔ p.statusCode = .dispatched)

theorem SameOpen.of_eq (h : t'.reliefpkg = t.reliefpkg) : SameOpen t t' :=
  ⟨by rw [h], fun id p p' hp hp' => by rw [h] at hp'; cases Option.mem_unique hp hp'; rfl⟩

/-- A rewritten header that stays undispatched. -/
theorem SameOpen.setPkg {p q : ReliefPkg} (hp : t.reliefpkg.get? p.reliefpkgId = some p)
    (hid : q.reliefpkgId = p.reliefpkgId) (hs : q.statusCode = .dispatched ↔ p.statusCode = .dispatched) :
    SameOpen t (t.setPkg q) := by
  refine ⟨Table.keys_set _ _, fun id x x' hx hx' => ?_⟩
  have hkey : key q = p.reliefpkgId := hid
  simp only [Tables.setPkg, Table.get?_set, hkey] at hx'
  by_cases e : p.reliefpkgId = id
  · subst e
    cases Option.mem_unique hx hp
    rw [if_pos rfl, hp, Option.map_some] at hx'
    cases hx'; exact hs
  · rw [if_neg e] at hx'
    cases Option.mem_unique hx hx'; rfl

theorem SameOpen.trans (h : SameOpen t t₁) (h' : SameOpen t₁ t₂) : SameOpen t t₂ := by
  refine ⟨h'.keys.trans h.keys, fun id p p' hp hp' => ?_⟩
  cases hm : t₁.reliefpkg.get? id with
  | none =>
    refine absurd (Table.get?_eq_none.1 hm) ?_
    rw [h.keys, not_not]
    exact List.mem_map.2 ⟨p, Table.mem_of_get? hp, Table.key_of_get? hp⟩
  | some q => exact (h'.open_iff id q p' hm hp').trans (h.open_iff id p q hp hm)

theorem SameOpen.pledged (h : SameOpen t t') (hi : t'.reliefpkgItem = t.reliefpkgItem) (k : BatchKey) :
    t'.pledged k = t.pledged k := by
  refine Table.sum_congr h.keys fun id p p' hp hp' => ⟨?_, fun _ => ?_⟩
  · exact decide_eq_decide.2 (not_congr (h.open_iff id p p' hp hp'))
  · have e : p'.reliefpkgId = p.reliefpkgId := (Table.key_of_get? hp').trans (Table.key_of_get? hp).symm
    simp only [Tables.pkgQty, hi, e]

/-- Making a package pledges nothing. -/
theorem getOrCreatePkg_pledged {ctx : Ctx} {r : ReliefRqst} {p : ReliefPkg} (hc : t.Consistent)
    (h : getOrCreatePkg ctx r t = .ok (p, t')) (k : BatchKey) : t'.pledged k = t.pledged k := by
  rcases getOrCreatePkg_cases h with ⟨-, rfl⟩ | ⟨-, rfl, pkgs, hins, rfl⟩
  · rfl
  · have hnew : t.pkgQty t.nextReliefpkgId k = 0 := by
      by_contra hne
      obtain ⟨i, hi, -, -⟩ := exists_of_pkgQty_ne_zero hne
      obtain ⟨hi, hid⟩ := mem_pkgItems.1 hi
      exact (Table.insert_eq_some.1 hins).1 (hid ▸ hc.fkPkgItem i hi)
    have hsum := Table.sum_insert hins (p := fun p => decide (p.statusCode ≠ .dispatched))
      fun p : ReliefPkg => t.pkgQty p.reliefpkgId k
    refine Eq.trans ?_ (hsum.trans ?_)
    · rfl
    · have : (newPkg ctx r t.nextReliefpkgId).reliefpkgId = t.nextReliefpkgId := rfl
      rw [this, hnew, ite_self, add_zero]
      rfl

/-! ## What a form asks for -/

/-- The session before `reserve_inventory`: the maps differ by exactly what the pledges changed by. -/
structure Drafted (t t₂ : Tables) (new : List Alloc) (old : Allocations) : Prop where
  itembatch : t₂.itembatch = t.itembatch
  inventory : t₂.inventory = t.inventory
  delta : ∀ k, (newBatchReservations new).qty k - old.qty k = t₂.pledged k - t.pledged k
  nonneg : ∀ i ∈ t₂.reliefpkgItem.rows, 0 ≤ i.itemQty
  rowScale : ∀ i ∈ t₂.reliefpkgItem.rows, AtScale 2 i.itemQty

variable {ctx : Ctx} {form : Form} {vc : Bool} {r : ReliefRqst} {p : ReliefPkg} {new : List Alloc}
  {old : Allocations} {plans : List ItemPlan} {t₀ : Tables}

/-- A row after the processing of a form is an old row of another package, or a posted quantity. -/
theorem Processed.row_cases (h : Processed ctx form vc r t t₁ new old p t₀ plans) {i : ReliefPkgItem}
    (hi : i ∈ t₁.reliefpkgItem.rows) :
    i ∈ t.reliefpkgItem.rows ∨ ∃ a ∈ plans.flatMap Prod.fst, i.itemQty = a.1.allocatedQty := by
  have hg : t₁.reliefpkgItem.get? (i.reliefpkgId, i.batch) = some i := Table.get?_key hi
  by_cases hp : i.reliefpkgId = p.reliefpkgId
  · rw [hp, h.rows] at hg
    obtain ⟨a, ha, rfl⟩ := Option.map_eq_some_iff.1 hg
    exact .inr ⟨a, (List.mem_filter.1 (List.mem_of_getLast? ha)).1, rfl⟩
  · rw [h.others _ _ hp] at hg
    exact .inl (Table.mem_of_get? hg)

/-- The package a form is processed for is one of the request's, or new. -/
theorem Processed.undispatched (h : Processed ctx form vc r t t₁ new old p t₀ plans)
    (hopen : ∀ p ∈ t.packages r.reliefrqstId, p.statusCode ≠ .dispatched) : p.statusCode ≠ .dispatched := by
  rcases getOrCreatePkg_cases h.pkg with ⟨hf, -⟩ | ⟨-, rfl, -⟩
  · exact hopen p (List.mem_of_mem_head? (Option.mem_def.2 hf))
  · simp [newPkg]

/-- **A processed form asks for the change of the pledges.** -/
theorem drafted_of_processed (hl : Ledger t) (hc : t.Consistent)
    (h : Processed ctx form vc r t t₁ new old p t₀ plans) (hone : form.OneFieldPerBatch) (hdec : form.Decimals 2)
    (hopen : p.statusCode ≠ .dispatched) (hb : t₂.itembatch = t₁.itembatch) (hv : t₂.inventory = t₁.inventory)
    (hi : t₂.reliefpkgItem = t₁.reliefpkgItem) (hs : SameOpen t₁ t₂) : Drafted t t₂ new old := by
  refine ⟨hb.trans h.itembatch_eq, hv.trans h.inventory_eq, fun k => ?_, fun i hm => ?_, fun i hm => ?_⟩
  · have hmem : p ∈ t₁.reliefpkg.rows := (mem_of_firstPkg h.firstPkg).1
    have hother : ∀ q ∈ t₁.reliefpkg.rows, key q ≠ key p →
        t₁.pkgQty q.reliefpkgId k = t.pkgQty q.reliefpkgId k := fun q _ hne => h.pkgQty_other hne k
    have hsingle : t₁.pledged k = t₁.reliefpkg.sum (fun p => p.statusCode ≠ .dispatched)
        (fun q => t.pkgQty q.reliefpkgId k) + (t₁.pkgQty p.reliefpkgId k - t.pkgQty p.reliefpkgId k) :=
      Table.sum_of_single hmem (by simpa using hopen) hother
    have hbefore : t₁.reliefpkg.sum (fun p => p.statusCode ≠ .dispatched)
        (fun q => t.pkgQty q.reliefpkgId k) = t.pledged k := by
      rw [← getOrCreatePkg_pledged hc h.pkg, h.reliefpkg_eq]
      have : t₀.reliefpkgItem = t.reliefpkgItem := by rw [getOrCreatePkg_frame h.pkg]
      simp only [Tables.pledged, Tables.pkgQty, this]
    rw [hs.pledged hi, hsingle, hbefore, h.new_qty hone, h.old_qty]
    ring
  · rw [hi] at hm
    rcases h.row_cases hm with hm | ⟨a, ha, hq⟩
    · exact hc.pkgItem i hm
    · exact hq ▸ h.qty_nonneg ha
  · rw [hi] at hm
    rcases h.row_cases hm with hm | ⟨a, ha, hq⟩
    · exact hl.rowScale i hm
    · exact hq ▸ h.qty_atScale le_rfl hdec ha

/-! ## Reserving it -/

/-- On every batch the difference lands exactly on the new pledge. -/
theorem Drafted.exact (h : Drafted t t₂ new old) (hl : Ledger t) {b : ItemBatch} (hb : t₂.itembatch.get? k = some b) :
    b.reservedQty + ((newBatchReservations new).qty k - old.qty k) = t₂.pledged k := by
  rw [h.itembatch] at hb
  have hk : b.key = k := Table.key_of_get? hb
  rw [hl.reserved b (Table.mem_of_get? hb), hk, h.delta]
  ring

/-- The branch that clamps a negative reservation is not taken. -/
theorem Drafted.not_clamps (h : Drafted t t₂ new old) (hl : Ledger t) :
    ∀ x ∈ Table.seen id (reserveBatch old (newBatchReservations new))
      (allBatchKeys old (newBatchReservations new)) t₂.itembatch,
    ¬ clamps old (newBatchReservations new) x.1 x.2 := by
  rintro ⟨k, o⟩ hx ⟨b, hb, -, hneg⟩
  have hn := nodup_allBatchKeys old (newBatchReservations new)
  rw [← List.map_id (allBatchKeys _ _)] at hn
  obtain ⟨-, ho⟩ := Table.seen_eq (reserveBatch_writesOwn _ _) hn _ hx
  have hexact := h.exact (k := k) hl (ho.symm.trans hb)
  have hnn := pledged_nonneg h.nonneg k
  simp only at hneg
  linarith

theorem Drafted.bumped_eq (h : Drafted t t₂ new old) (hl : Ledger t) {b : ItemBatch}
    (hb : t₂.itembatch.get? k = some b) :
    bumped ((newBatchReservations new).qty k - old.qty k) b.reservedQty = t₂.pledged k := by
  have hexact := h.exact hl hb
  rw [bumped_of_nonneg (hexact ▸ pledged_nonneg h.nonneg k), hexact]

/-- Every batch of the result is one of `t` with its reservation on the pledge. -/
theorem Drafted.batch (h : Drafted t t₂ new old) (hl : Ledger t) (hres : reserveInventory new old t₂ = .ok t')
    {b : ItemBatch} (hb : b ∈ t'.itembatch.rows) : ∃ b₀, t.itembatch.get? b.key = some b₀ ∧
      b.usableQty = b₀.usableQty ∧ b.reservedQty = t₂.pledged b.key ∧
      b.reservedQty = bumped ((newBatchReservations new).qty b.key - old.qty b.key) b₀.reservedQty := by
  obtain ⟨-, hbatch, -⟩ := reserveInventory_ok hres
  obtain ⟨b₀, hb₀, he⟩ := Table.exists_of_map (k := b.key) hbatch hb rfl
  have hu : b.usableQty = b₀.usableQty := (congrArg ItemBatch.usableQty he).symm
  have hr : b.reservedQty = bumped ((newBatchReservations new).qty b.key - old.qty b.key) b₀.reservedQty :=
    (congrArg ItemBatch.reservedQty he).symm
  exact ⟨b₀, h.itembatch ▸ hb₀, hu, hr.trans (h.bumped_eq hl hb₀), hr⟩

theorem Drafted.batchScale (h : Drafted t t₂ new old) (hl : Ledger t) (hres : reserveInventory new old t₂ = .ok t') :
    ∀ b ∈ t'.itembatch.rows, AtScale 2 b.usableQty ∧ AtScale 2 b.reservedQty := fun b hb => by
  obtain ⟨b₀, hb₀, hu, hr, -⟩ := h.batch hl hres hb
  exact ⟨hu ▸ (hl.batchScale b₀ (Table.mem_of_get? hb₀)).1, hr ▸ pledged_atScale h.rowScale b.key⟩

theorem Drafted.bounds (h : Drafted t t₂ new old) (hl : Ledger t) (hres : reserveInventory new old t₂ = .ok t') :
    ∀ b ∈ t'.itembatch.rows, 0 ≤ b.reservedQty ∧ b.reservedQty ≤ b.usableQty := fun b hb => by
  obtain ⟨-, -, hle, -⟩ := reserveInventory_ok hres
  obtain ⟨b₀, hb₀, hu, hr, hbump⟩ := h.batch hl hres hb
  refine ⟨hr ▸ pledged_nonneg h.nonneg b.key, ?_⟩
  obtain ⟨h0, hle0⟩ := hl.bounds b₀ (Table.mem_of_get? hb₀)
  by_cases hd : (newBatchReservations new).qty b.key - old.qty b.key = 0
  · rw [hbump, bumped, if_pos hd, hu]
    exact hle0
  · have hcap := hle b.key b₀ (by rw [h.itembatch]; exact hb₀) hd
    rw [max_eq_right (h0.trans hle0)] at hcap
    rw [hbump, hu]
    exact hcap

/-- The totals of the warehouses whose batches the maps name are recomputed; on the others nothing changed. -/
theorem Drafted.reservedTotal (h : Drafted t t₂ new old) (hl : Ledger t)
    (hres : reserveInventory new old t₂ = .ok t') :
    ∀ v ∈ t'.inventory.rows, v.reservedQty = batchSum t'.itembatch v.key ItemBatch.reservedQty := fun v hv => by
  obtain ⟨-, -, -, htot, hother⟩ := reserveInventory_ok hres
  have hkeys : t'.itembatch.keys = t.itembatch.keys := h.itembatch ▸ reserveInventory_keys hres
  have hg : t'.inventory.get? v.key = some v := Table.get?_key hv
  by_cases hk : ∃ k ∈ allBatchKeys old (newBatchReservations new), k.stock = v.key
  · obtain ⟨v₀, -, -, -, hv'⟩ := htot v.key hk
    rw [hg] at hv'
    rw [← sumReserved_eq (fun b hb => (h.batchScale hl hres b hb).2)]
    exact congrArg Inventory.reservedQty (Option.some.inj hv')
  · rw [hother v.key hk, h.inventory] at hg
    rw [hl.reservedTotal v (Table.mem_of_get? hg)]
    refine (Table.sum_congr hkeys fun k b b' hb hb' => ?_).symm
    have hkb : b.key = k := Table.key_of_get? hb
    have hkb' : b'.key = k := Table.key_of_get? hb'
    refine ⟨by rw [hkb, hkb'], fun hs => ?_⟩
    obtain ⟨b₀, hb₀, -, -, hbump⟩ := h.batch hl hres (Table.mem_of_get? hb')
    rw [hkb'] at hb₀ hbump
    cases Option.mem_unique hb hb₀
    -- neither map names a batch of this warehouse
    have hno : k ∉ allBatchKeys old (newBatchReservations new) := fun hm =>
      hk ⟨k, hm, hkb ▸ of_decide_eq_true hs⟩
    rw [mem_allBatchKeys, not_or] at hno
    rw [hbump, Allocations.qty_of_not_mem hno.1, Allocations.qty_of_not_mem hno.2, sub_self, bumped, if_pos rfl]

/-- Nothing usable moves. -/
theorem Drafted.usableTotal (h : Drafted t t₂ new old) (hl : Ledger t) (hres : reserveInventory new old t₂ = .ok t') :
    ∀ v ∈ t'.inventory.rows, v.usableQty = batchSum t'.itembatch v.key ItemBatch.usableQty := fun v hv => by
  obtain ⟨-, -, -, htot, hother⟩ := reserveInventory_ok hres
  have hkeys : t'.itembatch.keys = t.itembatch.keys := h.itembatch ▸ reserveInventory_keys hres
  have hsum : batchSum t'.itembatch v.key ItemBatch.usableQty = batchSum t.itembatch v.key ItemBatch.usableQty :=
    batchSum_congr hkeys (fun k b b' hb hb' => by
      obtain ⟨b₀, hb₀, hu, -⟩ := h.batch hl hres (Table.mem_of_get? hb')
      have hk' : b'.key = k := Table.key_of_get? hb'
      rw [hk'] at hb₀
      cases Option.mem_unique hb hb₀
      exact hu) v.key
  have hg : t'.inventory.get? v.key = some v := Table.get?_key hv
  rw [hsum]
  by_cases hk : ∃ k ∈ allBatchKeys old (newBatchReservations new), k.stock = v.key
  · obtain ⟨v₀, hv₀, -, -, hv'⟩ := htot v.key hk
    rw [hg] at hv'
    rw [h.inventory] at hv₀
    have hkey : v₀.key = v.key := Table.key_of_get? hv₀
    have he := Option.some.inj hv'
    have hu : v.usableQty = v₀.usableQty := (congrArg Inventory.usableQty he).trans rfl
    rw [hu, ← hkey]
    exact hl.usableTotal v₀ (Table.mem_of_get? hv₀)
  · rw [hother v.key hk, h.inventory] at hg
    exact hl.usableTotal v (Table.mem_of_get? hg)

/-- **Reserving what a form asks for keeps the ledger.** -/
theorem Drafted.ledger (h : Drafted t t₂ new old) (hl : Ledger t) (hres : reserveInventory new old t₂ = .ok t') :
    Ledger t' := by
  have hf := (reserveInventory_ok hres).1
  have hitems : t'.reliefpkgItem = t₂.reliefpkgItem := by rw [hf]
  have hpledged : ∀ k, t'.pledged k = t₂.pledged k := fun k => by rw [hf]; rfl
  refine ⟨fun b hb => ?_, h.bounds hl hres, h.reservedTotal hl hres, h.usableTotal hl hres, h.batchScale hl hres,
    hitems ▸ h.rowScale⟩
  obtain ⟨-, -, -, hr, -⟩ := h.batch hl hres hb
  rw [hr, hpledged]

/-! ## The drafting operations -/

variable {post : Post} {op : Op} {rqstId : Nat}

/-- A form without repeated batches, in at most two decimals. -/
structure Form.Exact (f : Form) : Prop where
  oneField : f.OneFieldPerBatch
  decimals : f.Decimals 2

theorem saveDraftAllocations_drafted (hl : Ledger t) (hc : t.Consistent) (hf : post.form.Exact)
    (hopen : ∀ p ∈ t.packages r.reliefrqstId, p.statusCode ≠ .dispatched)
    (h : saveDraftAllocations ctx r post t = .ok (t₂, new, old)) : Drafted t t₂ new old := by
  simp only [saveDraftAllocations, bind_ok, pure_ok] at h
  obtain ⟨_, -, _, -, ⟨t₁, new', old'⟩, hproc, he⟩ := h
  cases he
  obtain ⟨p, t₀, plans, hp⟩ := processAllocations_ok hproc
  refine drafted_of_processed hl hc hp hf.oneField hf.decimals (hp.undispatched hopen) ?_ ?_ ?_ ?_
  · simp only [Tables.setRqst]; split <;> rfl
  · simp only [Tables.setRqst]; split <;> rfl
  · simp only [Tables.setRqst]; split <;> rfl
  · split
    · rename_i q hq
      have hs : SameOpen t₁ (t₁.setPkg q.unmarked) :=
        SameOpen.setPkg (get?_of_firstPkg hq) (unmarked_id q) (by unfold ReliefPkg.unmarked; split <;> rfl)
      exact ⟨hs.keys, hs.open_iff⟩
    · exact .of_eq rfl

theorem submitForApprovalAllocations_drafted (hl : Ledger t) (hc : t.Consistent) (hf : post.form.Exact)
    (hopen : ∀ p ∈ t.packages r.reliefrqstId, p.statusCode ≠ .dispatched)
    (h : submitForApprovalAllocations ctx r post t = .ok (t₂, new, old)) : Drafted t t₂ new old := by
  simp only [submitForApprovalAllocations, bind_ok, pure_ok, check_ok, require_ok, exists_const] at h
  obtain ⟨-, _, -, _, -, -, ⟨t₁, new', old'⟩, hproc, q, hq, -, he⟩ := h
  cases he
  obtain ⟨p, t₀, plans, hp⟩ := processAllocations_ok hproc
  have hpu := hp.undispatched hopen
  -- the package read back is the one the form was processed for
  obtain rfl : q = p := Option.mem_unique hq hp.firstPkg
  have hs : SameOpen t₁ (t₁.setPkg (q.submitted ctx)) :=
    SameOpen.setPkg (get?_of_firstPkg hq) rfl ⟨fun h => by simp [ReliefPkg.submitted] at h, fun h => absurd h hpu⟩
  exact drafted_of_processed hl hc hp hf.oneField hf.decimals hpu rfl rfl rfl ⟨hs.keys, hs.open_iff⟩

theorem saveDraftApprovalAllocations_drafted (hl : Ledger t) (hc : t.Consistent) (hf : post.form.Exact)
    (hopen : ∀ p ∈ t.packages r.reliefrqstId, p.statusCode ≠ .dispatched) (hm : p ∈ t.packages r.reliefrqstId)
    (h : saveDraftApprovalAllocations ctx r p post t = .ok (t₂, new, old)) : Drafted t t₂ new old := by
  simp only [saveDraftApprovalAllocations, bind_ok, pure_ok] at h
  obtain ⟨_, -, _, -, ⟨t₁, new', old'⟩, hproc, he⟩ := h
  cases he
  obtain ⟨q, t₀, plans, hp⟩ := processAllocations_ok hproc
  have hs : SameOpen t₁ (t₁.setPkg (p.redrafted ctx)) :=
    SameOpen.setPkg (p := p) (processAllocations_keeps hproc hm) rfl
      ⟨fun h => by simp [ReliefPkg.redrafted] at h, fun h => absurd h (hopen p hm)⟩
  exact drafted_of_processed hl hc hp hf.oneField hf.decimals (hp.undispatched hopen) rfl rfl rfl hs

theorem Ledger.of_same (hl : Ledger t) (hs : SameOpen t t') (hb : t'.itembatch = t.itembatch)
    (hv : t'.inventory = t.inventory) (hi : t'.reliefpkgItem = t.reliefpkgItem) : Ledger t' := by
  refine ⟨fun b h => ?_, ?_, ?_, ?_, ?_, ?_⟩
  · rw [hs.pledged hi]
    exact hl.reserved b (hb ▸ h)
  · rw [hb]; exact hl.bounds
  · rw [hb, hv]; exact hl.reservedTotal
  · rw [hb, hv]; exact hl.usableTotal
  · rw [hb]; exact hl.batchScale
  · rw [hi]; exact hl.rowScale

theorem reviewReject_ledger (hl : Ledger t) (hm : p ∈ t.packages rqstId) (hp : p.statusCode = .pending)
    (h : reviewReject ctx r p post t = .ok t') : Ledger t' := by
  simp only [reviewReject, bind_ok, pure_ok] at h
  obtain ⟨_, -, _, -, rfl⟩ := h
  have hs : SameOpen t (t.setPkg (p.rejected ctx)) :=
    SameOpen.setPkg (get?_of_packages hm) rfl ⟨fun h => by simp [ReliefPkg.rejected] at h, fun h => by simp [hp] at h⟩
  exact hl.of_same ⟨hs.keys, hs.open_iff⟩ rfl rfl rfl

/-- With at most two decimals nothing rounds. -/
theorem batchSum_rounded {f : ItemBatch → ℚ} (hf : ∀ b ∈ t.itembatch.rows, f b.rounded = f b) (s : StockKey) :
    batchSum t.rounded.itembatch s f = batchSum t.itembatch s f := by
  have hkeys : t.rounded.itembatch.keys = t.itembatch.keys := by
    simp only [Tables.rounded, Table.keys, Table.mapRows, List.map_map]
    rfl
  refine batchSum_congr hkeys (fun k b b' hb hb' => ?_) s
  rw [rounded_itembatch, hb, Option.map_some, Option.some.injEq] at hb'
  rw [← hb', hf b (Table.mem_of_get? hb)]

/-- A ledger in two decimals is stored as it is. -/
theorem Ledger.rounded (h : Ledger t) : Ledger t.rounded := by
  have husable : ∀ b ∈ t.itembatch.rows, b.rounded.usableQty = b.usableQty := fun b hb =>
    (h.batchScale b hb).1.mono (by norm_num : 2 ≤ 4)
  have hreserved : ∀ b ∈ t.itembatch.rows, b.rounded.reservedQty = b.reservedQty := fun b hb =>
    (h.batchScale b hb).2.mono (by norm_num : 2 ≤ 4)
  have hitem : ∀ i ∈ t.reliefpkgItem.rows, i.rounded = i := fun i hi => by
    have hq := (h.rowScale i hi).mono (by norm_num : 2 ≤ 4)
    simp only [ReliefPkgItem.rounded, show numeric 4 i.itemQty = i.itemQty from hq]
  have hitems : t.rounded.reliefpkgItem = t.reliefpkgItem :=
    Table.ext ((List.map_congr_left hitem).trans (List.map_id _))
  have hpledged : ∀ k, t.rounded.pledged k = t.pledged k := fun k =>
    have hs : SameOpen t t.rounded := .of_eq rfl
    hs.pledged hitems k
  refine ⟨fun b hb => ?_, fun b hb => ?_, fun v hv => ?_, fun v hv => ?_, fun b hb => ?_, hitems ▸ h.rowScale⟩
  · obtain ⟨b₀, hb₀, rfl⟩ := List.mem_map.1 hb
    rw [hreserved b₀ hb₀, hpledged]
    exact h.reserved b₀ hb₀
  · obtain ⟨b₀, hb₀, rfl⟩ := List.mem_map.1 hb
    rw [hreserved b₀ hb₀, husable b₀ hb₀]
    exact h.bounds b₀ hb₀
  · obtain ⟨v₀, hv₀, rfl⟩ := List.mem_map.1 hv
    have htotal := h.reservedTotal v₀ hv₀
    have hscale : AtScale 2 v₀.reservedQty := htotal ▸ batchSum_atScale (fun b hb => (h.batchScale b hb).2) _
    rw [batchSum_rounded hreserved]
    exact Eq.trans hscale htotal
  · obtain ⟨v₀, hv₀, rfl⟩ := List.mem_map.1 hv
    have htotal := h.usableTotal v₀ hv₀
    have hscale : AtScale 2 v₀.usableQty := htotal ▸ batchSum_atScale (fun b hb => (h.batchScale b hb).1) _
    rw [batchSum_rounded husable]
    exact Eq.trans hscale htotal
  · obtain ⟨b₀, hb₀, rfl⟩ := List.mem_map.1 hb
    rw [hreserved b₀ hb₀, husable b₀ hb₀]
    exact h.batchScale b₀ hb₀

end

/-! ## Runs -/

/-- What a drafting operation hands to `reserve_inventory`, if it gets there. -/
def Op.reservation (t : Tables) : Op → Option (Tables × List Alloc × Allocations)
  | .preparePackage ctx rqstId .saveDraft post =>
    (prepareGate ctx rqstId t >>= fun r => saveDraftAllocations ctx r post t).toOption
  | .preparePackage ctx rqstId .submitForApproval post =>
    (prepareGate ctx rqstId t >>= fun r => submitForApprovalAllocations ctx r post t).toOption
  | .approvePackage ctx rqstId .saveDraft post =>
    (approveGate ctx rqstId t >>= fun x => saveDraftApprovalAllocations ctx x.1 x.2 post t).toOption
  | _ => none

/-- Some iteration of the batch loop of `reserve_inventory` clamps a negative reservation to `0`, whether
or not the operation goes through. -/
def Clamps (db : Database) (op : Op) : Prop :=
  ∃ t new old, op.reservation db.tables = some (t, new, old) ∧
    ∃ x ∈ Table.seen id (reserveBatch old (newBatchReservations new))
      (allBatchKeys old (newBatchReservations new)) t.itembatch,
    clamps old (newBatchReservations new) x.1 x.2

/-- A drafting operation on a request none of whose packages is dispatched. -/
def Drafting (db : Database) : Op → Prop
  | .preparePackage _ rqstId .saveDraft post | .preparePackage _ rqstId .submitForApproval post
  | .approvePackage _ rqstId .saveDraft post =>
    post.form.Exact ∧ ∀ p ∈ db.tables.packages rqstId, p.statusCode ≠ .dispatched
  | .reviewApproval _ rqstId .reject _ => ∀ p ∈ db.tables.packages rqstId, p.statusCode ≠ .dispatched
  | _ => False

section
variable {db : Database} {op : Op} {t₂ t' : Tables} {new : List Alloc} {old : Allocations}

theorem reservation_drafted (hl : Ledger db.tables) (hd : Drafting db op)
    (h : op.reservation db.tables = some (t₂, new, old)) : Drafted db.tables t₂ new old := by
  have ok : ∀ {x : Except Err (Tables × List Alloc × Allocations)} {a}, x.toOption = some a → x = .ok a := by
    rintro (e | a) b h <;> cases h; rfl
  cases op with
  | preparePackage ctx rqstId action post =>
    cases action with
    | saveDraft =>
      obtain ⟨r, hg, ha⟩ := bind_ok.1 (ok h)
      obtain ⟨-, -, -, rfl⟩ := prepareGate_ok hg
      exact saveDraftAllocations_drafted hl db.consistent hd.1 hd.2 ha
    | submitForApproval =>
      obtain ⟨r, hg, ha⟩ := bind_ok.1 (ok h)
      obtain ⟨-, -, -, rfl⟩ := prepareGate_ok hg
      exact submitForApprovalAllocations_drafted hl db.consistent hd.1 hd.2 ha
    | sendForDispatch => cases h
  | approvePackage ctx rqstId action post =>
    cases action with
    | saveDraft =>
      obtain ⟨⟨r, p⟩, hg, ha⟩ := bind_ok.1 (ok h)
      obtain ⟨rfl, hm, -⟩ := approveGate_mem hg
      exact saveDraftApprovalAllocations_drafted hl db.consistent hd.1 hd.2 hm ha
    | approveAndDispatch => cases h
  | _ => cases h

/-- A drafting operation is its reservation, or a rejection. -/
theorem route_ledger (hl : Ledger db.tables) (hd : Drafting db op) (h : op.route db.tables = .ok t') :
    Ledger t' := by
  cases op with
  | preparePackage ctx rqstId action post =>
    cases action with
    | saveDraft =>
      simp only [Op.route, preparePackage, saveDraft, bind_ok] at h
      obtain ⟨r, hg, ⟨t₂, new, old⟩, ha, hres⟩ := h
      obtain ⟨-, -, -, rfl⟩ := prepareGate_ok hg
      exact (saveDraftAllocations_drafted hl db.consistent hd.1 hd.2 ha).ledger hl hres
    | submitForApproval =>
      simp only [Op.route, preparePackage, submitForApproval, bind_ok] at h
      obtain ⟨r, hg, ⟨t₂, new, old⟩, ha, hres⟩ := h
      obtain ⟨-, -, -, rfl⟩ := prepareGate_ok hg
      exact (submitForApprovalAllocations_drafted hl db.consistent hd.1 hd.2 ha).ledger hl hres
    | sendForDispatch => exact hd.elim
  | approvePackage ctx rqstId action post =>
    cases action with
    | saveDraft =>
      simp only [Op.route, approvePackage, saveDraftApproval, bind_ok] at h
      obtain ⟨⟨r, p⟩, hg, ⟨t₂, new, old⟩, ha, hres⟩ := h
      obtain ⟨rfl, hm, -⟩ := approveGate_mem hg
      exact (saveDraftApprovalAllocations_drafted hl db.consistent hd.1 hd.2 hm ha).ledger hl hres
    | approveAndDispatch => exact hd.elim
  | reviewApproval ctx rqstId action post =>
    cases action with
    | reject =>
      simp only [Op.route, reviewApproval, bind_ok] at h
      obtain ⟨⟨r, p⟩, hg, h⟩ := h
      obtain ⟨rfl, hm, hp⟩ := approveGate_mem hg
      exact reviewReject_ledger hl hm hp h
    | approveAndDispatch => exact hd.elim
  | _ => exact hd.elim

theorem step_ledger (hl : Ledger db.tables) (hd : Drafting db op) : Ledger (step db op).tables := by
  refine step_cases (P := fun d => Ledger d.tables) hl fun db' t ht _ he => ?_
  rw [he]
  exact (route_ledger hl hd ht).rounded

end

/-- **Drafting keeps the ledger exact**, and never clamps a reservation. -/
theorem drafting_keeps_ledger (db : Database) (hl : Ledger db.tables) (ops : List Op)
    (hd : Along step Drafting db ops) :
    Ledger (run step db ops).tables ∧ Along step (fun s op => ¬ Clamps s op) db ops := by
  have hstep : ∀ s op, Ledger s.tables → Drafting s op → Ledger (step s op).tables := fun _ _ => step_ledger
  refine ⟨Along.invariant (I := fun s : Database => Ledger s.tables) hstep hl hd,
    Along.imp (I := fun s : Database => Ledger s.tables) hstep (fun s op hs hop => ?_) hl hd⟩
  rintro ⟨t₂, new, old, hres, x, hx, hclamp⟩
  exact (reservation_drafted hs hop hres).not_clamps hs x hx hclamp

theorem Site.ledger : Ledger db.tables :=
  ⟨by decide +kernel, by decide +kernel, by decide +kernel, by decide +kernel, by decide +kernel, by decide +kernel⟩

theorem Site.form_exact {q : ℚ} (hq : AtScale 2 q) : (form q).Exact := by
  refine ⟨by simp [Form.OneFieldPerBatch, form, AllocField.named, safeId], fun a ha q' hv => ?_⟩
  cases List.mem_singleton.1 ha
  cases hv; exact hq

/-- Saved, submitted, changed by the manager, rejected. -/
def Site.drafting : List Op :=
  [.preparePackage officer 1 .saveDraft (post 3 .absent 2),
    .preparePackage officer 1 .submitForApproval (post 4 (.num 1) 3),
    .approvePackage manager 1 .saveDraft (post 5 (.num 2) 4),
    .reviewApproval manager 1 .reject (post 5 (.num 3) 4)]

theorem drafting_keeps_ledger_site :
    Ledger (run step Site.db Site.drafting).tables ∧
    (run step Site.db Site.drafting).tables.pledged ⟨1, 1, 1⟩ = 4 := by
  refine ⟨(drafting_keeps_ledger Site.db Site.ledger Site.drafting ⟨?_, ?_, ?_, ?_, trivial⟩).1, by decide +kernel⟩
  · exact ⟨Site.form_exact (by decide +kernel), by decide +kernel⟩
  · exact ⟨Site.form_exact (by decide +kernel), by decide +kernel⟩
  · exact ⟨Site.form_exact (by decide +kernel), by decide +kernel⟩
  · simp only [Drafting]
    decide +kernel

end Dmis
