import Dmis.Cancellation

/-!
# The one-step dispatches

`_send_for_dispatch` (`packaging.py:1696-1782`) and `_approve_and_dispatch` (`:596-763`) overwrite the rows of
the package with the posted form and call `commit_inventory`, which takes the new quantities out of
`usable_qty` and out of `reserved_qty` alike (`inventory_reservation_service.py:293-378`), in four decimals, as the rows
were flushed. What the package had reserved before is not looked at, although `_process_allocations` returns it. So the ledger stays exact
where the form posts what was reserved, and where it does not, `max(0, …)` or another package's
reservation absorbs the difference (`one_step_dispatch`).
-/

namespace Dmis

open Relational Keyed

/-! ## What a form posts -/

/-- The quantity a field stands for. -/
def AllocField.qty (f : AllocField) : ℚ := (safeQuantity f.value).toOption.getD 0

/-- The quantities a form posts for a batch: for an item of the request, and a batch id that names this
batch. -/
def Tables.postedQtys (t : Tables) (rqstId : Nat) (form : Form) (k : BatchKey) : List ℚ :=
  if k.itemId ∈ (t.rqstItems rqstId).map ReliefRqstItem.itemId ∧
      (batchById t.itembatch k.batchId).map ItemBatch.inventoryId = some k.inventoryId then
    (((form.allocations.filter AllocField.named).filter fun f => f.itemId = k.itemId).filter fun f =>
      safeId f.batchPart = k.batchId).map AllocField.qty
  else []

/-- Of several fields for one batch the last counts. -/
def Tables.posted (t : Tables) (rqstId : Nat) (form : Form) (k : BatchKey) : ℚ :=
  (t.postedQtys rqstId form k).getLast?.getD 0

/-- What the package of a request takes from a batch. -/
def Tables.held (t : Tables) (rqstId : Nat) (k : BatchKey) : ℚ :=
  ((t.firstPkg rqstId).map fun p => t.pkgQty p.reliefpkgId k).getD 0

section
variable {ctx : Ctx} {form : Form} {vc : Bool} {r : ReliefRqst} {t t' t₁ t₂ t₃ : Tables} {new : List Alloc}
  {old : Allocations} {p : ReliefPkg} {plans : List ItemPlan} {totals : Table Inventory} {k : BatchKey}

theorem ReadsAs.qty_eq {batches : Table ItemBatch} {itemId : Nat} {f : AllocField} {a : Alloc × String}
    (h : ReadsAs ctx batches totals old itemId f a) : f.qty = a.1.allocatedQty := by
  rw [AllocField.qty, h.qty]
  rfl

/-- Which batch an allocation of an item is for. -/
theorem ReadsAs.key_iff {batches : Table ItemBatch} {itemId : Nat} {f : AllocField} {a : Alloc × String}
    (h : ReadsAs ctx batches totals old itemId f a) :
    a.1.key = k ↔ itemId = k.itemId ∧ safeId f.batchPart = k.batchId ∧
      (batchById batches k.batchId).map ItemBatch.inventoryId = some k.inventoryId := by
  obtain ⟨b, hb, hw⟩ := h.warehouse
  have hi := h.item
  have hid := h.batch
  obtain ⟨item, warehouse, batch⟩ := k
  simp only [Alloc.key, BatchKey.mk.injEq, hi, hid, hw]
  rw [hid] at hb
  constructor
  · rintro ⟨rfl, rfl, rfl⟩
    exact ⟨rfl, rfl, by rw [hb]; rfl⟩
  · rintro ⟨rfl, rfl, he⟩
    rw [hb] at he
    exact ⟨rfl, Option.some.inj he, rfl⟩

/-- The allocations of one item for the batch. -/
theorem plan_entries {batches : Table ItemBatch} {itemId : Nat} {fs : List AllocField} {as : List (Alloc × String)}
    (h : List.Forall₂ (ReadsAs ctx batches totals old itemId) fs as) (k : BatchKey) :
    (as.filter fun a => a.1.key = k).map (fun a => a.1.allocatedQty) =
      if itemId = k.itemId ∧ (batchById batches k.batchId).map ItemBatch.inventoryId = some k.inventoryId then
        (fs.filter fun f => safeId f.batchPart = k.batchId).map AllocField.qty
      else [] := by
  induction h with
  | nil => simp
  | @cons f a fs as hr _ ih =>
    have hiff := hr.key_iff (k := k)
    have hq := hr.qty_eq
    by_cases hc : itemId = k.itemId ∧ (batchById batches k.batchId).map ItemBatch.inventoryId = some k.inventoryId
    · rw [if_pos hc] at ih ⊢
      by_cases hb : safeId f.batchPart = k.batchId
      · have hk : a.1.key = k := hiff.2 ⟨hc.1, hb, hc.2⟩
        simp [hk, hb, hq, ih]
      · have hk : a.1.key ≠ k := fun e => hb (hiff.1 e).2.1
        simp [hk, hb, ih]
    · rw [if_neg hc] at ih ⊢
      have hk : a.1.key ≠ k := fun e => hc ⟨(hiff.1 e).1, (hiff.1 e).2.2⟩
      simp [hk, ih]

/-- The allocations of all items for the batch are those of the batch's item. -/
theorem plans_entries {items : List ReliefRqstItem} (hn : (items.map ReliefRqstItem.itemId).Nodup)
    (h : List.Forall₂ (PlanOk ctx form vc t.itembatch t.inventory old) items plans) (k : BatchKey) :
    ((plans.flatMap Prod.fst).filter fun a => a.1.key = k).map (fun a => a.1.allocatedQty) =
      if k.itemId ∈ items.map ReliefRqstItem.itemId ∧
          (batchById t.itembatch k.batchId).map ItemBatch.inventoryId = some k.inventoryId then
        (((form.allocations.filter AllocField.named).filter fun f => f.itemId = k.itemId).filter fun f =>
          safeId f.batchPart = k.batchId).map AllocField.qty
      else [] := by
  induction h with
  | nil => simp
  | @cons item plan items plans hok _ ih =>
    rw [List.map_cons, List.nodup_cons] at hn
    rw [List.flatMap_cons, List.filter_append, List.map_append, plan_entries hok.reads k, ih hn.2]
    by_cases hi : item.itemId = k.itemId
    · have hrest : k.itemId ∉ items.map ReliefRqstItem.itemId := hi ▸ hn.1
      simp only [hi, true_and, hrest, false_and, if_false, List.append_nil, List.map_cons, List.mem_cons, true_or]
    · simp only [hi, false_and, if_false, List.nil_append, List.map_cons, List.mem_cons, Ne.symm hi, false_or]

/-- The rows a processed form leaves are what it posts. -/
theorem Processed.posted_eq (h : Processed ctx form vc r t t' new old p t₁ plans) (k : BatchKey) :
    t'.pkgQty p.reliefpkgId k = t.posted r.reliefrqstId form k := by
  rw [h.pkgQty_eq, Tables.posted, Tables.postedQtys, ← plans_entries (nodup_rqstItems t r.reliefrqstId) h.planOk k,
    List.getLast?_map]

/-! ## The package -/

variable {q : ReliefPkg} {rqstId : Nat}

/-- A package rewritten in place is still the first one. -/
theorem firstPkg_setPkg (hp : t.firstPkg rqstId = some p) (hid : q.reliefpkgId = p.reliefpkgId)
    (hr : q.reliefrqstId = p.reliefrqstId) : (t.setPkg q).firstPkg rqstId = some q := by
  obtain ⟨hm, hx⟩ := mem_of_firstPkg hp
  have hkey : key q = p.reliefpkgId := hid
  have hself : key p = key q := hid.symm
  have hfil : t.reliefpkg.rows.filter ((fun y => decide (y.reliefrqstId = rqstId)) ∘
      fun y => if key y = key q then q else y) = t.packages rqstId := by
    refine List.filter_congr fun y hy => ?_
    simp only [Function.comp, hkey]
    split
    · rename_i e
      rw [List.inj_on_of_nodup_map t.reliefpkg.nodup hy hm e, hr]
    · rfl
  simp only [Tables.firstPkg, Tables.packages, Tables.setPkg, Table.select, Table.set, List.filter_map]
  rw [List.head?_map, hfil, show (t.packages rqstId).head? = some p from hp, Option.map_some,
    if_pos hself]

/-- The package of the request, or one that was just made and has no rows yet. -/
theorem getOrCreatePkg_rows (hc : t.Consistent) (h : getOrCreatePkg ctx r t = .ok (p, t')) :
    t.firstPkg r.reliefrqstId = some p ∨
    (t.firstPkg r.reliefrqstId = none ∧ p = newPkg ctx r t.nextReliefpkgId ∧ t.pkgItems p.reliefpkgId = []) := by
  rcases getOrCreatePkg_cases h with ⟨hf, -⟩ | ⟨hnone, hp, pkgs, hins, -⟩
  · exact .inl hf
  · refine .inr ⟨hnone, hp, List.eq_nil_iff_forall_not_mem.2 fun i hi => ?_⟩
    obtain ⟨hi, hid⟩ := mem_pkgItems.1 hi
    have hfk := hc.fkPkgItem i hi
    rw [hid] at hfk
    exact (Table.insert_eq_some.1 hins).1 hfk

theorem held_eq (hc : t.Consistent) (h : Processed ctx form vc r t t' new old p t₁ plans) (k : BatchKey) :
    t.held r.reliefrqstId k = t.pkgQty p.reliefpkgId k := by
  rcases getOrCreatePkg_rows hc h.pkg with hf | ⟨hf, -, hnil⟩
  · rw [Tables.held, hf]
    rfl
  · have hzero : t.pkgQty p.reliefpkgId k = 0 := by
      by_contra hne
      obtain ⟨i, hi, -, -⟩ := exists_of_pkgQty_ne_zero hne
      rw [hnil] at hi
      cases hi
    rw [Tables.held, hf, hzero]
    rfl

/-! ## The dispatch -/

/-- What a one-step dispatch leaves in the session: the rows are the posted ones as they are stored, the package is
dispatched, and every batch was committed what its row says. -/
structure Sent (t t' : Tables) (rqstId : Nat) (form : Form) (p : ReliefPkg) : Prop where
  firstPkg : ∃ q, t'.firstPkg rqstId = some q ∧ q.reliefpkgId = p.reliefpkgId
  posted : ∀ k, t'.pkgQty p.reliefpkgId k = numeric 4 (t.posted rqstId form k)
  nonneg : ∀ k, 0 ≤ numeric 4 (t.posted rqstId form k)
  batch : ∀ k b, t.itembatch.get? k = some b → numeric 4 (t.posted rqstId form k) ≤ b.usableQty ∧
    t'.itembatch.get? k = some (b.committed (numeric 4 (t.posted rqstId form k)))
  keys : t'.itembatch.keys = t.itembatch.keys
  /-- The other packages pledge what they pledged. -/
  pledged : p.statusCode ≠ .dispatched → ∀ k, t'.rounded.pledged k = t.pledged k - t.held rqstId k

theorem pkgQty_rounded (t : Tables) (x : Nat) (k : BatchKey) : t.rounded.pkgQty x k = numeric 4 (t.pkgQty x k) :=
  readBack_pkgQty t x k

theorem stored_pkgQty (hc : t.Consistent) (x : Nat) (k : BatchKey) : numeric 4 (t.pkgQty x k) = t.pkgQty x k := by
  rw [← pkgQty_rounded, hc.stored]

/-- Once the package is dispatched, what is pledged is what the other packages pledged before. -/
theorem pledged_sent (hc : t.Consistent) (h : Processed ctx form vc r t t₁ new old p t₂ plans)
    (hopen : p.statusCode ≠ .dispatched) (hid : q.reliefpkgId = p.reliefpkgId) (hq : q.statusCode = .dispatched)
    (hp : t'.reliefpkg = t₁.reliefpkg.set q) (hi : t'.reliefpkgItem = t₁.readBack.reliefpkgItem) (k : BatchKey) :
    t'.rounded.pledged k = t.pledged k - t.held r.reliefrqstId k := by
  have hmem : p ∈ t₂.reliefpkg.rows := (mem_of_firstPkg (firstPkg_getOrCreatePkg h.pkg)).1
  have hqty : ∀ x, t'.rounded.pkgQty x k = numeric 4 (t₁.pkgQty x k) := fun x => by
    rw [pkgQty_rounded, Tables.pkgQty, hi, ← Tables.pkgQty, readBack_pkgQty, numeric_numeric]
  -- the package is out of the sum, the others take what they took
  have hset : t'.rounded.pledged k =
      t₂.reliefpkg.sum (fun q => q.statusCode ≠ .dispatched) (fun q => numeric 4 (t₁.pkgQty q.reliefpkgId k)) -
        numeric 4 (t₁.pkgQty p.reliefpkgId k) := by
    have hpkgs : t'.rounded.reliefpkg = t₂.reliefpkg.set q := hp.trans (by rw [h.reliefpkg_eq])
    have hkey : key q = key p := hid
    simp only [Tables.pledged, hqty, hpkgs]
    rw [Table.sum_set hmem hkey]
    simp [hq, hopen]
    ring
  have hold : t₂.reliefpkg.sum (fun q => q.statusCode ≠ .dispatched)
      (fun q => numeric 4 (t₁.pkgQty q.reliefpkgId k)) =
      t₂.reliefpkg.sum (fun q => q.statusCode ≠ .dispatched) (fun q => t.pkgQty q.reliefpkgId k) +
        (numeric 4 (t₁.pkgQty p.reliefpkgId k) - t.pkgQty p.reliefpkgId k) :=
    Table.sum_of_single hmem (by simpa using hopen) fun x _ hne => by
      rw [h.pkgQty_other (q := x.reliefpkgId) hne, stored_pkgQty hc]
  have hbefore : t₂.reliefpkg.sum (fun q => q.statusCode ≠ .dispatched) (fun q => t.pkgQty q.reliefpkgId k) =
      t.pledged k := by
    rw [← getOrCreatePkg_pledged hc h.pkg]
    have hrows : t₂.reliefpkgItem = t.reliefpkgItem := by rw [getOrCreatePkg_frame h.pkg]
    simp only [Tables.pledged, Tables.pkgQty, hrows]
  rw [hset, hold, hbefore, held_eq hc h]
  ring

/-- Taking nothing changes nothing. -/
theorem committed_zero {b : ItemBatch} (h : 0 ≤ b.reservedQty) : b.committed 0 = b := by
  simp [ItemBatch.committed, max_eq_right h]

/-- `commit_inventory` after a form was processed. -/
theorem sent_of_processed (hc : t.Consistent) (h : Processed ctx form vc r t t₁ new old p t₂ plans)
    (hid : q.reliefpkgId = p.reliefpkgId) (hr : q.reliefrqstId = p.reliefrqstId) (hq : q.statusCode = .dispatched)
    (hp : t₃.reliefpkg = t₁.reliefpkg.set q) (hi : t₃.reliefpkgItem = t₁.readBack.reliefpkgItem)
    (hb : t₃.itembatch = t₁.itembatch) (hcommit : commitInventory r.reliefrqstId t₃ = .ok t') :
    Sent t t' r.reliefrqstId form p := by
  obtain ⟨x, hx, hf, hpos, hzero, -⟩ := commitInventory_ok hcommit
  have hfirst : t₃.firstPkg r.reliefrqstId = some q := by
    have h₂ := firstPkg_setPkg h.firstPkg hid hr
    simp only [Tables.firstPkg, Tables.packages, Tables.setPkg, hp] at h₂ ⊢
    exact h₂
  cases Option.mem_unique hx hfirst
  have hrows : t'.reliefpkgItem = t₁.readBack.reliefpkgItem := by rw [hf]; exact hi
  have hpkgs : t'.reliefpkg = t₃.reliefpkg := by rw [hf]
  have hstored : ∀ k, t₁.readBack.pkgQty p.reliefpkgId k = numeric 4 (t.posted r.reliefrqstId form k) := fun k => by
    rw [readBack_pkgQty, h.posted_eq]
  have hqty₃ : ∀ k, t₃.pkgQty q.reliefpkgId k = numeric 4 (t.posted r.reliefrqstId form k) := fun k => by
    rw [← hstored, hid]
    simp only [Tables.pkgQty, hi]
  have hnn : ∀ k, 0 ≤ numeric 4 (t.posted r.reliefrqstId form k) := fun k => by
    refine numeric_nonneg ?_
    rw [← h.posted_eq k]
    by_contra hneg
    obtain ⟨i, hi', -, hiq⟩ := exists_of_pkgQty_ne_zero (ne_of_lt (not_le.1 hneg))
    rcases h.row_cases (mem_pkgItems.1 hi').1 with hm | ⟨a, ha, hae⟩
    · exact hneg (hiq ▸ hc.pkgItem i hm)
    · exact hneg (hiq ▸ hae ▸ h.qty_nonneg ha)
  refine
    { firstPkg := ⟨q, ?_, hid⟩
      posted := fun k => by simp only [Tables.pkgQty, hrows, ← hstored]
      nonneg := hnn
      batch := fun k b hk => ?_
      keys := ?_
      pledged := fun hopen k => pledged_sent hc h hopen hid hq (hpkgs.trans hp) hrows k }
  · simp only [Tables.firstPkg, Tables.packages, hpkgs]
    exact hfirst
  · by_cases hk0 : 0 < t₃.pkgQty q.reliefpkgId k
    · obtain ⟨b', hb', hle, hg⟩ := hpos k hk0
      rw [hb, h.itembatch_eq] at hb'
      cases Option.mem_unique hk hb'
      rw [hqty₃] at hle hg
      exact ⟨hle, hg⟩
    · have hg := hzero k hk0
      rw [hb, h.itembatch_eq, hk] at hg
      rw [hqty₃] at hk0
      have hz : numeric 4 (t.posted r.reliefrqstId form k) = 0 := le_antisymm (not_lt.1 hk0) (hnn k)
      obtain ⟨h1, ⟨-, h2⟩, -⟩ := hc.batch b (Table.mem_of_get? hk)
      rw [hz, committed_zero h2]
      exact ⟨h1, hg⟩
  · rw [← h.itembatch_eq, ← hb]
    simp only [commitInventory, bind_ok, pure_ok] at hcommit
    obtain ⟨_, _, _, hloop, _, _, rfl⟩ := hcommit
    exact Table.forRows_keys hloop

/-- The one-step dispatches, with the request and the form they are posted for. -/
def Op.oneStep : Op → Option (Nat × Form)
  | .preparePackage _ rqstId .sendForDispatch post | .approvePackage _ rqstId .approveAndDispatch post =>
    some (rqstId, post.form)
  | _ => none

theorem sent_of_route {op : Op} (hc : t.Consistent) (hop : op.oneStep = some (rqstId, form))
    (hone : (t.packages rqstId).length ≤ 1) (hopen : ∀ p ∈ t.packages rqstId, p.statusCode ≠ .dispatched)
    (h : op.route t = .ok t') : ∃ p, p.statusCode ≠ .dispatched ∧ Sent t t' rqstId form p := by
  cases op with
  | preparePackage ctx rid action post =>
    cases action with
    | saveDraft | submitForApproval => cases hop
    | sendForDispatch =>
      cases hop
      simp only [Op.route, preparePackage, sendForDispatch, bind_ok, require_ok, pure_ok] at h
      obtain ⟨r, hg, _, -, _, -, _, -, ⟨t₁, new, old⟩, hproc, q, hq, t₂, hcommit, rfl⟩ := h
      obtain ⟨-, -, -, rfl⟩ := prepareGate_ok hg
      obtain ⟨p, t₀, plans, hp⟩ := processAllocations_ok hproc
      cases Option.mem_unique hq hp.firstPkg
      have hs : Sent t t₂ r.reliefrqstId post.form q := by
        refine sent_of_processed (q := q.dispatch ctx) hc hp ?_ ?_ ?_ ?_ ?_ ?_ hcommit <;> rfl
      exact ⟨q, hp.undispatched hopen, ⟨hs.firstPkg, hs.posted, hs.nonneg, hs.batch, hs.keys, hs.pledged⟩⟩
  | approvePackage ctx rid action post =>
    cases action with
    | saveDraft => cases hop
    | approveAndDispatch =>
      cases hop
      simp only [Op.route, approvePackage, approveAndDispatch, bind_ok, pure_ok] at h
      obtain ⟨⟨r, q⟩, hg, _, -, _, -, ⟨t₁, new, old⟩, hproc, _, -, _, -, t₂, hcommit, rfl⟩ := h
      obtain ⟨rfl, hm, -⟩ := approveGate_mem hg
      obtain ⟨p, t₀, plans, hp⟩ := processAllocations_ok hproc
      -- the one package of the request is the first one
      have hqp : q = p := by
        have hfirst : t.firstPkg r.reliefrqstId = some q := by
          obtain ⟨x, hx⟩ := List.length_eq_one_iff.1 (le_antisymm hone (List.length_pos_of_mem hm))
          rw [hx, List.mem_singleton] at hm
          rw [Tables.firstPkg, hx, hm]
          rfl
        rcases getOrCreatePkg_cases hp.pkg with ⟨hf, -⟩ | ⟨hf, -⟩
        · exact Option.mem_unique hfirst hf
        · rw [hfirst] at hf
          cases hf
      subst hqp
      have hs : Sent t t₂ r.reliefrqstId post.form q := by
        refine sent_of_processed (q := q.dispatch ctx) hc hp ?_ ?_ ?_ ?_ ?_ ?_ hcommit <;> rfl
      exact ⟨q, hp.undispatched hopen, ⟨hs.firstPkg, hs.posted, hs.nonneg, hs.batch, hs.keys, hs.pledged⟩⟩
  | _ => cases hop

end

/-! ## The ledger afterwards -/

/-- What a one-step dispatch should do to the batches: the usable quantity drops by what the package takes now,
the reserved one by what it had reserved, and the reservations of the others are as they were. -/
structure DispatchedExactly (t t' : Tables) (rqstId : Nat) : Prop where
  usable : ∀ b ∈ t.itembatch.rows,
    (t'.itembatch.get? b.key).map ItemBatch.usableQty = some (b.usableQty - t'.held rqstId b.key)
  reserved : ∀ b ∈ t.itembatch.rows,
    (t'.itembatch.get? b.key).map ItemBatch.reservedQty = some (b.reservedQty - t.held rqstId b.key)
  ledger : ∀ b ∈ t'.itembatch.rows, b.reservedQty = t'.pledged b.key ∧ b.reservedQty ≤ b.usableQty

/-- What the form posts for the batch, in four decimals, is what the package had reserved, or nobody else reserves
anything in the batch and the form posts no less. -/
def NetsOut (t : Tables) (rqstId : Nat) (form : Form) (b : ItemBatch) : Prop :=
  numeric 4 (t.posted rqstId form b.key) = t.held rqstId b.key ∨
    (b.reservedQty = t.held rqstId b.key ∧ t.held rqstId b.key ≤ numeric 4 (t.posted rqstId form b.key))

/-- A balance reduced by `m`, but not below zero, against the same balance reduced by `o`. -/
theorem max_sub_eq_iff {a m o : ℚ} (ho : o ≤ a) : max 0 (a - m) = a - o ↔ m = o ∨ (a = o ∧ o ≤ m) := by
  constructor
  · intro h
    rcases le_total a m with ham | ham
    · rw [max_eq_left (sub_nonpos.2 ham)] at h
      exact .inr ⟨by linarith, by linarith⟩
    · rw [max_eq_right (sub_nonneg.2 ham)] at h
      exact .inl (by linarith)
  · rintro (rfl | ⟨rfl, hle⟩)
    · exact max_eq_right (sub_nonneg.2 ho)
    · rw [max_eq_left (sub_nonpos.2 hle), sub_self]

/-- **The one-step dispatches**: the ledger is exact afterwards exactly when the form nets out on every batch. -/
theorem one_step_dispatch (db : Database) (op : Op) (rqstId : Nat) (form : Form)
    (hop : op.oneStep = some (rqstId, form)) (hone : (db.tables.packages rqstId).length ≤ 1)
    (hopen : ∀ p ∈ db.tables.packages rqstId, p.statusCode ≠ .dispatched)
    (hl : ∀ b ∈ db.tables.itembatch.rows, b.reservedQty = db.tables.pledged b.key) (hcommit : Commits db op) :
    DispatchedExactly db.tables (step db op).tables rqstId ↔
      ∀ b ∈ db.tables.itembatch.rows, NetsOut db.tables rqstId form b := by
  have hc := db.consistent
  obtain ⟨t', ht', hc', he⟩ := step_of_commits hcommit
  obtain ⟨p, hpo, hs⟩ := sent_of_route hc hop hone hopen ht'
  have hheld : ∀ k, (step db op).tables.held rqstId k = numeric 4 (db.tables.posted rqstId form k) := fun k => by
    obtain ⟨q, hq, hid⟩ := hs.firstPkg
    have hq' : t'.rounded.firstPkg rqstId = some q := hq
    rw [he, Tables.held, hq', Option.map_some, Option.getD_some, pkgQty_rounded, hid, hs.posted, numeric_numeric]
  have hpledged : ∀ k, (step db op).tables.pledged k = db.tables.pledged k - db.tables.held rqstId k := fun k => by
    rw [he, hs.pledged hpo]
  have hbatch : ∀ b ∈ db.tables.itembatch.rows, (step db op).tables.itembatch.get? b.key =
      some (b.committed (numeric 4 (db.tables.posted rqstId form b.key))).rounded := fun b hb => by
    rw [he, rounded_itembatch, (hs.batch b.key b (Table.get?_key hb)).2, Option.map_some]
  have husable : ∀ b ∈ db.tables.itembatch.rows,
      ((step db op).tables.itembatch.get? b.key).map ItemBatch.usableQty =
        some (b.usableQty - (step db op).tables.held rqstId b.key) := fun b hb => by
    rw [hbatch b hb, hheld, Option.map_some, Option.some.injEq]
    exact (batch_atScale hc hb).1.sub (numeric_atScale 4 _)
  have hreserved : ∀ b ∈ db.tables.itembatch.rows,
      ((step db op).tables.itembatch.get? b.key).map ItemBatch.reservedQty =
        some (b.reservedQty - db.tables.held rqstId b.key) ↔ NetsOut db.tables rqstId form b := fun b hb => by
    have hle : db.tables.held rqstId b.key ≤ b.reservedQty := by
      have hnn : 0 ≤ (step db op).tables.pledged b.key := pledged_nonneg (step db op).consistent.pkgItem b.key
      rw [hpledged] at hnn
      rw [hl b hb]
      linarith
    -- four decimals are taken from four decimals, so the balance is stored as it is
    have hstored : AtScale 4 (max 0 (b.reservedQty - numeric 4 (db.tables.posted rqstId form b.key))) :=
      AtScale.zero.max ((batch_atScale hc hb).2.sub (numeric_atScale 4 _))
    rw [hbatch b hb, Option.map_some, Option.some.injEq, NetsOut, ← max_sub_eq_iff hle]
    exact Eq.congr hstored rfl
  constructor
  · intro h b hb
    exact (hreserved b hb).1 (h.reserved b hb)
  · intro h
    have hres := fun b hb => (hreserved b hb).2 (h b hb)
    refine ⟨husable, hres, fun b' hb' => ⟨?_, ?_⟩⟩
    · have hkey : b'.key ∈ db.tables.itembatch.keys := by
        rw [← hs.keys]
        obtain ⟨b₀, hb₀, hk⟩ := List.mem_map.1 (he ▸ hb')
        exact List.mem_map.2 ⟨b₀, hb₀, by rw [← hk]; rfl⟩
      obtain ⟨b, hb, hk⟩ := List.mem_map.1 hkey
      have hk : b.key = b'.key := hk
      have hr := hres b hb
      rw [hk, show (step db op).tables.itembatch.get? b'.key = some b' from Table.get?_key hb', Option.map_some,
        Option.some.injEq] at hr
      rw [hr, hpledged, hl b hb, hk]
    · exact ((step db op).consistent.batch b' hb').2.1.1

/-- Nobody has reserved anything, so the whole batch is there to be taken. -/
theorem one_step_dispatch_site :
    DispatchedExactly Site.db.tables
      (step Site.db (.preparePackage Site.manager 1 .sendForDispatch (Site.post 3 .absent 5))).tables 1 := by
  refine (one_step_dispatch Site.db _ 1 (Site.form 5) rfl (by decide +kernel) (by decide +kernel)
    (by decide +kernel) (by decide +kernel)).2 fun b hb => ?_
  cases List.mem_singleton.1 hb
  exact .inr (by decide +kernel)

/-- Five units are reserved for the second request. -/
def Site.promised : Database := step twoRequests (.preparePackage officer 2 .saveDraft (post 3 .absent 5))

/-- The manager sends five units for the first request, which had reserved none: the reservation of the second
one is gone. -/
theorem one_step_dispatch_steals :
    let op := Op.preparePackage Site.manager 1 .sendForDispatch (Site.post 3 .absent 5)
    (∀ b ∈ Site.promised.tables.itembatch.rows, b.reservedQty = Site.promised.tables.pledged b.key) ∧
    Commits Site.promised op ∧
    (step Site.promised op).tables.itembatch.rows = [{ Site.batch with usableQty := 5 }] ∧
    (step Site.promised op).tables.pledged ⟨1, 1, 1⟩ = 5 ∧
    ¬ DispatchedExactly Site.promised.tables (step Site.promised op).tables 1 := by
  refine ⟨by decide +kernel, by decide +kernel, by decide +kernel, by decide +kernel, fun h => ?_⟩
  exact absurd (h.reserved { Site.batch with reservedQty := 5 } (by decide +kernel)) (by decide +kernel)

end Dmis
