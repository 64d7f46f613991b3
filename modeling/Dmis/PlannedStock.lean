import Dmis.Releases

/-!
# What a plan takes

Workflow C with the manager's plan (`dispatch_service.py:192-429`). The officer's reservations are undone and the
plan's quantities taken out, in two loops over batches and two with a running total for each warehouse.
`workflowC_ok` says what is left, whatever the plan; over distinct batches it is the law of `workflowC_law`.

What is taken out is only compared with `usable_qty` (`:377-396`), where the posted quantity of a form is compared
with what the other packages leave (`batch_allocation_service.py:337-391`). A plan that fits what is usable goes
through, whatever of it is reserved: `plan_spares_others`.
-/

namespace Dmis

open Relational Keyed

/-! ## Plans -/

/-- What a plan takes from a batch. -/
def drawn (plan : List PlanEntry) (k : BatchKey) : ℚ :=
  Table.sumAt PlanEntry.batch PlanEntry.lmQty (plan.filter (0 < ·.lmQty)) k

/-- What a plan takes from a warehouse. -/
def drawnFrom (plan : List PlanEntry) (s : StockKey) : ℚ :=
  takenFrom PlanEntry.batch PlanEntry.lmQty (plan.filter (0 < ·.lmQty)) s

/-- `lm_qty` is taken out, and `lo_qty` no longer reserved. -/
def ItemBatch.netted (lm lo : ℚ) (b : ItemBatch) : ItemBatch :=
  { b with usableQty := b.usableQty - lm, reservedQty := b.reservedQty - lo }

def Inventory.netted (lm lo : ℚ) (v : Inventory) : Inventory :=
  { v with usableQty := v.usableQty - lm, reservedQty := v.reservedQty - lo }

/-- What Workflow C leaves behind. -/
structure PlanDispatched (ctx : Ctx) (t t' : Tables) (p : ReliefPkg) (r : ReliefRqst) (plan : List PlanEntry) :
    Prop where
  batchKeys : t'.itembatch.keys = t.itembatch.keys
  totalKeys : t'.inventory.keys = t.inventory.keys
  batch : ∀ k, t'.itembatch.get? k =
    (t.itembatch.get? k).map (ItemBatch.netted (drawn plan k) (t.pkgQty p.reliefpkgId k))
  total : ∀ s, t'.inventory.get? s = (t.inventory.get? s).map (Inventory.netted (drawnFrom plan s) (t.taken p s))
  usableSum : ∀ s, batchSum t'.itembatch s ItemBatch.usableQty =
    batchSum t.itembatch s ItemBatch.usableQty - drawnFrom plan s
  reservedSum : ∀ s, batchSum t'.itembatch s ItemBatch.reservedQty =
    batchSum t.itembatch s ItemBatch.reservedQty - t.taken p s
  rest : t' = { t with
    itembatch := t'.itembatch
    inventory := t'.inventory
    reliefpkgItem := (overwritePackageItems p.reliefpkgId plan t).reliefpkgItem
    reliefpkg := t.reliefpkg.set (p.dispatch ctx)
    reliefrqst := t.reliefrqst.set (r.actedOn ctx)
    reliefrqstItem := issueDispatched r plan t.reliefrqstItem }

/-- What the other undispatched packages take from a batch. -/
def Tables.heldByOthers (t : Tables) (pkgId : Nat) (k : BatchKey) : ℚ :=
  t.reliefpkg.sum (fun p => p.statusCode ≠ .dispatched ∧ p.reliefpkgId ≠ pkgId) fun p => t.pkgQty p.reliefpkgId k

/-- The plan takes from every batch no more than the other packages leave. -/
def PlanSufficient (t : Tables) (pkgId : Nat) (plan : List PlanEntry) : Prop :=
  ∀ b ∈ t.itembatch.rows, drawn plan b.key ≤ b.usableQty - t.heldByOthers pkgId b.key

/-- The plan takes from every batch no more than is usable. -/
def PlanFits (t : Tables) (plan : List PlanEntry) : Prop :=
  ∀ e ∈ plan, 0 < e.lmQty → ∀ b ∈ t.itembatch.get? e.batch, e.lmQty ≤ b.usableQty

/-- The batches and warehouses the call names exist. -/
structure PlanNamed (t : Tables) (pkgId : Nat) (plan : List PlanEntry) : Prop where
  rows : ∀ i ∈ t.positiveItems pkgId, t.inventory.get? i.batch.stock ≠ none
  batches : ∀ e ∈ plan, 0 < e.lmQty → t.itembatch.get? e.batch ≠ none
  totals : ∀ e ∈ plan, 0 < e.lmQty → t.inventory.get? e.batch.stock ≠ none

/-- The package is waiting, and the posted version is its own. -/
def CanDispatch (t : Tables) (pkgId : Nat) (version : ℤ) : Prop :=
  ∃ p ∈ t.reliefpkg.get? pkgId, p.versionNbr = version ∧ (p.statusCode = .pending ∨ p.statusCode = .verified)

/-- A call that goes through was given a sufficient plan and leaves every reservation covered, and an insufficient
plan is refused as such. -/
def SparesOthers (db : Database) (ctx : Ctx) (pkgId : Nat) (plan : List PlanEntry) (version : ℤ) : Prop :=
  (∀ t', workflowC ctx pkgId plan version db.tables = .ok t' → PlanSufficient db.tables pkgId plan ∧
    (∀ b ∈ t'.itembatch.rows, b.reservedQty ≤ b.usableQty) ∧ ∀ v ∈ t'.inventory.rows, v.reservedQty ≤ v.usableQty) ∧
  (CanDispatch db.tables pkgId version → PlanNamed db.tables pkgId plan → ¬ PlanSufficient db.tables pkgId plan →
    (∃ s need have', workflowC ctx pkgId plan version db.tables = .error (.insufficientInventory s need have')) ∧
    db.after (workflowC ctx pkgId plan version) = db)

section
variable {t t' t₁ : Tables} {ctx : Ctx} {p : ReliefPkg} {r : ReliefRqst} {plan : List PlanEntry} {pkgId : Nat}
  {version : ℤ} {k : BatchKey} {s : StockKey} {db : Database}

theorem drawn_atScale {n : ℕ} (h : ∀ e ∈ plan, AtScale n e.lmQty) (k : BatchKey) : AtScale n (drawn plan k) := by
  refine AtScale.sum fun q hq => ?_
  obtain ⟨e, he, rfl⟩ := List.mem_map.1 hq
  exact h e (positive_plan.1 (List.mem_filter.1 he).1).1

theorem drawnFrom_atScale {n : ℕ} (h : ∀ e ∈ plan, AtScale n e.lmQty) (s : StockKey) :
    AtScale n (drawnFrom plan s) := by
  refine AtScale.sum fun q hq => ?_
  obtain ⟨e, he, rfl⟩ := List.mem_map.1 hq
  exact h e (positive_plan.1 (List.mem_filter.1 he).1).1

/-! ## The loops -/

/-- What undoing the officer's reservations leaves. -/
theorem undoLoReservations_ok (hc : t.Consistent) (h : undoLoReservations (t.pkgItems p.reliefpkgId) t = .ok t₁) :
    t₁ = { t with itembatch := t₁.itembatch, inventory := t₁.inventory } ∧
    t₁.itembatch.keys = t.itembatch.keys ∧ t₁.inventory.keys = t.inventory.keys ∧
    (∀ k, t₁.itembatch.get? k = (t.itembatch.get? k).map (ItemBatch.netted 0 (t.pkgQty p.reliefpkgId k))) ∧
    (∀ s, t₁.inventory.get? s = (t.inventory.get? s).map (Inventory.netted 0 (t.taken p s))) ∧
    ∀ s, batchSum t₁.itembatch s ItemBatch.reservedQty =
      batchSum t.itembatch s ItemBatch.reservedQty - t.taken p s := by
  simp only [undoLoReservations, bind_ok, pure_ok] at h
  obtain ⟨b₁, hb₁, v₁, hv₁, rfl⟩ := h
  refine ⟨rfl, Table.forRows_keys hb₁, Table.forRows_keys hv₁, fun k => ?_, fun s => ?_,
    undoBatch_takes.sum BatchKey.stock hb₁⟩
  · have hget := undoBatch_takes.ok (x := t.pkgQty p.reliefpkgId) (nodup_positiveItems t p.reliefpkgId)
      (fun i hi => (pkgQty_of_mem (mem_positiveItems.1 hi).1).symm)
      (fun y hy => positive_qty hc (mt mem_map_positiveItems.2 hy)) hb₁ k
    refine hget.trans ?_
    cases t.itembatch.get? k with
    | none => rfl
    | some b => simp [ItemBatch.netted]
  · have hget := undoTotal_takes.ok (x := t.taken p)
      (nodup_inventoryTotals ReliefPkgItem.batch ReliefPkgItem.itemQty (t.positiveItems p.reliefpkgId))
      (fun e he => (mem_inventoryTotals.1 he).2) (fun y hy => taken_eq_zero (map_fst_inventoryTotals ▸ hy)) hv₁ s
    refine hget.trans ?_
    cases t.inventory.get? s with
    | none => rfl
    | some v => simp [Inventory.netted]

theorem undone_usable (hc : t.Consistent) (h : undoLoReservations (t.pkgItems p.reliefpkgId) t = .ok t₁)
    (s : StockKey) : batchSum t₁.itembatch s ItemBatch.usableQty = batchSum t.itembatch s ItemBatch.usableQty := by
  obtain ⟨-, hk, -, hb, -⟩ := undoLoReservations_ok hc h
  refine batchSum_congr hk (fun k r r' hr hr' => ?_) s
  rw [hb, hr, Option.map_some, Option.some.injEq] at hr'
  rw [← hr']
  exact sub_zero _

/-- What taking a plan out leaves; a batch may be named more than once. -/
theorem depleteUsableStock_ok (h : depleteUsableStock plan t = .ok t₁) :
    t₁ = { t with itembatch := t₁.itembatch, inventory := t₁.inventory } ∧
    t₁.itembatch.keys = t.itembatch.keys ∧ t₁.inventory.keys = t.inventory.keys ∧
    (∀ k, t₁.itembatch.get? k = (t.itembatch.get? k).map (ItemBatch.netted (drawn plan k) 0)) ∧
    (∀ s, t₁.inventory.get? s = (t.inventory.get? s).map (Inventory.netted (drawnFrom plan s) 0)) ∧
    ∀ s, batchSum t₁.itembatch s ItemBatch.usableQty =
      batchSum t.itembatch s ItemBatch.usableQty - drawnFrom plan s := by
  simp only [depleteUsableStock, bind_ok, pure_ok] at h
  obtain ⟨b₁, hb₁, v₁, hv₁, rfl⟩ := h
  refine ⟨rfl, Table.forRows_keys hb₁, Table.forRows_keys hv₁, fun k => ?_, fun s => ?_,
    depleteBatch_takes.sum BatchKey.stock hb₁⟩
  · have hget := depleteBatch_takes.accumulates (fun x y b => by simp [sub_sub]) hb₁ k
    refine hget.trans ?_
    cases t.itembatch.get? k with
    | none => rfl
    | some b => simp [ItemBatch.netted, drawn]
  · have hget := depleteTotal_takes.ok (x := drawnFrom plan) (nodup_inventoryTotals PlanEntry.batch PlanEntry.lmQty _)
      (fun e he => (mem_inventoryTotals.1 he).2) (fun y hy => takenFrom_eq_zero (map_fst_inventoryTotals ▸ hy)) hv₁ s
    refine hget.trans ?_
    cases t.inventory.get? s with
    | none => rfl
    | some v => simp [Inventory.netted]

/-- **What Workflow C leaves**, whatever the plan. -/
theorem workflowC_ok (hc : t.Consistent) (h : workflowC ctx pkgId plan version t = .ok t') :
    ∃ p r, t.reliefpkg.get? pkgId = some p ∧ p.versionNbr = version ∧
      (p.statusCode = .pending ∨ p.statusCode = .verified) ∧ t.reliefrqst.get? p.reliefrqstId = some r ∧
      PlanDispatched ctx t t' p r plan := by
  simp only [workflowC, bind_ok, require_ok, check_ok, pure_ok, exists_const] at h
  obtain ⟨p, hp, hv, -, hs, r, hr, t₁, hundo, t₂, hdep, rfl⟩ := h
  obtain rfl : p.reliefpkgId = pkgId := Table.key_of_get? hp
  obtain ⟨hf₁, hk₁, hi₁, hb₁, hv₁, hsum₁⟩ := undoLoReservations_ok hc hundo
  obtain ⟨hf₂, hk₂, hi₂, hb₂, hv₂, hsum₂⟩ := depleteUsableStock_ok hdep
  have hover : ∀ u : Tables, (overwritePackageItems p.reliefpkgId plan u).itembatch = u.itembatch ∧
      (overwritePackageItems p.reliefpkgId plan u).inventory = u.inventory := fun u => ⟨rfl, rfl⟩
  refine ⟨p, r, hp, hv, hs, hr, hk₂.trans hk₁, hi₂.trans hi₁, fun k => ?_, fun s => ?_, fun s => ?_, fun s => ?_, ?_⟩
  · refine (hb₂ k).trans ?_
    rw [(hover t₁).1, hb₁, Option.map_map]
    cases t.itembatch.get? k with
    | none => rfl
    | some b => simp [ItemBatch.netted]
  · refine (hv₂ s).trans ?_
    rw [(hover t₁).2, hv₁, Option.map_map]
    cases t.inventory.get? s with
    | none => rfl
    | some v => simp [Inventory.netted]
  · rw [← undone_usable hc hundo s]
    exact hsum₂ s
  · rw [← hsum₁]
    refine batchSum_congr hk₂ (fun k b b' hb hb' => ?_) s
    rw [hb₂, hb, Option.map_some, Option.some.injEq] at hb'
    rw [← hb']
    exact sub_zero _
  · rw [hf₂, hf₁]
    rfl

/-! ## Distinct batches -/

/-- `lm_qty` of a batch, `0` when the plan does not name it. -/
def lmQtyOf (plan : List PlanEntry) (k : BatchKey) : ℚ :=
  ((plan.find? fun e => e.batch = k).map PlanEntry.lmQty).getD 0

/-- Over distinct batches a plan takes what its one entry says. -/
theorem drawn_eq_lmQtyOf (hn : (plan.map PlanEntry.batch).Nodup) (hnn : ∀ e ∈ plan, 0 ≤ e.lmQty) (k : BatchKey) :
    drawn plan k = lmQtyOf plan k := by
  unfold drawn Table.sumAt lmQtyOf
  rw [List.filter_comm, filter_of_nodup_map hn]
  cases he : plan.find? fun e => e.batch = k with
  | none => rfl
  | some e =>
    have hq := hnn e (List.mem_of_find?_eq_some he)
    by_cases hpos : 0 < e.lmQty
    · simp [hpos]
    · simp [le_antisymm (not_lt.1 hpos) hq]

/-- The rows of an overwritten package: the last entry for a batch, and nothing of a batch the plan leaves out. -/
theorem overwritePackageItems_own (hc : ∀ i ∈ t.reliefpkgItem.rows, 0 ≤ i.itemQty) (pkgId : Nat)
    (plan : List PlanEntry) (k : BatchKey) :
    (overwritePackageItems pkgId plan t).reliefpkgItem.get? (pkgId, k) =
      ((plan.filter fun e => e.batch = k).getLast?).elim
        ((t.reliefpkgItem.get? (pkgId, k)).map fun i => { i with itemQty := 0 })
        fun e => some (planRow pkgId e) := by
  have hkey : (fun e : PlanEntry => decide (key (planRow pkgId e) = (pkgId, k))) = fun e => decide (e.batch = k) := by
    funext e
    have hiff : key (planRow pkgId e) = (pkgId, k) ↔ e.batch = k :=
      ⟨fun h => congrArg Prod.snd h, fun h => congrArg (Prod.mk pkgId) h⟩
    exact decide_eq_decide.2 hiff
  rw [overwritePackageItems, Table.get?_mapRows, Table.get?_foldl_upsert, hkey]
  cases he : (plan.filter fun e => e.batch = k).getLast? with
  | some e =>
    have hm := (List.mem_filter.1 (List.mem_of_getLast? he)).1
    rw [Option.elim_some, Option.elim_some, Option.map_some, if_neg]
    rintro ⟨-, hnot, -⟩
    exact hnot (List.mem_map_of_mem hm)
  | none =>
    rw [Option.elim_none, Option.elim_none]
    cases hg : t.reliefpkgItem.get? (pkgId, k) with
    | none => rfl
    | some i =>
      obtain ⟨hid, hbatch⟩ := Prod.ext_iff.1 (Table.key_of_get? hg)
      have hnot : i.batch ∉ plan.map PlanEntry.batch := fun hmem => by
        obtain ⟨e, hem, hek⟩ := List.mem_map.1 hmem
        have hnil := List.getLast?_eq_none_iff.1 he
        exact List.not_mem_nil (hnil ▸ List.mem_filter.2 ⟨hem, decide_eq_true (hek.trans hbatch)⟩)
      rw [Option.map_some, Option.map_some, Option.some.injEq]
      split_ifs with hz
      · rfl
      · have hzero : i.itemQty = 0 :=
          le_antisymm (not_lt.1 fun hpos => hz ⟨hid, hnot, hpos⟩) (hc i (Table.mem_of_get? hg))
        rw [← hzero]

/-- The dispatch of a plan over distinct batches. -/
structure LmDispatched (t t' : Tables) (pkgId : Nat) (plan : List PlanEntry) : Prop where
  batchKeys : t'.itembatch.keys = t.itembatch.keys
  batch : ∀ k, t'.itembatch.get? k = (t.itembatch.get? k).map fun b =>
    { b with usableQty := b.usableQty - lmQtyOf plan k, reservedQty := b.reservedQty - t.pkgQty pkgId k }
  total : ∀ s, t'.inventory.get? s = (t.inventory.get? s).map fun v =>
    { v with
      usableQty := batchSum t'.itembatch s ItemBatch.usableQty
      reservedQty := batchSum t'.itembatch s ItemBatch.reservedQty }
  planned : ∀ e ∈ plan, t'.reliefpkgItem.get? (pkgId, e.batch) = some (planRow pkgId e)
  dropped : ∀ k ∉ plan.map PlanEntry.batch, t'.reliefpkgItem.get? (pkgId, k) =
    (t.reliefpkgItem.get? (pkgId, k)).map fun i => { i with itemQty := 0 }
  otherRows : ∀ q k, q ≠ pkgId → t'.reliefpkgItem.get? (q, k) = t.reliefpkgItem.get? (q, k)
  otherPkgs : ∀ q, q ≠ pkgId → t'.reliefpkg.get? q = t.reliefpkg.get? q

theorem Ledger.usable (h : Ledger t) {v : Inventory} (hv : t.inventory.get? s = some v) :
    v.usableQty = batchSum t.itembatch s ItemBatch.usableQty := by
  have hk : v.key = s := Table.key_of_get? hv
  rw [h.usableTotal v (Table.mem_of_get? hv), hk]

theorem Ledger.reservedSum (h : Ledger t) {v : Inventory} (hv : t.inventory.get? s = some v) :
    v.reservedQty = batchSum t.itembatch s ItemBatch.reservedQty := by
  have hk : v.key = s := Table.key_of_get? hv
  rw [h.reservedTotal v (Table.mem_of_get? hv), hk]

/-- The totals follow the batches. -/
theorem PlanDispatched.sums (h : PlanDispatched ctx t t' p r plan) (hl : Ledger t) (s : StockKey) :
    t'.inventory.get? s = (t.inventory.get? s).map fun v =>
      { v with
        usableQty := batchSum t'.itembatch s ItemBatch.usableQty
        reservedQty := batchSum t'.itembatch s ItemBatch.reservedQty } := by
  rw [h.total, h.usableSum, h.reservedSum]
  cases hv : t.inventory.get? s with
  | none => rfl
  | some v =>
    rw [Option.map_some, Option.map_some, ← hl.usable hv, ← hl.reservedSum hv]
    rfl

theorem PlanDispatched.exact (h : PlanDispatched ctx t t' p r plan) (hl : Ledger t) (hc : t.Consistent)
    (hn : (plan.map PlanEntry.batch).Nodup) (hnn : ∀ e ∈ plan, 0 ≤ e.lmQty) :
    LmDispatched t t' p.reliefpkgId plan := by
  have hrows : t'.reliefpkgItem = (overwritePackageItems p.reliefpkgId plan t).reliefpkgItem := by rw [h.rest]
  have hpkgs : t'.reliefpkg = t.reliefpkg.set (p.dispatch ctx) := by rw [h.rest]
  refine
    { batchKeys := h.batchKeys
      batch := fun k => ?_
      total := h.sums hl
      planned := fun e he => ?_
      dropped := fun k hk => ?_
      otherRows := fun q k hq => ?_
      otherPkgs := fun q hq => ?_ }
  · rw [h.batch, drawn_eq_lmQtyOf hn hnn]
    rfl
  · have hone : plan.filter (fun e' => decide (e'.batch = e.batch)) = [e] := by
      rw [filter_of_nodup_map hn, find?_of_nodup_map hn he]
      rfl
    rw [hrows, overwritePackageItems_own hc.pkgItem, hone]
    rfl
  · rw [hrows, overwritePackageItems_own hc.pkgItem, filter_key_eq_nil hk]
    rfl
  · rw [hrows]
    exact overwritePackageItems_get? plan hq k
  · rw [hpkgs]
    exact Table.get?_set_of_ne fun he => hq he.symm

/-- A dispatched package is not dispatched again. -/
theorem workflowC_again (hp : t.reliefpkg.get? pkgId = some p) (hs : p.statusCode = .dispatched) :
    ∃ e, workflowC ctx pkgId plan version t = .error e := by
  cases h : workflowC ctx pkgId plan version t with
  | error e => exact ⟨e, rfl⟩
  | ok t' =>
    simp only [workflowC, bind_ok, require_ok, check_ok, exists_const] at h
    obtain ⟨q, hq, -, hne, -⟩ := h
    cases Option.mem_unique hp hq
    exact absurd hs hne

/-! ## The committed state -/

theorem mem_overwritePackageItems {i : ReliefPkgItem} (hi : i ∈ (overwritePackageItems pkgId plan t).reliefpkgItem.rows) :
    i ∈ t.reliefpkgItem.rows ∨ i.itemQty = 0 ∨ ∃ e ∈ plan, i = planRow pkgId e := by
  obtain ⟨j, hj, he⟩ := List.mem_map.1 hi
  have hcases : ∀ {plan : List PlanEntry} {rows : Table ReliefPkgItem},
      j ∈ (plan.foldl (fun rows e => rows.upsert (planRow pkgId e)) rows).rows →
      j ∈ rows.rows ∨ ∃ e ∈ plan, j = planRow pkgId e := by
    intro plan
    induction plan with
    | nil => exact fun h => .inl h
    | cons e plan ih =>
      intro rows h
      rcases ih h with h | ⟨e', he', hj⟩
      · rcases Table.mem_upsert h with rfl | h
        · exact .inr ⟨e, by simp, rfl⟩
        · exact .inl h
      · exact .inr ⟨e', by simp [he'], hj⟩
  split_ifs at he with hz
  · exact .inr (.inl (by rw [← he]))
  · subst he
    exact (hcases hj).imp_right .inr

/-- The batches and the rows of a plan in four decimals are written as they are. -/
theorem PlanDispatched.stored_stock (h : PlanDispatched ctx t t' p r plan) (hc : t.Consistent)
    (hd : ∀ e ∈ plan, AtScale 4 e.lmQty) :
    (∀ b ∈ t'.itembatch.rows, b.rounded = b) ∧ ∀ i ∈ t'.reliefpkgItem.rows, i.rounded = i := by
  have hrows : t'.reliefpkgItem = (overwritePackageItems p.reliefpkgId plan t).reliefpkgItem := by rw [h.rest]
  have hrow : ∀ i ∈ t.reliefpkgItem.rows, AtScale 4 i.itemQty := fun i hi =>
    congrArg ReliefPkgItem.itemQty (rounded_row hc hi)
  refine ⟨fun b hb => ?_, fun i hi => ?_⟩
  · obtain ⟨b₀, hb₀, he⟩ := Table.exists_of_map (k := b.key) h.batch hb rfl
    have hm := Table.mem_of_get? hb₀
    obtain ⟨hu, hr⟩ := batch_atScale hc hm
    rw [← he]
    exact rounded_batch_with hc hm (hu.sub (drawn_atScale hd b.key)) (hr.sub (pkgQty_atScale hrow p.reliefpkgId b.key))
  · rw [hrows] at hi
    rcases mem_overwritePackageItems hi with hi | hz | ⟨e, he, rfl⟩
    · exact rounded_row hc hi
    · simp only [ReliefPkgItem.rounded, hz, numeric_zero]
      rw [← hz]
    · have hq : numeric 4 e.lmQty = e.lmQty := hd e he
      simp only [ReliefPkgItem.rounded, planRow, hq]

theorem PlanDispatched.stored_tables (h : PlanDispatched ctx t t' p r plan) (hc : t.Consistent)
    (hd : ∀ e ∈ plan, AtScale 4 e.lmQty) :
    t'.rounded.itembatch = t'.itembatch ∧ t'.rounded.reliefpkgItem = t'.reliefpkgItem := by
  obtain ⟨hb, hr⟩ := h.stored_stock hc hd
  exact ⟨Table.ext ((List.map_congr_left hb).trans (List.map_id _)),
    Table.ext ((List.map_congr_left hr).trans (List.map_id _))⟩

/-- In two decimals the request's items are written as they are, too. -/
theorem PlanDispatched.stored (h : PlanDispatched ctx t t' p r plan) (hc : t.Consistent)
    (hd : ∀ e ∈ plan, AtScale 2 e.lmQty) :
    (∀ b ∈ t'.itembatch.rows, b.rounded = b) ∧ (∀ i ∈ t'.reliefrqstItem.rows, i.rounded = i) ∧
    ∀ i ∈ t'.reliefpkgItem.rows, i.rounded = i := by
  have hitems : t'.reliefrqstItem = issueDispatched r plan t.reliefrqstItem := by rw [h.rest]
  obtain ⟨hbatch, hrow⟩ := h.stored_stock hc fun e he => (hd e he).mono (by norm_num)
  refine ⟨hbatch, fun i hi => ?_, hrow⟩
  rw [hitems] at hi
  obtain ⟨i₀, hi₀, rfl⟩ := List.mem_map.1 hi
  have hst := rounded_rqstItem hc hi₀
  split_ifs with hz
  · have hq : AtScale 2 i₀.issueQty := congrArg ReliefRqstItem.issueQty hst
    have hr : numeric 2 i₀.requestQty = i₀.requestQty := congrArg ReliefRqstItem.requestQty hst
    have hsum : ∀ l : List PlanEntry, (∀ e ∈ l, e ∈ plan) →
        AtScale 2 (i₀.issueQty + (l.map PlanEntry.lmQty).sum) := fun l hl' =>
      hq.add (AtScale.sum fun q hq => by
        obtain ⟨e, he, rfl⟩ := List.mem_map.1 hq
        exact hd e (hl' e he))
    simp only [ReliefRqstItem.rounded, hr]
    rw [hsum _ fun e he => (List.mem_filter.1 (List.mem_filter.1 he).1).1]
  · exact hst

/-- From a ledger in two decimals the totals are too. -/
theorem PlanDispatched.rounded (h : PlanDispatched ctx t t' p r plan) (hl : Ledger t) (hc : t.Consistent)
    (hd : ∀ e ∈ plan, AtScale 2 e.lmQty) : t'.rounded = t' := by
  obtain ⟨hb, hi, hr⟩ := h.stored hc hd
  refine rounded_eq hb (fun v hv => ?_) hi hr
  obtain ⟨v₀, hv₀, he⟩ := Table.exists_of_map (k := v.key) h.total hv rfl
  have hm := Table.mem_of_get? hv₀
  obtain ⟨hu, hres⟩ := total_atScale hc hm
  have hrow : AtScale 2 (t.taken p v.key) := AtScale.sum fun q hq => by
    obtain ⟨i, hi, rfl⟩ := List.mem_map.1 hq
    exact hl.rowScale i (mem_pkgItems.1 (mem_positiveItems.1 (List.mem_filter.1 hi).1).1).1
  rw [← he]
  exact rounded_total_with hc hm (hu.sub (drawnFrom_atScale hd v.key)) (hres.sub hrow)

end

section
variable {t t' t₁ : Tables} {ctx : Ctx} {p : ReliefPkg} {r : ReliefRqst} {plan : List PlanEntry} {pkgId : Nat}
  {version : ℤ} {k : BatchKey} {s : StockKey} {db : Database}

/-! ## The other packages -/

/-- What is reserved on a batch is what the package has there, and what the others have. -/
theorem Ledger.reserved_split (hl : Ledger t) (hp : p ∈ t.reliefpkg.rows) (hs : p.statusCode ≠ .dispatched)
    {b : ItemBatch} (hb : b ∈ t.itembatch.rows) :
    b.reservedQty = t.heldByOthers p.reliefpkgId b.key + t.pkgQty p.reliefpkgId b.key := by
  rw [hl.reserved b hb]
  exact Table.sum_eq_rest_add hp (by simpa using hs) fun x => by simp [key]

theorem batchSum_le {b : Table ItemBatch} {col col' : ItemBatch → ℚ} (h : ∀ r ∈ b.rows, col r ≤ col' r)
    (s : StockKey) : batchSum b s col ≤ batchSum b s col' :=
  List.sum_le_sum fun r hr => h r (List.mem_filter.1 hr).1

/-- A sufficient plan leaves every reservation covered. -/
theorem PlanDispatched.covered (h : PlanDispatched ctx t t' p r plan) (hl : Ledger t) (hp : p ∈ t.reliefpkg.rows)
    (hs : p.statusCode ≠ .dispatched) (hsuf : PlanSufficient t p.reliefpkgId plan) :
    (∀ b ∈ t'.itembatch.rows, b.reservedQty ≤ b.usableQty) ∧ ∀ v ∈ t'.inventory.rows, v.reservedQty ≤ v.usableQty := by
  have hb : ∀ b ∈ t'.itembatch.rows, b.reservedQty ≤ b.usableQty := fun b hb => by
    obtain ⟨b₀, hb₀, he⟩ := Table.exists_of_map (k := b.key) h.batch hb rfl
    have hk : b₀.key = b.key := Table.key_of_get? hb₀
    have hm := Table.mem_of_get? hb₀
    have hle := hsuf b₀ hm
    have hsplit := hl.reserved_split hp hs hm
    have hres : b.reservedQty = b₀.reservedQty - t.pkgQty p.reliefpkgId b.key :=
      (congrArg ItemBatch.reservedQty he).symm
    have huse : b.usableQty = b₀.usableQty - drawn plan b.key := (congrArg ItemBatch.usableQty he).symm
    rw [hk] at hle hsplit
    rw [hres, huse]
    linarith
  refine ⟨hb, fun v hv => ?_⟩
  obtain ⟨v₀, -, he⟩ := Table.exists_of_map (k := v.key) (h.sums hl) hv rfl
  calc v.reservedQty = batchSum t'.itembatch v.key ItemBatch.reservedQty := (congrArg Inventory.reservedQty he).symm
    _ ≤ batchSum t'.itembatch v.key ItemBatch.usableQty := batchSum_le hb _
    _ = v.usableQty := congrArg Inventory.usableQty he

/-! ## When a call goes through -/

theorem nodup_positive (hn : (plan.map PlanEntry.batch).Nodup) :
    ((plan.filter (0 < ·.lmQty)).map PlanEntry.batch).Nodup :=
  hn.sublist (List.filter_sublist.map _)

/-- A plan that fits takes no more than is usable, batch by batch. -/
theorem PlanFits.drawn_le (h : PlanFits t plan) (hn : (plan.map PlanEntry.batch).Nodup) {b : ItemBatch}
    (hb : t.itembatch.get? k = some b) (h0 : 0 ≤ b.usableQty) : drawn plan k ≤ b.usableQty := by
  unfold drawn Table.sumAt
  rw [filter_of_nodup_map (nodup_positive hn)]
  cases he : (plan.filter (0 < ·.lmQty)).find? fun e => e.batch = k with
  | none => exact h0
  | some e =>
    obtain ⟨hm, hpos⟩ := positive_plan.1 (List.mem_of_find?_eq_some he)
    have hk : e.batch = k := by simpa using List.find?_some he
    simpa using h e hm hpos b (hk ▸ hb)

/-- Up to the depletion the call goes through. -/
theorem workflowC_eq (hl : Ledger t) (hc : t.Consistent) (hcan : CanDispatch t pkgId version)
    (hrows : ∀ i ∈ t.positiveItems pkgId, t.inventory.get? i.batch.stock ≠ none) (ctx : Ctx) (plan : List PlanEntry) :
    ∃ p r t₁, undoLoReservations (t.pkgItems pkgId) t = .ok t₁ ∧ p.reliefpkgId = pkgId ∧
      workflowC ctx pkgId plan version t =
        (depleteUsableStock plan (overwritePackageItems pkgId plan t₁) >>= fun t₂ =>
          pure (updateDispatchRecords ctx p r plan t₂)) := by
  obtain ⟨p, hp, hv, hs⟩ := hcan
  have hp : t.reliefpkg.get? pkgId = some p := hp
  have hm := Table.mem_of_get? hp
  obtain rfl : p.reliefpkgId = pkgId := Table.key_of_get? hp
  have hne : p.statusCode ≠ .dispatched := by rcases hs with hs | hs <;> rw [hs] <;> decide
  obtain ⟨r, hr⟩ : ∃ r, t.reliefrqst.get? p.reliefrqstId = some r := by
    refine Option.ne_none_iff_exists'.1 fun hnone => ?_
    exact Table.get?_eq_none.1 hnone (hc.fkPkg p hm)
  obtain ⟨t₁, hundo, -⟩ := Undoable.undo ⟨hl, hc, hm, hne, hrows⟩
  refine ⟨p, r, t₁, hundo, rfl, ?_⟩
  simp [workflowC, require, check, hp, hv, hne, hs, hr, hundo, bind, Except.bind]

/-- A plan that fits is taken out. -/
theorem depleteUsableStock_runs (hl : Ledger t) (hc : t.Consistent) (hn : (plan.map PlanEntry.batch).Nodup)
    (hnamed : PlanNamed t p.reliefpkgId plan) (hfits : PlanFits t plan)
    (hundo : undoLoReservations (t.pkgItems p.reliefpkgId) t = .ok t₁) :
    ∃ t₂, depleteUsableStock plan (overwritePackageItems p.reliefpkgId plan t₁) = .ok t₂ := by
  obtain ⟨-, -, -, hb₁, hv₁, -⟩ := undoLoReservations_ok hc hundo
  obtain ⟨b₂, hb₂⟩ := Table.forRows_ok depleteBatch_takes.writesOwn (nodup_positive hn) (t := t₁.itembatch)
    fun e he => by
      obtain ⟨hm, hpos⟩ := positive_plan.1 he
      obtain ⟨b, hb⟩ := Option.ne_none_iff_exists'.1 (hnamed.batches e hm hpos)
      refine ⟨_, (depleteBatch_takes.ok_iff e _ _).2 ⟨b.netted 0 (t.pkgQty p.reliefpkgId e.batch), ?_, ?_, rfl⟩⟩
      · rw [hb₁, hb, Option.map_some]
      · exact (hfits e hm hpos b hb).trans (sub_zero b.usableQty).ge
  have hnn : ∀ s, 0 ≤ batchSum b₂ s ItemBatch.usableQty := batchSum_nonneg fun b hb => by
    have hget := depleteBatch_takes.accumulates (fun x y b => by simp [sub_sub]) hb₂ b.key
    rw [show b₂.get? b.key = some b from Table.get?_key hb, hb₁, Option.map_map] at hget
    obtain ⟨b₀, hb₀, he⟩ := Option.map_eq_some_iff.1 hget.symm
    have hle := hfits.drawn_le hn hb₀ (hc.batch b₀ (Table.mem_of_get? hb₀)).1
    have huse : b.usableQty = b₀.usableQty - 0 - drawn plan b.key := (congrArg ItemBatch.usableQty he).symm
    rw [huse]
    linarith
  have hsum : ∀ s, batchSum b₂ s ItemBatch.usableQty = batchSum t.itembatch s ItemBatch.usableQty - drawnFrom plan s :=
    fun s => by
      rw [← undone_usable hc hundo s]
      exact depleteBatch_takes.sum BatchKey.stock hb₂ s
  obtain ⟨v₂, hv₂⟩ := Table.forRows_ok depleteTotal_takes.writesOwn
    (nodup_inventoryTotals PlanEntry.batch PlanEntry.lmQty (plan.filter (0 < ·.lmQty))) (t := t₁.inventory)
    fun e he => by
      obtain ⟨⟨a, ha, hs⟩, hq⟩ := mem_inventoryTotals.1 he
      obtain ⟨hm, hpos⟩ := positive_plan.1 ha
      obtain ⟨v, hv⟩ := Option.ne_none_iff_exists'.1 (hnamed.totals a hm hpos)
      rw [hs] at hv
      refine ⟨_, (depleteTotal_takes.ok_iff e _ _).2 ⟨_, by rw [hv₁, hv, Option.map_some], ?_, rfl⟩⟩
      have hle := hnn e.1
      rw [hsum] at hle
      have huse : (v.netted 0 (t.taken p e.1)).usableQty = v.usableQty := sub_zero _
      rw [hq, huse, hl.usable hv]
      exact sub_nonneg.1 hle
  refine ⟨{ overwritePackageItems p.reliefpkgId plan t₁ with itembatch := b₂, inventory := v₂ }, ?_⟩
  simp only [depleteUsableStock, bind_ok, pure_ok]
  exact ⟨b₂, hb₂, v₂, hv₂, rfl⟩

/-- A plan that does not fit is refused. -/
theorem depleteUsableStock_refuses (hc : t.Consistent) (hn : (plan.map PlanEntry.batch).Nodup)
    (hnamed : PlanNamed t p.reliefpkgId plan) (hfits : ¬ PlanFits t plan)
    (hundo : undoLoReservations (t.pkgItems p.reliefpkgId) t = .ok t₁) :
    ∃ s need have', depleteUsableStock plan (overwritePackageItems p.reliefpkgId plan t₁) =
      .error (.insufficientInventory s need have') := by
  obtain ⟨-, -, -, hb₁, -, -⟩ := undoLoReservations_ok hc hundo
  cases hb₂ : Table.forRows PlanEntry.batch depleteBatch (plan.filter (0 < ·.lmQty)) t₁.itembatch with
  | ok b₂ =>
    refine absurd (fun e hm hpos b hb => ?_) hfits
    obtain ⟨b', hb', hle⟩ := depleteBatch_takes.fits (nodup_positive hn) hb₂ e (positive_plan.2 ⟨hm, hpos⟩)
    rw [hb₁, Option.mem_def.1 hb, Option.map_some, Option.some.injEq] at hb'
    rw [← hb'] at hle
    exact hle.trans (sub_zero b.usableQty).le
  | error err =>
    obtain ⟨e, he, herr⟩ := Table.forRows_error depleteBatch_takes.writesOwn (nodup_positive hn) hb₂
    obtain ⟨hm, hpos⟩ := positive_plan.1 he
    obtain ⟨b, hb⟩ := Option.ne_none_iff_exists'.1 (hnamed.batches e hm hpos)
    rw [hb₁, hb, Option.map_some] at herr
    simp only [depleteBatch] at herr
    split_ifs at herr with hlt
    cases herr
    refine ⟨e.batch.stock, e.lmQty, (b.netted 0 (t.pkgQty p.reliefpkgId e.batch)).usableQty, ?_⟩
    have hsame : (overwritePackageItems p.reliefpkgId plan t₁).itembatch = t₁.itembatch := rfl
    simp only [depleteUsableStock, hsame, hb₂, bind, Except.bind]

/-- A call that went through named what exists, and took no more of a batch than was usable. -/
theorem named_of_ok (hc : t.Consistent) (hn : (plan.map PlanEntry.batch).Nodup)
    (h : workflowC ctx pkgId plan version t = .ok t') :
    CanDispatch t pkgId version ∧ PlanNamed t pkgId plan ∧ PlanFits t plan := by
  simp only [workflowC, bind_ok, require_ok, check_ok, pure_ok, exists_const] at h
  obtain ⟨p, hp, hv, -, hs, r, -, t₁, hundo, t₂, hdep, -⟩ := h
  obtain rfl : p.reliefpkgId = pkgId := Table.key_of_get? hp
  obtain ⟨-, -, -, hb₁, hv₁, -⟩ := undoLoReservations_ok hc hundo
  simp only [depleteUsableStock, bind_ok, pure_ok] at hdep
  obtain ⟨b₂, hb₂, v₂, hv₂, -⟩ := hdep
  simp only [undoLoReservations, bind_ok, pure_ok] at hundo
  obtain ⟨b, hb, v, hvs, he⟩ := hundo
  have hbatch : ∀ e ∈ plan, 0 < e.lmQty → ∃ b, t.itembatch.get? e.batch = some b ∧ e.lmQty ≤ b.usableQty := by
    intro e hm hpos
    obtain ⟨b', hb', hle⟩ := depleteBatch_takes.fits (nodup_positive hn) hb₂ e (positive_plan.2 ⟨hm, hpos⟩)
    have hb' : t₁.itembatch.get? e.batch = some b' := hb'
    rw [hb₁, Option.map_eq_some_iff] at hb'
    obtain ⟨b₀, hb₀, rfl⟩ := hb'
    exact ⟨b₀, hb₀, hle.trans (sub_zero b₀.usableQty).le⟩
  refine ⟨⟨p, hp, hv, hs⟩, ⟨fun i hi => ?_, fun e hm hpos => ?_, fun e hm hpos => ?_⟩, fun e hm hpos b hb => ?_⟩
  · have hmem : i.batch.stock ∈ (inventoryTotals ReliefPkgItem.batch ReliefPkgItem.itemQty
        (t.positiveItems p.reliefpkgId)).map Prod.fst := by
      rw [map_fst_inventoryTotals, mem_affectedInventory]
      exact ⟨i.batch, List.mem_map_of_mem hi, rfl⟩
    obtain ⟨x, hx, hk⟩ := List.mem_map.1 hmem
    obtain ⟨w, hw⟩ := undoTotal_takes.found hvs x hx
    exact hk ▸ hw ▸ Option.some_ne_none w
  · obtain ⟨b, hb, -⟩ := hbatch e hm hpos
    exact hb ▸ Option.some_ne_none b
  · have hmem : e.batch.stock ∈ (inventoryTotals PlanEntry.batch PlanEntry.lmQty
        (plan.filter (0 < ·.lmQty))).map Prod.fst := by
      rw [map_fst_inventoryTotals, mem_affectedInventory]
      exact ⟨e.batch, List.mem_map_of_mem (positive_plan.2 ⟨hm, hpos⟩), rfl⟩
    obtain ⟨x, hx, hk⟩ := List.mem_map.1 hmem
    obtain ⟨w, hw⟩ := depleteTotal_takes.found hv₂ x hx
    have hw : t₁.inventory.get? x.1 = some w := hw
    rw [hk, hv₁, Option.map_eq_some_iff] at hw
    obtain ⟨w₀, hw₀, -⟩ := hw
    exact hw₀ ▸ Option.some_ne_none w₀
  · obtain ⟨b', hb', hle⟩ := hbatch e hm hpos
    cases Option.mem_unique hb hb'
    exact hle

end

/-- **A plan spares the other packages exactly when a plan that fits what is usable fits what they leave.** -/
theorem plan_spares_others (db : Database) (hl : Ledger db.tables) (ctx : Ctx) (pkgId : Nat) (plan : List PlanEntry)
    (version : ℤ) (hn : (plan.map PlanEntry.batch).Nodup) :
    SparesOthers db ctx pkgId plan version ↔
      (CanDispatch db.tables pkgId version → PlanNamed db.tables pkgId plan → PlanFits db.tables plan →
        PlanSufficient db.tables pkgId plan) := by
  have hc := db.consistent
  constructor
  · intro h hcan hnamed hfits
    obtain ⟨p, r, t₁, hundo, rfl, heq⟩ := workflowC_eq hl hc hcan hnamed.rows ctx plan
    obtain ⟨t₂, hdep⟩ := depleteUsableStock_runs hl hc hn hnamed hfits hundo
    have hok : workflowC ctx p.reliefpkgId plan version db.tables = .ok (updateDispatchRecords ctx p r plan t₂) := by
      rw [heq, hdep]
      rfl
    exact (h.1 _ hok).1
  · refine fun h => ⟨fun t' ht' => ?_, fun hcan hnamed hsuf => ?_⟩
    · obtain ⟨hcan, hnamed, hfits⟩ := named_of_ok hc hn ht'
      have hsuf := h hcan hnamed hfits
      obtain ⟨p, r, hp, -, hs, -, hd⟩ := workflowC_ok hc ht'
      obtain rfl : p.reliefpkgId = pkgId := Table.key_of_get? hp
      have hne : p.statusCode ≠ .dispatched := by rcases hs with hs | hs <;> rw [hs] <;> decide
      exact ⟨hsuf, hd.covered hl (Table.mem_of_get? hp) hne hsuf⟩
    · obtain ⟨p, r, t₁, hundo, rfl, heq⟩ := workflowC_eq hl hc hcan hnamed.rows ctx plan
      obtain ⟨s, need, have', hdep⟩ :=
        depleteUsableStock_refuses hc hn hnamed (fun hfits => hsuf (h hcan hnamed hfits)) hundo
      have herr : workflowC ctx p.reliefpkgId plan version db.tables =
          .error (.insufficientInventory s need have') := by
        rw [heq, hdep]
        rfl
      refine ⟨⟨s, need, have', herr⟩, ?_⟩
      simp only [Database.after, Database.exec, herr, bind, Except.bind]

theorem Site.twoDrafts_ledger : Ledger twoDrafts.tables :=
  ⟨by decide +kernel, by decide +kernel, by decide +kernel, by decide +kernel, by decide +kernel, by decide +kernel⟩

/-- Two units are reserved for the package and five for another; five are left for the plan, and it takes three. -/
theorem plan_spares_others_site : SparesOthers Site.twoDrafts Site.manager 1 [⟨1, 1, 1, 3, "EA"⟩] 1 :=
  (plan_spares_others Site.twoDrafts Site.twoDrafts_ledger Site.manager 1 [⟨1, 1, 1, 3, "EA"⟩] 1 (by decide)).2
    fun _ _ _ => by
      unfold PlanSufficient
      decide +kernel

/-- It takes eight of the ten. Two are left, and five stay reserved. -/
theorem plan_takes_reserved :
    Ledger Site.twoDrafts.tables ∧ ¬ SparesOthers Site.twoDrafts Site.manager 1 [⟨1, 1, 1, 8, "EA"⟩] 1 ∧
    ((workflowC Site.manager 1 [⟨1, 1, 1, 8, "EA"⟩] 1 Site.twoDrafts.tables).toOption.map fun t => t.itembatch.rows) =
      some [{ Site.batch with usableQty := 2, reservedQty := 5 }] := by
  refine ⟨Site.twoDrafts_ledger, fun h => ?_, by decide +kernel⟩
  have hok : (workflowC Site.manager 1 [⟨1, 1, 1, 8, "EA"⟩] 1 Site.twoDrafts.tables).isOk = true := by decide +kernel
  cases ht : workflowC Site.manager 1 [⟨1, 1, 1, 8, "EA"⟩] 1 Site.twoDrafts.tables with
  | error e =>
    rw [ht] at hok
    cases hok
  | ok t' =>
    have hsuf : PlanSufficient Site.twoDrafts.tables 1 [⟨1, 1, 1, 8, "EA"⟩] := (h.1 t' ht).1
    revert hsuf
    unfold PlanSufficient
    decide +kernel

/-- **The ledger law of Workflow C**: every batch loses the plan's quantity and the officer's reservation, the totals
stay the sums of their batches, the rows are the plan's, and nothing else of stock or packages changes. In two
decimals that is what is committed. -/
theorem workflowC_law (db : Database) (hl : Ledger db.tables) (ctx : Ctx) (pkgId : Nat) (plan : List PlanEntry)
    (version : ℤ) (hn : (plan.map PlanEntry.batch).Nodup) (hnn : ∀ e ∈ plan, 0 ≤ e.lmQty) (t' : Tables)
    (h : workflowC ctx pkgId plan version db.tables = .ok t') :
    LmDispatched db.tables t' pkgId plan ∧
    (∀ u : Tables, u.reliefpkg = t'.reliefpkg → ∀ ctx' plan' version',
      ∃ e, workflowC ctx' pkgId plan' version' u = .error e) ∧
    ((∀ e ∈ plan, AtScale 2 e.lmQty) → t'.rounded = t') := by
  obtain ⟨p, r, hp, -, -, -, hd⟩ := workflowC_ok db.consistent h
  obtain rfl : p.reliefpkgId = pkgId := Table.key_of_get? hp
  refine ⟨hd.exact hl db.consistent hn hnn, fun u hu ctx' plan' version' => ?_, hd.rounded hl db.consistent⟩
  have hsent : u.reliefpkg.get? p.reliefpkgId = some (p.dispatch ctx) := by
    rw [hu, hd.rest]
    exact Table.get?_set_of_get? hp rfl
  exact workflowC_again hsent rfl

/-- The draft of two units is dispatched as three. -/
theorem workflowC_law_site :
    ∃ t', workflowC Site.manager 1 [⟨1, 1, 1, 3, "EA"⟩] 1 Site.drafted.tables = .ok t' ∧
      LmDispatched Site.drafted.tables t' 1 [⟨1, 1, 1, 3, "EA"⟩] ∧ t'.rounded = t' := by
  have hl : Ledger Site.drafted.tables :=
    step_ledger Site.ledger ⟨Site.form_exact (by decide +kernel), by decide +kernel⟩
  have hok : (workflowC Site.manager 1 [⟨1, 1, 1, 3, "EA"⟩] 1 Site.drafted.tables).isOk = true := by decide +kernel
  cases h : workflowC Site.manager 1 [⟨1, 1, 1, 3, "EA"⟩] 1 Site.drafted.tables with
  | error e =>
    rw [h] at hok
    cases hok
  | ok t' =>
    obtain ⟨hd, -, hr⟩ := workflowC_law Site.drafted hl Site.manager 1 [⟨1, 1, 1, 3, "EA"⟩] 1 (by decide)
      (by decide +kernel) t' h
    exact ⟨t', rfl, hd, hr (by decide +kernel)⟩

end Dmis
