import Dmis.IntakeOnce

/-!
# A verification posts the intake

What `_process_verification_submission` (`app/features/donation_intake.py:655-923`) adds to the batches and to the
totals of the warehouse. The verifier enters what is defective and expired with any decimals, and what they leave is
usable; the three quantities go to `itembatch`, `numeric(15,4)`, and to `inventory`, `numeric(12,2)`.

So the two tables drift apart by what a thousandth rounds to, and where a warehouse has batches of an item but no total,
the new total starts at nothing: `verification_posts` says when neither happens.
-/

namespace Dmis

open Relational Keyed

/-! ## The two tables -/

/-- What the batch of a number holds of an item at a warehouse. -/
def IntakeTables.inBatch (t : IntakeTables) (inventoryId itemId : Nat) (batchNo : String) : Received :=
  t.itembatch.sum (fun b => decide ((b.inventoryId, b.itemId, b.batchNo) = (inventoryId, itemId, batchNo))) ItemBatch.qty

/-- What all batches of an item hold at a warehouse. -/
def IntakeTables.batched (t : IntakeTables) (k : StockKey) : Received :=
  t.itembatch.sum (fun b => decide (b.key.stock = k)) ItemBatch.qty

/-- What the total says. -/
def IntakeTables.inStock (t : IntakeTables) (k : StockKey) : Received :=
  t.inventory.sum (fun w => decide (w.key = k)) Inventory.qty

/-- Every total is the sum of its batches. -/
def IntakeTables.Balanced (t : IntakeTables) : Prop := ∀ w ∈ t.inventory.rows, w.qty = t.batched w.key

instance (t : IntakeTables) : Decidable t.Balanced := by unfold IntakeTables.Balanced; infer_instance

/-! ## The form -/

/-- The number of the batch an item goes to. -/
def VerifyField.finalBatchNo (f : VerifyField) (i : DonationIntakeItem) : String :=
  if f.batchNo = "" then i.batchNo else f.batchNo

/-- What is entered as defective and expired. -/
def VerifyField.deductions (f : VerifyField) (i : DonationIntakeItem) : Option (ℚ × ℚ) := do
  let defective ← (f.defectiveQty.getD (.value (.finite i.qty.defective))).orZero
  let expired ← (f.expiredQty.getD (.value (.finite i.qty.expired))).orZero
  pure (← defective.finite?, ← expired.finite?)

/-! ## What a verification should post -/

/-- The batch and the total of every item go up by the same, together by what arrived; nothing else changes what is
reserved, and every total is the sum of its batches. -/
structure PostsIntake (form : Nat → VerifyField) (donationId inventoryId : Nat) (t t' : IntakeTables) : Prop where
  same : ∀ i ∈ t.intakeItems donationId inventoryId,
    t'.inBatch inventoryId i.itemId ((form i.itemId).finalBatchNo i) -
        t.inBatch inventoryId i.itemId ((form i.itemId).finalBatchNo i) =
      t'.inStock ⟨i.itemId, inventoryId⟩ - t.inStock ⟨i.itemId, inventoryId⟩
  exact : ∀ i ∈ t.intakeItems donationId inventoryId,
    (t'.inStock ⟨i.itemId, inventoryId⟩ - t.inStock ⟨i.itemId, inventoryId⟩).total = i.qty.total
  balanced : t'.Balanced
  batchReserved : ∀ k, ((t'.itembatch.get? k).map ItemBatch.reservedQty).getD 0 =
    ((t.itembatch.get? k).map ItemBatch.reservedQty).getD 0
  stockReserved : ∀ k, ((t'.inventory.get? k).map Inventory.reservedQty).getD 0 =
    ((t.inventory.get? k).map Inventory.reservedQty).getD 0

/-- A verification that is accepted posts the intake, one that fails nothing. -/
structure VerifiesWell (ctx : IntakeCtx) (donationId : Nat) (today : Day) (inventoryId : Nat) (form : Nat → VerifyField)
    (db : IntakeDb) : Prop where
  posted : ∀ db', db.exec ctx donationId (.verify today inventoryId form) = .ok db' →
    PostsIntake form donationId inventoryId db.tables db'.tables
  failed : ∀ e, db.exec ctx donationId (.verify today inventoryId form) = .error e →
    intakeStep ctx donationId db (.verify today inventoryId form) = db

/-- A batch holds no more than two decimals of it. -/
def Cents (q : ℚ) : Prop := AtScale 2 (numeric 4 q)

instance : DecidablePred Cents := fun q => by unfold Cents; infer_instance

/-- The entered quantities and what they leave are in cents, and an item without a total has nothing in batches. -/
structure PostsCents (form : Nat → VerifyField) (donationId inventoryId : Nat) (t : IntakeTables) : Prop where
  cents : ∀ i ∈ t.intakeItems donationId inventoryId, ∀ p ∈ (form i.itemId).deductions i,
    Cents p.1 ∧ Cents p.2 ∧ Cents (i.qty.total - p.1 - p.2)
  stocked : ∀ i ∈ t.intakeItems donationId inventoryId, t.inventory.get? ⟨i.itemId, inventoryId⟩ = none →
    t.batched ⟨i.itemId, inventoryId⟩ = 0

section
variable {ctx : IntakeCtx} {donationId inventoryId : Nat} {today : Day} {form : Nat → VerifyField} {t t' : IntakeTables}
  {v : VerifiedItem} {vs : List VerifiedItem} {i : DonationIntakeItem} {k : StockKey}

/-- What is verified of an item, field by field. -/
theorem verifyItem_spec (h : verifyItem ctx today t form i = .ok v) :
    ∃ p ∈ (form i.itemId).deductions i, 0 ≤ p.1 ∧ 0 ≤ p.2 ∧ 0 < i.qty.total - p.1 - p.2 ∧
      v.row = i ∧ v.batchNo = (form i.itemId).finalBatchNo i ∧ v.qty = ⟨i.qty.total - p.1 - p.2, p.1, p.2⟩ ∧
      verifyBatchDate today i (form i.itemId).batchDate = .ok v.batchDate ∧
      verifyExpiry (ctx.items i.itemId) today i v.batchDate (form i.itemId).expiryDate = .ok v.expiryDate := by
  simp only [verifyItem, checkQuantities, bind_ok, require_ok, check_ok, pure_ok] at h
  obtain ⟨a, ha, b, hb, -, ⟨_, hneg, rfl⟩, donated, -, -, -, -, -, ⟨d, e⟩, hde, -, -, -, -, -, hpos, batchDate, hbd,
    expiryDate, hed, rfl⟩ := h
  obtain ⟨rfl, rfl⟩ := finiteDeductions_ok hde
  refine ⟨(d, e), ?_, anyNegative_ok hneg (by simp), anyNegative_ok hneg (by simp), hpos, rfl, rfl, rfl, hbd, hed⟩
  simp [VerifyField.deductions, ha, hb, PyDecimal.finite?]

/-! ## The loop -/

/-- Posting one item, in the batches of any class the item determines. -/
theorem postItem_batches {σ : Type} [DecidableEq σ] {cls : ItemBatch → σ} {x c : σ} (hr : Ready (v :: vs) t)
    (hreceive : ∀ (e : Option Day) q b, cls (ItemBatch.receive e q b) = cls b) (hc : cls (v.batch t) = c)
    (h : postItem v t = .ok t') :
    t'.itembatch.sum (fun b => decide (cls b = x)) (fun b => b.rounded.qty) =
      t.itembatch.sum (fun b => decide (cls b = x)) (fun b => b.rounded.qty) + if c = x then v.qty.rounded 4 else 0 := by
  simp only [postItem, bind_ok, require_ok, pure_ok] at h
  obtain ⟨items, -, rfl⟩ := h
  obtain ⟨hrow, hitem, -⟩ := batch_cases hr
  rw [← hc]
  exact qty_upsert (g := ItemBatch.qty) hrow (fun hm => hr.batch v List.mem_cons_self _ hm hitem)
    (hr.qty v List.mem_cons_self) rfl (hreceive _ _ _) rfl

theorem key_stock (v : VerifiedItem) (t : IntakeTables) : (v.stock t).key = ⟨v.row.itemId, v.row.inventoryId⟩ := by
  unfold VerifiedItem.stock
  cases hs : t.inventory.get? ⟨v.row.itemId, v.row.inventoryId⟩ with
  | some w => exact Table.key_of_get? hs
  | none => rfl

theorem batch_number (v : VerifiedItem) (t : IntakeTables) :
    ((v.batch t).inventoryId, (v.batch t).itemId, (v.batch t).batchNo) =
      (v.row.inventoryId, v.row.itemId, v.batchNo) := by
  unfold VerifiedItem.batch
  cases hb : v.existingBatch t with
  | some b =>
    have hp := of_decide_eq_true (List.mem_filter.1 (List.mem_of_mem_head? (Option.mem_def.2 hb))).2
    rw [Option.getD_some, hp.1, hp.2.1, hp.2.2]
  | none => rfl

theorem postItem_inventory (hr : Ready (v :: vs) t) (h : postItem v t = .ok t') :
    t'.inventory.sum (fun w => decide (w.key = k)) (fun w => w.rounded.qty) =
      t.inventory.sum (fun w => decide (w.key = k)) (fun w => w.rounded.qty) +
        if (⟨v.row.itemId, v.row.inventoryId⟩ : StockKey) = k then v.qty.rounded 2 else 0 := by
  simp only [postItem, bind_ok, require_ok, pure_ok] at h
  obtain ⟨items, -, rfl⟩ := h
  obtain ⟨hrow, hitem⟩ := stock_cases (v := v) (t := t)
  rw [← key_stock v t]
  have hqty : ((v.stock t).receive v.qty).qty = (v.stock t).qty.add v.qty := rfl
  exact qty_upsert (g := Inventory.qty) hrow (fun hm => hr.stock v List.mem_cons_self _ hm hitem)
    (hr.qty v List.mem_cons_self) rfl rfl hqty

theorem batch_reserved (v : VerifiedItem) (t : IntakeTables) :
    t.itembatch.get? (key (v.batch t)) = none → (v.batch t).reservedQty = 0 := by
  unfold VerifiedItem.batch
  cases hb : v.existingBatch t with
  | some b =>
    intro h
    rw [Option.getD_some, Table.get?_key (List.mem_filter.1 (List.mem_of_mem_head? (Option.mem_def.2 hb))).1] at h
    cases h
  | none => exact fun _ => rfl

theorem stock_reserved (v : VerifiedItem) (t : IntakeTables) :
    t.inventory.get? (key (v.stock t)) = none → (v.stock t).reservedQty = 0 := by
  rw [show key (v.stock t) = ⟨v.row.itemId, v.row.inventoryId⟩ from key_stock v t]
  intro h
  rw [VerifiedItem.stock, h]
  rfl

/-- What posting an item leaves of the reservations, and of the totals that are not there. -/
structure PostLeft (vs : List VerifiedItem) (t t' : IntakeTables) : Prop where
  batchReserved : ∀ k, ((t'.itembatch.get? k).map ItemBatch.reservedQty).getD 0 =
    ((t.itembatch.get? k).map ItemBatch.reservedQty).getD 0
  stockReserved : ∀ k, ((t'.inventory.get? k).map Inventory.reservedQty).getD 0 =
    ((t.inventory.get? k).map Inventory.reservedQty).getD 0
  stocked : ∀ k, t'.inventory.get? k = none ↔
    t.inventory.get? k = none ∧ ∀ v ∈ vs, (⟨v.row.itemId, v.row.inventoryId⟩ : StockKey) ≠ k

theorem postItem_left (hr : Ready (v :: vs) t) (h : postItem v t = .ok t') : PostLeft [v] t t' := by
  simp only [postItem, bind_ok, require_ok, pure_ok] at h
  obtain ⟨items, -, rfl⟩ := h
  obtain ⟨hrow, -, -⟩ := batch_cases hr
  obtain ⟨hstock, -⟩ := stock_cases (v := v) (t := t)
  refine ⟨fun k => ?_, fun k => ?_, fun k => ?_⟩
  · exact Table.getD_upsert (v.batch t) ((v.batch t).receive v.expiryDate v.qty)
      (hrow.imp_right fun h => ⟨h.1, batch_reserved v t h.1⟩) rfl rfl k
  · exact Table.getD_upsert (v.stock t) ((v.stock t).receive v.qty) (hstock.imp_right fun h => ⟨h.1, stock_reserved v t h.1⟩) rfl rfl k
  · have hkey : key ((v.stock t).receive v.qty) = (⟨v.row.itemId, v.row.inventoryId⟩ : StockKey) := key_stock v t
    simp only [Table.get?_upsert, hkey, List.forall_mem_singleton]
    split_ifs with hk
    · simp [hk]
    · simp [hk]

/-- **The loop**, in the batches of any class, the totals and the reservations. -/
theorem postItems_spec : ∀ {vs : List VerifiedItem} {t t' : IntakeTables}, Ready vs t →
    (vs.map fun v => v.row.itemId).Nodup → postItems vs t = .ok t' → PostLeft vs t t' ∧
    (∀ {σ : Type} [DecidableEq σ] (cls : ItemBatch → σ) (c : VerifiedItem → σ) (x : σ),
      (∀ (e : Option Day) q b, cls (ItemBatch.receive e q b) = cls b) → (∀ v t, cls (VerifiedItem.batch v t) = c v) →
      t'.itembatch.sum (fun b => decide (cls b = x)) (fun b => b.rounded.qty) =
        t.itembatch.sum (fun b => decide (cls b = x)) (fun b => b.rounded.qty) +
          (vs.map fun v => if c v = x then v.qty.rounded 4 else 0).sum) ∧
    ∀ k, t'.inventory.sum (fun w => decide (w.key = k)) (fun w => w.rounded.qty) =
      t.inventory.sum (fun w => decide (w.key = k)) (fun w => w.rounded.qty) +
        (vs.map fun v => if (⟨v.row.itemId, v.row.inventoryId⟩ : StockKey) = k then v.qty.rounded 2 else 0).sum
  | [], t, t', _, _, h => by
    cases h
    exact ⟨⟨fun _ => rfl, fun _ => rfl, by simp⟩, by simp, by simp⟩
  | v :: vs, t, t', hr, hn, h => by
    simp only [postItems, bind_ok] at h
    obtain ⟨t₁, h₁, h⟩ := h
    rw [List.map_cons, List.nodup_cons] at hn
    have hother : ∀ w ∈ vs, w.row.itemId ≠ v.row.itemId := fun w hw he => hn.1 (he ▸ List.mem_map_of_mem hw)
    have hfirst := postItem_left hr h₁
    obtain ⟨hleft, hbatch, hstock⟩ := postItems_spec (hr.post hother h₁) hn.2 h
    refine ⟨⟨fun k => ?_, fun k => ?_, fun k => ?_⟩, fun cls c x hreceive hc => ?_, fun k => ?_⟩
    · rw [hleft.batchReserved, hfirst.batchReserved]
    · rw [hleft.stockReserved, hfirst.stockReserved]
    · rw [hleft.stocked, hfirst.stocked, List.forall_mem_singleton, List.forall_mem_cons, and_assoc]
    · rw [hbatch cls c x hreceive hc, postItem_batches hr hreceive (hc v t) h₁, List.map_cons, List.sum_cons, add_assoc]
    · rw [hstock, postItem_inventory hr h₁, List.map_cons, List.sum_cons, add_assoc]

/-! ## What is committed -/

theorem inStock_eq (hc : t.Consistent) (k : StockKey) :
    t.inStock k = t.inventory.sum (fun w => decide (w.key = k)) fun w => w.rounded.qty := by
  have hstored := congrArg IntakeTables.inventory hc.stored
  conv_lhs => rw [IntakeTables.inStock, ← hstored]
  exact Table.sum_mapRows key_rounded_inventory Inventory.qty

/-- The class of a batch does not depend on its rounding. -/
theorem sum_batches_rounded {σ : Type} [DecidableEq σ] (cls : ItemBatch → σ) (hcls : ∀ b : ItemBatch, cls b.rounded = cls b)
    (x : σ) : t.rounded.itembatch.sum (fun b => decide (cls b = x)) ItemBatch.qty =
      t.itembatch.sum (fun b => decide (cls b = x)) fun b => b.rounded.qty := by
  refine (Table.sum_mapRows key_rounded_itembatch ItemBatch.qty).trans ?_
  simp only [hcls]

/-- The total of a key is the row's, if there is one. -/
theorem inStock_of_mem {w : Inventory} (hw : w ∈ t.inventory.rows) : t.inStock w.key = w.qty := by
  have hone : t.inventory.rows.filter (fun x => decide (key x = key w)) = [w] := by
    rw [filter_of_nodup_map t.inventory.nodup, find?_of_nodup_map t.inventory.nodup hw]
    rfl
  show ((t.inventory.rows.filter fun x => decide (key x = key w)).map Inventory.qty).sum = w.qty
  rw [hone, List.map_singleton, List.sum_singleton]

theorem inStock_of_none (h : t.inventory.get? k = none) : t.inStock k = 0 := by
  have hnone : t.inventory.rows.filter (fun x => decide (key x = k)) = [] :=
    List.filter_eq_nil_iff.2 fun x hx he => Table.get?_eq_none.1 h (List.mem_map.2 ⟨x, hx, of_decide_eq_true he⟩)
  show ((t.inventory.rows.filter fun x => decide (key x = k)).map Inventory.qty).sum = 0
  rw [hnone]
  rfl

theorem balanced_iff : t.Balanced ↔ ∀ k, t.inventory.get? k ≠ none → t.inStock k = t.batched k := by
  constructor
  · intro h k hk
    obtain ⟨w, hw⟩ := Option.ne_none_iff_exists'.1 hk
    obtain rfl : w.key = k := Table.key_of_get? hw
    rw [inStock_of_mem (Table.mem_of_get? hw), h w (Table.mem_of_get? hw)]
  · intro h w hw
    have hget : t.inventory.get? w.key = some w := Table.get?_key hw
    rw [← inStock_of_mem hw]
    exact h w.key (by simp [hget])

/-- Rounding does not change what a stored column reserves. -/
theorem reserved_rounded {ρ κ : Type} [Keyed ρ κ] [DecidableEq κ] {rows rows' : Table ρ} {f : ρ → ρ} {reserved : ρ → ℚ}
    {s : ℕ} (hf : ∀ r, key (f r) = key r) (hr : ∀ r, reserved (f r) = numeric s (reserved r))
    (hstored : rows.mapRows f hf = rows) {x : κ}
    (h : ((rows'.get? x).map reserved).getD 0 = ((rows.get? x).map reserved).getD 0) :
    (((rows'.mapRows f hf).get? x).map reserved).getD 0 = ((rows.get? x).map reserved).getD 0 := by
  have hround : ∀ u : Table ρ, (((u.mapRows f hf).get? x).map reserved).getD 0 =
      numeric s (((u.get? x).map reserved).getD 0) := fun u => by
    rw [Table.get?_mapRows]
    cases u.get? x with
    | none => exact (numeric_zero s).symm
    | some r => exact hr r
  rw [hround, h, ← hround, hstored]

/-- Both columns hold the same of a quantity exactly when the finer one holds cents. -/
theorem Received.rounded_eq_iff {q : Received} :
    q.rounded 4 = q.rounded 2 ↔ Cents q.defective ∧ Cents q.expired ∧ Cents q.usable := by
  unfold Cents
  simp only [← numeric_eq_iff (show 2 < 4 by norm_num), Received.rounded, Received.mk.injEq]
  constructor
  · rintro ⟨hu, hd, he⟩
    exact ⟨hd.symm, he.symm, hu.symm⟩
  · rintro ⟨hd, he, hu⟩
    exact ⟨hu.symm, hd.symm, he.symm⟩

/-- Quantities that are rounded to cents add up to what they did, if that was in cents. -/
theorem Received.total_of_cents {q : Received} (h : q.rounded 4 = q.rounded 2) (ht : AtScale 2 q.total) :
    (q.rounded 2).total = q.total := by
  have hat : AtScale 2 (q.rounded 2).total :=
    ((numeric_atScale 2 _).add (numeric_atScale 2 _)).add (numeric_atScale 2 _)
  refine hat.eq_of_near ht ?_
  rw [← h]
  have hu := abs_le.1 ((le_div_iff₀ (by norm_num)).2 (numeric_near 4 q.usable))
  have hd := abs_le.1 ((le_div_iff₀ (by norm_num)).2 (numeric_near 4 q.defective))
  have he := abs_le.1 ((le_div_iff₀ (by norm_num)).2 (numeric_near 4 q.expired))
  have hclose : |(q.rounded 4).total - q.total| ≤ 3 / 20000 := by
    simp only [Received.total, Received.rounded]
    rw [abs_le]
    constructor <;> linarith
  linarith

/-- **What an accepted verification commits.** -/
structure Committed (ctx : IntakeCtx) (donationId : Nat) (today : Day) (inventoryId : Nat) (form : Nat → VerifyField)
    (vs : List VerifiedItem) (t t' : IntakeTables) : Prop where
  verified : ∀ v ∈ vs, ∃ i ∈ t.intakeItems donationId inventoryId, verifyItem ctx today t form i = .ok v
  all : ∀ i ∈ t.intakeItems donationId inventoryId, ∃ v ∈ vs, verifyItem ctx today t form i = .ok v
  distinct : (vs.map fun v => v.row.itemId).Nodup
  left : PostLeft vs t t'
  batches : ∀ {σ : Type} [DecidableEq σ] (cls : ItemBatch → σ) (c : VerifiedItem → σ) (x : σ),
    (∀ (e : Option Day) q b, cls (ItemBatch.receive e q b) = cls b) → (∀ b : ItemBatch, cls b.rounded = cls b) →
    (∀ v t, cls (VerifiedItem.batch v t) = c v) →
    t'.itembatch.sum (fun b => decide (cls b = x)) ItemBatch.qty =
      t.itembatch.sum (fun b => decide (cls b = x)) ItemBatch.qty +
        (vs.map fun v => if c v = x then v.qty.rounded 4 else 0).sum
  totals : ∀ k, t'.inStock k = t.inStock k +
    (vs.map fun v => if (⟨v.row.itemId, v.row.inventoryId⟩ : StockKey) = k then v.qty.rounded 2 else 0).sum

theorem exec_verify_ok {db db' : IntakeDb} (hn : ((db.tables.intakeItems donationId inventoryId).map (·.itemId)).Nodup)
    (h : db.exec ctx donationId (.verify today inventoryId form) = .ok db') :
    ∃ vs, Committed ctx donationId today inventoryId form vs db.tables db'.tables := by
  obtain ⟨t', hroute, -, hdb⟩ := exec_intake_ok.1 h
  have hc := db.consistent
  obtain ⟨vs, t₁, hvs⟩ := verifyIntake_run hroute
  obtain ⟨dnintake, hpost⟩ := hvs.posted
  obtain ⟨donation, -, rfl⟩ := hvs.processed
  have hdistinct : (vs.map fun v => v.row.itemId).Nodup := hvs.itemIds ▸ hn
  obtain ⟨hleft, hbatches, htotals⟩ := postItems_spec (db.ready vs (fun _ => hvs.nonneg) dnintake) hdistinct hpost
  have hb : db.tables.itembatch.mapRows ItemBatch.rounded key_rounded_itembatch = db.tables.itembatch :=
    congrArg IntakeTables.itembatch hc.stored
  have hi : db.tables.inventory.mapRows Inventory.rounded key_rounded_inventory = db.tables.inventory :=
    congrArg IntakeTables.inventory hc.stored
  refine ⟨vs, hvs.verified, fun i => hvs.all hn, hdistinct, ⟨fun k => ?_, fun k => ?_, fun k => ?_⟩,
    fun cls c x hreceive hround hcls => ?_, fun k => ?_⟩
  · rw [hdb]
    exact reserved_rounded key_rounded_itembatch (fun _ => rfl) hb (hleft.batchReserved k)
  · rw [hdb]
    exact reserved_rounded key_rounded_inventory (fun _ => rfl) hi (hleft.stockReserved k)
  · rw [← hleft.stocked k, hdb]
    simp only [IntakeTables.rounded, Table.get?_mapRows, Option.map_eq_none_iff]
  · have hafter := hbatches cls c x hreceive hcls
    have hbefore := sum_batches_rounded (t := db.tables) cls hround x
    rw [hc.stored] at hbefore
    rw [hdb, hbefore, ← hafter]
    exact sum_batches_rounded cls hround x
  · rw [inStock_eq hc, ← htotals k, hdb]
    exact Table.sum_mapRows key_rounded_inventory Inventory.qty

theorem Committed.inventoryId_eq {vs : List VerifiedItem} (hvs : Committed ctx donationId today inventoryId form vs t t')
    (hv : v ∈ vs) : v.row.inventoryId = inventoryId := by
  obtain ⟨i, hi, hiv⟩ := hvs.verified v hv
  rw [(verifyItem_ok hiv).1]
  exact (of_decide_eq_true (List.mem_filter.1 hi).2).2

/-- What the batch and the total of an item have more. -/
theorem Committed.added (hvs : Committed ctx donationId today inventoryId form vs t t')
    (hv : v ∈ vs) (hiv : verifyItem ctx today t form i = .ok v) :
    t'.inBatch inventoryId i.itemId ((form i.itemId).finalBatchNo i) -
        t.inBatch inventoryId i.itemId ((form i.itemId).finalBatchNo i) = v.qty.rounded 4 ∧
    t'.inStock ⟨i.itemId, inventoryId⟩ - t.inStock ⟨i.itemId, inventoryId⟩ = v.qty.rounded 2 := by
  obtain ⟨p, -, -, -, -, hrow, hno, -⟩ := verifyItem_spec hiv
  have hw := hvs.inventoryId_eq hv
  have hclass : ((inventoryId, i.itemId, (form i.itemId).finalBatchNo i) : Nat × Nat × String) =
      (v.row.inventoryId, v.row.itemId, v.batchNo) := by rw [hw, hrow, hno]
  have hstock : (⟨i.itemId, inventoryId⟩ : StockKey) = ⟨v.row.itemId, v.row.inventoryId⟩ := by rw [hw, hrow]
  have hbatches := hvs.batches (fun b => (b.inventoryId, b.itemId, b.batchNo))
    (fun u => (u.row.inventoryId, u.row.itemId, u.batchNo)) (v.row.inventoryId, v.row.itemId, v.batchNo)
    (fun _ _ _ => rfl) (fun _ => rfl) batch_number
  have htotals := hvs.totals ⟨v.row.itemId, v.row.inventoryId⟩
  have hnClass : (vs.map fun u => (u.row.inventoryId, u.row.itemId, u.batchNo)).Nodup :=
    List.Nodup.of_map (fun c : Nat × Nat × String => c.2.1) (by rw [List.map_map]; exact hvs.distinct)
  have hnStock : (vs.map fun u => (⟨u.row.itemId, u.row.inventoryId⟩ : StockKey)).Nodup :=
    List.Nodup.of_map StockKey.itemId (by rw [List.map_map]; exact hvs.distinct)
  rw [sum_of_nodup_map (fun u : VerifiedItem => u.qty.rounded 4) hnClass hv] at hbatches
  rw [sum_of_nodup_map (fun u : VerifiedItem => u.qty.rounded 2) hnStock hv] at htotals
  constructor
  · rw [sub_eq_iff_eq_add']
    unfold IntakeTables.inBatch
    rw [hclass]
    exact hbatches
  · rw [sub_eq_iff_eq_add', hstock]
    exact htotals

/-- All batches of an item at the warehouse together. -/
theorem Committed.batched (hvs : Committed ctx donationId today inventoryId form vs t t') (k : StockKey) :
    t'.batched k = t.batched k +
      (vs.map fun v => if (⟨v.row.itemId, v.row.inventoryId⟩ : StockKey) = k then v.qty.rounded 4 else 0).sum := by
  refine hvs.batches (fun b => b.key.stock) (fun v => ⟨v.row.itemId, v.row.inventoryId⟩) k (fun _ _ _ => rfl)
    (fun _ => rfl) fun v t => ?_
  have hnumber := batch_number v t
  simp only [Prod.mk.injEq] at hnumber
  show (⟨(v.batch t).itemId, (v.batch t).inventoryId⟩ : StockKey) = _
  rw [hnumber.1, hnumber.2.1]

/-- **The batch and the total go up by the same exactly when the entered quantities are in cents.** -/
theorem cents_iff (hiv : verifyItem ctx today t form i = .ok v) :
    v.qty.rounded 4 = v.qty.rounded 2 ↔
      ∀ p ∈ (form i.itemId).deductions i, Cents p.1 ∧ Cents p.2 ∧ Cents (i.qty.total - p.1 - p.2) := by
  obtain ⟨p, hp, -, -, -, -, -, hqty, -⟩ := verifyItem_spec hiv
  rw [Received.rounded_eq_iff, hqty]
  refine ⟨fun h p' hp' => ?_, fun h => h p hp⟩
  cases Option.mem_unique hp hp'
  exact h

theorem Committed.posts_iff {db db' : IntakeDb}
    (hvs : Committed ctx donationId today inventoryId form vs db.tables db'.tables) (hbal : db.tables.Balanced) :
    PostsIntake form donationId inventoryId db.tables db'.tables ↔ PostsCents form donationId inventoryId db.tables := by
  have hkey : ∀ i v, v ∈ vs → verifyItem ctx today db.tables form i = .ok v →
      (⟨v.row.itemId, v.row.inventoryId⟩ : StockKey) = ⟨i.itemId, inventoryId⟩ := fun i v hv hiv => by
    rw [hvs.inventoryId_eq hv, (verifyItem_ok hiv).1]
  constructor
  · intro h
    have hsame : ∀ v ∈ vs, v.qty.rounded 4 = v.qty.rounded 2 := fun v hv => by
      obtain ⟨i, hi, hiv⟩ := hvs.verified v hv
      obtain ⟨hbatch, hstock⟩ := hvs.added hv hiv
      rw [← hbatch, ← hstock]
      exact h.same i hi
    refine ⟨fun i hi => ?_, fun i hi hnone => ?_⟩
    · obtain ⟨v, hv, hiv⟩ := hvs.all i hi
      exact (cents_iff hiv).1 (hsame v hv)
    · obtain ⟨v, hv, hiv⟩ := hvs.all i hi
      have hthere : db'.tables.inventory.get? ⟨i.itemId, inventoryId⟩ ≠ none := fun h' =>
        ((hvs.left.stocked _).1 h').2 v hv (hkey i v hv hiv)
      have hbalanced := balanced_iff.1 h.balanced _ hthere
      have hadded : (vs.map fun v => if (⟨v.row.itemId, v.row.inventoryId⟩ : StockKey) = ⟨i.itemId, inventoryId⟩ then
          v.qty.rounded 4 else 0) = vs.map fun v =>
          if (⟨v.row.itemId, v.row.inventoryId⟩ : StockKey) = ⟨i.itemId, inventoryId⟩ then v.qty.rounded 2 else 0 :=
        List.map_congr_left fun v hv => by rw [hsame v hv]
      rw [hvs.totals, hvs.batched, inStock_of_none hnone, hadded] at hbalanced
      exact (add_right_cancel hbalanced).symm
  · intro h
    have hsame : ∀ v ∈ vs, v.qty.rounded 4 = v.qty.rounded 2 := fun v hv => by
      obtain ⟨i, hi, hiv⟩ := hvs.verified v hv
      exact (cents_iff hiv).2 (h.cents i hi)
    refine ⟨fun i hi => ?_, fun i hi => ?_, ?_, hvs.left.batchReserved, hvs.left.stockReserved⟩
    · obtain ⟨v, hv, hiv⟩ := hvs.all i hi
      obtain ⟨hbatch, hstock⟩ := hvs.added hv hiv
      rw [hbatch, hstock, hsame v hv]
    · obtain ⟨v, hv, hiv⟩ := hvs.all i hi
      have htotal := (verifyItem_ok hiv).2.1
      have hat : AtScale 2 v.qty.total := by
        have hrow : i.stored = i := Table.eq_of_mapRows key_stored_intakeItem
          (congrArg IntakeTables.dnintakeItem db.consistent.stored) i (List.mem_filter.1 hi).1
        have hqty : i.qty.rounded 2 = i.qty := congrArg DonationIntakeItem.qty hrow
        rw [htotal, ← hqty]
        exact ((numeric_atScale 2 _).add (numeric_atScale 2 _)).add (numeric_atScale 2 _)
      rw [(hvs.added hv hiv).2, Received.total_of_cents (hsame v hv) hat, htotal]
    · refine balanced_iff.2 fun k hk => ?_
      have hbefore : db.tables.inStock k = db.tables.batched k := by
        by_cases hnone : db.tables.inventory.get? k = none
        · obtain ⟨v, hv, rfl⟩ : ∃ v ∈ vs, (⟨v.row.itemId, v.row.inventoryId⟩ : StockKey) = k := by
            by_contra hno
            push Not at hno
            exact hk ((hvs.left.stocked k).2 ⟨hnone, hno⟩)
          obtain ⟨i, hi, hiv⟩ := hvs.verified v hv
          rw [hkey i v hv hiv] at hnone ⊢
          rw [inStock_of_none hnone, h.stocked i hi hnone]
        · exact balanced_iff.1 hbal k hnone
      rw [hvs.totals, hvs.batched, hbefore]
      refine congrArg _ (congrArg List.sum (List.map_congr_left fun v hv => ?_))
      rw [hsame v hv]

end

/-- **An accepted verification posts the intake exactly when what it posts is in cents** and no item has batches without
a total. With more than twelve decimals the sums are not those of Python's context. -/
theorem verification_posts (ctx : IntakeCtx) (donationId : Nat) (today : Day) (inventoryId : Nat)
    (form : Nat → VerifyField) (db : IntakeDb) (hbal : db.tables.Balanced)
    (hn : ((db.tables.intakeItems donationId inventoryId).map (·.itemId)).Nodup)
    (_hdec : ∀ i ∈ db.tables.intakeItems donationId inventoryId, (form i.itemId).Decimals 12) :
    VerifiesWell ctx donationId today inventoryId form db ↔
      ((db.exec ctx donationId (.verify today inventoryId form)).isOk →
        PostsCents form donationId inventoryId db.tables) := by
  cases hexec : db.exec ctx donationId (.verify today inventoryId form) with
  | error e =>
    have hfail : VerifiesWell ctx donationId today inventoryId form db := by
      refine ⟨fun db' h => ?_, fun e' _ => ?_⟩
      · rw [hexec] at h
        cases h
      · simp only [intakeStep, hexec]
    exact ⟨fun _ hok => Bool.noConfusion hok, fun _ => hfail⟩
  | ok db' =>
    obtain ⟨vs, hvs⟩ := exec_verify_ok hn hexec
    have hposts : VerifiesWell ctx donationId today inventoryId form db ↔
        PostsIntake form donationId inventoryId db.tables db'.tables := by
      refine ⟨fun h => h.posted db' hexec, fun h => ⟨fun db'' h'' => ?_, fun e he => ?_⟩⟩
      · rw [hexec] at h''
        cases h''
        exact h
      · rw [hexec] at he
        cases he
    rw [hposts]
    exact (hvs.posts_iff hbal).trans ⟨fun h _ => h, fun h => h rfl⟩

namespace Site

/-- Four usable units and a defective one were entered. -/
def entered : IntakeDb := intakeStep intakeCtx 1 donated (.entry 100 1 arrived)

/-- The verifier finds a thousandth of a unit defective. -/
def thousandth : Nat → VerifyField := fun _ => ⟨some (.value (.finite (1 / 1000))), none, "", .blank, .blank⟩

end Site

theorem verification_posts_site : VerifiesWell Site.intakeCtx 1 101 1 Site.confirmed Site.entered :=
  (verification_posts Site.intakeCtx 1 101 1 Site.confirmed Site.entered (by decide +kernel) (by decide +kernel)
    (by decide +kernel)).2 fun _ => ⟨by decide +kernel, by decide +kernel⟩

/-- The batch has a thousandth less than the five units of the total. -/
theorem verification_drifts :
    Site.entered.tables.Balanced ∧
    (Site.entered.tables.intakeItems 1 1).map (fun i => (i.itemId, i.qty)) = [(1, ⟨4, 1, 0⟩)] ∧
    (Site.entered.exec Site.intakeCtx 1 (.verify 101 1 Site.thousandth)).toOption.map (fun db =>
      (db.tables.inBatch 1 1 "WATER", db.tables.inStock ⟨1, 1⟩)) = some (⟨4999 / 1000, 1 / 1000, 0⟩, ⟨5, 0, 0⟩) ∧
    ¬ VerifiesWell Site.intakeCtx 1 101 1 Site.thousandth Site.entered := by
  refine ⟨by decide +kernel, by decide +kernel, by decide +kernel, fun h => ?_⟩
  have hnot : (Site.entered.exec Site.intakeCtx 1 (.verify 101 1 Site.thousandth)).toOption.map (fun db =>
      decide db.tables.Balanced) = some false := by decide +kernel
  cases hexec : Site.entered.exec Site.intakeCtx 1 (.verify 101 1 Site.thousandth) with
  | error e =>
    rw [hexec] at hnot
    cases hnot
  | ok db =>
    rw [hexec] at hnot
    exact of_decide_eq_false (Option.some.inj hnot) (h.posted db hexec).balanced

end Dmis
