import Dmis.DonationIntake
import Dmis.Lib.Run

/-!
# A donation enters stock once

What the runs of entries and verifications of one donation post. `StockedOnce` compares the stock with the one the
run began with: nothing more than what was donated has come in, and all of it once the donation is processed.

An entry asks for a donation that is still verified, a verification does not. So two intakes that were entered before
the first verification are both posted; `donation_stocked_once` says when that and the rounding of the columns
do not happen.
-/

namespace Dmis

open Relational Keyed

/-! ## What is in stock -/

/-- What the batches hold of an item, over all warehouses. -/
def IntakeTables.inBatches (t : IntakeTables) (itemId : Nat) : ℚ :=
  t.itembatch.sum (fun b => decide (b.itemId = itemId)) fun b => b.qty.total

/-- What the totals of the warehouses say of an item. -/
def IntakeTables.inInventory (t : IntakeTables) (itemId : Nat) : ℚ :=
  t.inventory.sum (fun v => decide (v.itemId = itemId)) fun v => v.qty.total

def IntakeTables.status (donationId : Nat) (t : IntakeTables) : Option DonationStatus :=
  (t.donation.get? donationId).map Donation.statusCode

/-- What came in from `db` to `db'` is at most what was donated, and all of it at the end. -/
structure StockedOnce (ctx : IntakeCtx) (donationId : Nat) (db db' : IntakeDb) : Prop where
  bound : ∀ i ∈ db.tables.donationItem.rows, i.donationId = donationId →
    db'.tables.inBatches i.itemId - db.tables.inBatches i.itemId ≤ i.itemQty ∧
    db'.tables.inInventory i.itemId - db.tables.inInventory i.itemId ≤ i.itemQty
  processed : db'.tables.status donationId = some .processed → ∀ i ∈ db.tables.goodsItems ctx donationId,
    db'.tables.inBatches i.itemId - db.tables.inBatches i.itemId = i.itemQty ∧
    db'.tables.inInventory i.itemId - db.tables.inInventory i.itemId = i.itemQty

/-! ## Quantities -/

structure Received.Nonneg (q : Received) : Prop where
  usable : 0 ≤ q.usable
  defective : 0 ≤ q.defective
  expired : 0 ≤ q.expired

def Received.add (p q : Received) : Received := ⟨p.usable + q.usable, p.defective + q.defective, p.expired + q.expired⟩

attribute [ext] Received

instance : Zero Received := ⟨⟨0, 0, 0⟩⟩
instance : Add Received := ⟨Received.add⟩
instance : Neg Received := ⟨fun q => ⟨-q.usable, -q.defective, -q.expired⟩⟩

/-- Quantities are added and compared component by component. -/
instance : AddCommGroup Received where
  add_assoc p q r := Received.ext (add_assoc _ _ _) (add_assoc _ _ _) (add_assoc _ _ _)
  zero_add q := Received.ext (zero_add _) (zero_add _) (zero_add _)
  add_zero q := Received.ext (add_zero _) (add_zero _) (add_zero _)
  add_comm p q := Received.ext (add_comm _ _) (add_comm _ _) (add_comm _ _)
  neg_add_cancel q := Received.ext (neg_add_cancel _) (neg_add_cancel _) (neg_add_cancel _)
  nsmul := nsmulRec
  zsmul := zsmulRec

/-- What a row holds that quantities at its scale are added to. -/
theorem Received.rounded_add {s : ℕ} {p q : Received} (hp : p.rounded s = p) (hp₀ : p.Nonneg) (hq : q.Nonneg) :
    (p.add q).rounded s = p + q.rounded s := by
  have hu : AtScale s p.usable := congrArg Received.usable hp
  have hd : AtScale s p.defective := congrArg Received.defective hp
  have he : AtScale s p.expired := congrArg Received.expired hp
  exact Received.ext (numeric_add hu hp₀.usable hq.usable) (numeric_add hd hp₀.defective hq.defective)
    (numeric_add he hp₀.expired hq.expired)

theorem Received.total_add (p q : Received) : (p + q).total = p.total + q.total := by
  show p.usable + q.usable + (p.defective + q.defective) + (p.expired + q.expired) = _
  unfold Received.total
  ring

/-- Nothing yet. -/
theorem Received.rounded_zero (s : ℕ) : (⟨0, 0, 0⟩ : Received).rounded s = ⟨0, 0, 0⟩ := by
  simp [Received.rounded, numeric_zero]

theorem Received.total_zero : (⟨0, 0, 0⟩ : Received).total = 0 := by simp [Received.total]

theorem Received.nonneg_zero : (⟨0, 0, 0⟩ : Received).Nonneg := ⟨le_rfl, le_rfl, le_rfl⟩

/-- The total of a sum. -/
theorem Received.total_sum {ρ : Type} (rows : List ρ) (g : ρ → Received) :
    ((rows.map g).sum).total = (rows.map fun r => (g r).total).sum := by
  induction rows with
  | nil => exact Received.total_zero
  | cons r rows ih => rw [List.map_cons, List.sum_cons, Received.total_add, ih, List.map_cons, List.sum_cons]

/-! ## Posting -/

section
variable {ctx : IntakeCtx} {donationId : Nat} {v : VerifiedItem} {vs : List VerifiedItem} {t t' : IntakeTables} {x : Nat}

/-- What the batches hold of an item once they are stored. -/
def IntakeTables.batchesLeft (t : IntakeTables) (itemId : Nat) : ℚ :=
  t.itembatch.sum (fun b => decide (b.itemId = itemId)) fun b => b.rounded.qty.total

def IntakeTables.inventoryLeft (t : IntakeTables) (itemId : Nat) : ℚ :=
  t.inventory.sum (fun v => decide (v.itemId = itemId)) fun v => v.rounded.qty.total

/-- The rows the items will be posted to are as they were stored. -/
structure Ready (vs : List VerifiedItem) (t : IntakeTables) : Prop where
  qty : ∀ v ∈ vs, v.qty.Nonneg
  batch : ∀ v ∈ vs, ∀ b ∈ t.itembatch.rows, b.itemId = v.row.itemId → b.qty.rounded 4 = b.qty ∧ b.qty.Nonneg
  stock : ∀ v ∈ vs, ∀ w ∈ t.inventory.rows, w.itemId = v.row.itemId → w.qty.rounded 2 = w.qty ∧ w.qty.Nonneg
  batchIds : ∀ b ∈ t.itembatch.rows, b.batchId < t.nextBatchId

/-- The batch an item is posted to: a row of the table, or one with a key of its own. -/
theorem batch_cases (hr : Ready (v :: vs) t) :
    (t.itembatch.get? (key (v.batch t)) = some (v.batch t) ∨
      t.itembatch.get? (key (v.batch t)) = none ∧ (v.batch t).qty = ⟨0, 0, 0⟩) ∧
    (v.batch t).itemId = v.row.itemId ∧
    (v.batch t).batchId < if (v.existingBatch t).isSome then t.nextBatchId else t.nextBatchId + 1 := by
  unfold VerifiedItem.batch
  cases hb : v.existingBatch t with
  | some b =>
    obtain ⟨hmem, hp⟩ := List.mem_filter.1 (List.mem_of_mem_head? (Option.mem_def.2 hb))
    simp only [decide_eq_true_eq] at hp
    exact ⟨.inl (Table.get?_key hmem), hp.2.1, hr.batchIds b hmem⟩
  | none =>
    refine ⟨.inr ⟨Table.get?_eq_none.2 fun hk => ?_, rfl⟩, rfl, Nat.lt_succ_self _⟩
    obtain ⟨c, hc, hkey⟩ := List.mem_map.1 hk
    have hid : c.batchId = t.nextBatchId := congrArg BatchKey.batchId hkey
    have hlt := hr.batchIds c hc
    omega

theorem stock_cases :
    (t.inventory.get? (key (v.stock t)) = some (v.stock t) ∨
      t.inventory.get? (key (v.stock t)) = none ∧ (v.stock t).qty = ⟨0, 0, 0⟩) ∧ (v.stock t).itemId = v.row.itemId := by
  unfold VerifiedItem.stock
  cases hs : t.inventory.get? ⟨v.row.itemId, v.row.inventoryId⟩ with
  | some w =>
    have hkey : key w = ⟨v.row.itemId, v.row.inventoryId⟩ := Table.key_of_get? hs
    refine ⟨.inl ?_, congrArg StockKey.itemId hkey⟩
    rw [Option.getD_some, hkey, hs]
  | none => exact ⟨.inr ⟨hs, rfl⟩, rfl⟩

theorem qty_rounded_batch (b : ItemBatch) : b.rounded.qty = b.qty.rounded 4 := rfl
theorem qty_rounded_inventory (w : Inventory) : w.rounded.qty = w.qty.rounded 2 := rfl

/-- **Adding to a row** that is as it was stored, or starts from nothing, adds what the columns hold of the
quantities. -/
theorem qty_upsert {ρ κ σ : Type} [Keyed ρ κ] [DecidableEq κ] [DecidableEq σ] {rows : Table ρ} {row row' : ρ}
    {cls : ρ → σ} {x : σ} {g : ρ → Received} {s : ℕ} {q : Received}
    (hrow : rows.get? (key row) = some row ∨ rows.get? (key row) = none ∧ g row = ⟨0, 0, 0⟩)
    (hready : row ∈ rows.rows → (g row).rounded s = g row ∧ (g row).Nonneg) (hq : q.Nonneg)
    (hk : key row' = key row) (hcls : cls row' = cls row) (hqty : g row' = (g row).add q) :
    (rows.upsert row').sum (fun r => decide (cls r = x)) (fun r => (g r).rounded s) =
      rows.sum (fun r => decide (cls r = x)) (fun r => (g r).rounded s) + if cls row = x then q.rounded s else 0 := by
  have hstored : (g row).rounded s = g row ∧ (g row).Nonneg := by
    rcases hrow with hg | ⟨-, hzero⟩
    · exact hready (Table.mem_of_get? hg)
    · rw [hzero]
      exact ⟨Received.rounded_zero s, Received.nonneg_zero⟩
  have hnew : (g row').rounded s = (g row).rounded s + q.rounded s := by
    rw [hqty, hstored.1, Received.rounded_add hstored.1 hstored.2 hq]
  have hzero : rows.get? (key row) = some row ∨ rows.get? (key row) = none ∧ (g row).rounded s = 0 := by
    refine hrow.imp_right fun h => ⟨h.1, ?_⟩
    rw [h.2, Received.rounded_zero]
    rfl
  have hsum := Table.sum_upsert_add (p := fun r => decide (cls r = x)) (g := fun r => (g r).rounded s)
    hzero hk (by rw [hcls]) hnew
  simpa only [decide_eq_true_eq] using hsum

theorem left_upsert {ρ κ : Type} [Keyed ρ κ] [DecidableEq κ] {rows : Table ρ} {row row' : ρ} {item : ρ → Nat}
    {g : ρ → Received} {s : ℕ} {q : Received}
    (hrow : rows.get? (key row) = some row ∨ rows.get? (key row) = none ∧ g row = ⟨0, 0, 0⟩)
    (hready : row ∈ rows.rows → (g row).rounded s = g row ∧ (g row).Nonneg) (hq : q.Nonneg)
    (hk : key row' = key row) (hitem : item row' = item row) (hqty : g row' = (g row).add q) :
    (rows.upsert row').sum (fun r => decide (item r = x)) (fun r => ((g r).rounded s).total) =
      rows.sum (fun r => decide (item r = x)) (fun r => ((g r).rounded s).total) +
        if item row = x then (q.rounded s).total else 0 := by
  have hsum := congrArg Received.total (qty_upsert (x := x) hrow hready hq hk hitem hqty)
  rw [Received.total_add] at hsum
  simp only [Table.sum, Received.total_sum] at hsum ⊢
  rw [hsum, apply_ite Received.total, show (0 : Received).total = 0 from Received.total_zero]

/-- Posting to the batches. -/
theorem batchesLeft_upsert (hr : Ready (v :: vs) t) :
    (t.itembatch.upsert ((v.batch t).receive v.expiryDate v.qty)).sum (fun b => decide (b.itemId = x))
        (fun b => b.rounded.qty.total) =
      t.batchesLeft x + if v.row.itemId = x then (v.qty.rounded 4).total else 0 := by
  obtain ⟨hrow, hitem, -⟩ := batch_cases hr
  rw [← hitem]
  exact left_upsert (g := ItemBatch.qty) hrow (fun hm => hr.batch v List.mem_cons_self _ hm hitem)
    (hr.qty v List.mem_cons_self) rfl rfl rfl

/-- Posting to the totals. -/
theorem inventoryLeft_upsert (hr : Ready (v :: vs) t) :
    (t.inventory.upsert ((v.stock t).receive v.qty)).sum (fun w => decide (w.itemId = x))
        (fun w => w.rounded.qty.total) =
      t.inventoryLeft x + if v.row.itemId = x then (v.qty.rounded 2).total else 0 := by
  obtain ⟨hrow, hitem⟩ := stock_cases (v := v) (t := t)
  rw [← hitem]
  exact left_upsert (g := Inventory.qty) hrow (fun hm => hr.stock v List.mem_cons_self _ hm hitem)
    (hr.qty v List.mem_cons_self) rfl rfl rfl

/-- The rows of other items stay ready. -/
theorem Ready.post (hr : Ready (v :: vs) t) (hn : ∀ w ∈ vs, w.row.itemId ≠ v.row.itemId) (h : postItem v t = .ok t') :
    Ready vs t' := by
  simp only [postItem, bind_ok, require_ok, pure_ok] at h
  obtain ⟨items, -, rfl⟩ := h
  obtain ⟨-, hbatch, hlt⟩ := batch_cases hr
  obtain ⟨-, hstock⟩ := stock_cases (v := v) (t := t)
  refine ⟨fun w hw => hr.qty w (List.mem_cons_of_mem v hw), fun w hw b hb hbw => ?_, fun w hw c hc hcw => ?_,
    fun b hb => ?_⟩
  · rcases Table.mem_upsert hb with rfl | hb
    · exact absurd (hbw.symm.trans hbatch) (hn w hw)
    · exact hr.batch w (List.mem_cons_of_mem v hw) b hb hbw
  · rcases Table.mem_upsert hc with rfl | hc
    · exact absurd (hcw.symm.trans hstock) (hn w hw)
    · exact hr.stock w (List.mem_cons_of_mem v hw) c hc hcw
  · rcases Table.mem_upsert hb with rfl | hb
    · exact hlt
    · have hlt := hr.batchIds b hb
      show b.batchId < if (v.existingBatch t).isSome then t.nextBatchId else t.nextBatchId + 1
      split <;> omega

theorem postItem_ok (hr : Ready (v :: vs) t) (h : postItem v t = .ok t') :
    t'.donation = t.donation ∧ t'.donationItem = t.donationItem ∧
    (∀ x, t'.batchesLeft x = t.batchesLeft x + if v.row.itemId = x then (v.qty.rounded 4).total else 0) ∧
    ∀ x, t'.inventoryLeft x = t.inventoryLeft x + if v.row.itemId = x then (v.qty.rounded 2).total else 0 := by
  simp only [postItem, bind_ok, require_ok, pure_ok] at h
  obtain ⟨items, -, rfl⟩ := h
  exact ⟨rfl, rfl, fun x => batchesLeft_upsert hr, fun x => inventoryLeft_upsert hr⟩

/-- **The loop** over the items of an intake, each of them once. -/
theorem postItems_ok : ∀ {vs : List VerifiedItem} {t t' : IntakeTables}, Ready vs t →
    (vs.map fun v => v.row.itemId).Nodup → postItems vs t = .ok t' →
    t'.donation = t.donation ∧ t'.donationItem = t.donationItem ∧
    (∀ x, t'.batchesLeft x = t.batchesLeft x +
      (vs.map fun v => if v.row.itemId = x then (v.qty.rounded 4).total else 0).sum) ∧
    ∀ x, t'.inventoryLeft x = t.inventoryLeft x +
      (vs.map fun v => if v.row.itemId = x then (v.qty.rounded 2).total else 0).sum
  | [], t, t', _, _, h => by
    cases h
    simp
  | v :: vs, t, t', hr, hn, h => by
    simp only [postItems, bind_ok] at h
    obtain ⟨t₁, h₁, h⟩ := h
    rw [List.map_cons, List.nodup_cons] at hn
    have hother : ∀ w ∈ vs, w.row.itemId ≠ v.row.itemId := fun w hw he => hn.1 (he ▸ List.mem_map_of_mem hw)
    obtain ⟨hd, hi, hb, hv⟩ := postItem_ok hr h₁
    obtain ⟨hd', hi', hb', hv'⟩ := postItems_ok (hr.post hother h₁) hn.2 h
    refine ⟨hd'.trans hd, hi'.trans hi, fun x => ?_, fun x => ?_⟩
    · rw [hb', hb, List.map_cons, List.sum_cons, add_assoc]
    · rw [hv', hv, List.map_cons, List.sum_cons, add_assoc]

/-! ## Verified items -/

theorem anyNegative_ok {ds : List PyDecimal} (h : PyDecimal.anyNegative ds = some false) {q : ℚ}
    (hq : PyDecimal.finite q ∈ ds) : 0 ≤ q := by
  induction ds with
  | nil => simp at hq
  | cons d ds ih =>
    simp only [PyDecimal.anyNegative] at h
    split at h
    · rename_i hd
      rcases List.mem_cons.1 hq with rfl | hq
      · simpa [PyDecimal.negative?] using hd
      · exact ih h hq
    · rename_i hd
      exact absurd h hd

theorem finiteDeductions_ok {i : DonationIntakeItem} {a b : PyDecimal} {p : ℚ × ℚ} (h : finiteDeductions i a b = .ok p) :
    a = .finite p.1 ∧ b = .finite p.2 := by
  cases a with
  | finite d =>
    cases b with
    | finite e => cases h; exact ⟨rfl, rfl⟩
    | infinity neg => cases h
    | nan => cases h
  | infinity neg => cases h
  | nan => cases h

/-- What was received of an item is divided anew, and none of it goes. -/
theorem verifyItem_ok {today : Day} {form : Nat → VerifyField} {i : DonationIntakeItem}
    (h : verifyItem ctx today t form i = .ok v) : v.row = i ∧ v.qty.total = i.qty.total ∧ v.qty.Nonneg := by
  simp only [verifyItem, checkQuantities, bind_ok, require_ok, check_ok, pure_ok] at h
  obtain ⟨a, -, b, -, -, ⟨_, hneg, rfl⟩, donated, -, -, -, -, -, ⟨d, e⟩, hde, -, -, -, -, -, hpos, batchDate, -,
    expiryDate, -, rfl⟩ := h
  obtain ⟨rfl, rfl⟩ := finiteDeductions_ok hde
  have hd : 0 ≤ d := anyNegative_ok hneg (by simp)
  have he : 0 ≤ e := anyNegative_ok hneg (by simp)
  refine ⟨rfl, ?_, hpos.le, hd, he⟩
  show i.qty.total - d - e + d + e = i.qty.total
  ring

/-! ## Entries -/

section
variable {today : Day} {form : EntryForm} {inventoryId w : Nat} {entries : List IntakeEntry}
  {rows : List DonationIntakeItem}

theorem entryItem_itemId {i : DonationItem} {e : IntakeEntry} (h : entryItem ctx today form i = .ok e) :
    e.itemId = i.itemId := by
  simp only [entryItem, bind_ok, require_ok, check_ok, pure_ok] at h
  obtain ⟨f, -, ⟨batchNo, batchDate⟩, -, expiryDate, -, -, -, usable, -, defective, -, expired, -, -, -, -, -, avg, -,
    np, -, -, -, rfl⟩ := h
  rfl

theorem row?_ok {e : IntakeEntry} {r : DonationIntakeItem} (h : e.row? donationId inventoryId = some r) :
    r.donationId = donationId ∧ r.inventoryId = inventoryId ∧ r.itemId = e.itemId ∧ e.total = .finite r.qty.total := by
  have hfinite : ∀ {d : PyDecimal} {q : ℚ}, d.finite? = some q → d = .finite q := fun {d q} hd => by
    cases d with
    | finite q' => cases hd; rfl
    | infinity neg => cases hd
    | nan => cases hd
  simp only [IntakeEntry.row?, Option.bind_eq_bind, Option.bind_eq_some_iff, Option.pure_def, Option.some.injEq] at h
  obtain ⟨u, hu, d, hd, x, hx, avg, -, rfl⟩ := h
  refine ⟨rfl, rfl, rfl, ?_⟩
  rw [IntakeEntry.total, hfinite hu, hfinite hd, hfinite hx]
  rfl

/-- The rows add up, item by item, to what the entries do. -/
theorem rows_ok : ∀ {entries : List IntakeEntry} {rows : List DonationIntakeItem},
    entries.mapM (·.row? donationId inventoryId) = some rows →
    rows.map (·.itemId) = entries.map (·.itemId) ∧
    (∀ r ∈ rows, r.donationId = donationId ∧ r.inventoryId = inventoryId) ∧
    (∀ r ∈ rows, ∃ e ∈ entries, e.row? donationId inventoryId = some r) ∧
    ∀ x a, ((entries.filter (·.itemId = x)).map IntakeEntry.total).foldl PyDecimal.add (.finite a) =
      .finite (a + (rows.map fun r => if r.itemId = x then r.qty.total else 0).sum)
  | [], rows, h => by
    cases h
    simp
  | e :: es, rows, h => by
    simp only [List.mapM_cons, Option.bind_eq_bind, Option.bind_eq_some_iff, Option.pure_def, Option.some.injEq] at h
    obtain ⟨r, hr, rs, hrs, rfl⟩ := h
    obtain ⟨hd, hi, hitem, htotal⟩ := row?_ok hr
    obtain ⟨hids, hkeys, hfrom, hsum⟩ := rows_ok hrs
    refine ⟨by simp [hids, hitem], ?_, ?_, fun x a => ?_⟩
    · intro c hc
      rcases List.mem_cons.1 hc with rfl | hc
      · exact ⟨hd, hi⟩
      · exact hkeys c hc
    · intro c hc
      rcases List.mem_cons.1 hc with rfl | hc
      · exact ⟨e, List.mem_cons_self, hr⟩
      · obtain ⟨e', he', hc⟩ := hfrom c hc
        exact ⟨e', List.mem_cons_of_mem e he', hc⟩
    · by_cases hx : e.itemId = x
      · have hfilter : (e :: es).filter (·.itemId = x) = e :: es.filter (·.itemId = x) :=
          List.filter_cons_of_pos (by simpa using hx)
        have hadd : (PyDecimal.finite a).add (.finite r.qty.total) = .finite (a + r.qty.total) := rfl
        rw [hfilter, List.map_cons, List.foldl_cons, htotal, hadd, hsum, List.map_cons, List.sum_cons, hitem, if_pos hx,
          add_assoc]
      · have hfilter : (e :: es).filter (·.itemId = x) = es.filter (·.itemId = x) :=
          List.filter_cons_of_neg (by simpa using hx)
        rw [hfilter, hsum, List.map_cons, List.sum_cons, hitem, if_neg hx, zero_add]

/-- The intake at a warehouse has every GOODS item of the donation once, with the donated quantity. -/
structure Entered (ctx : IntakeCtx) (donationId : Nat) (t : IntakeTables) (w : Nat) : Prop where
  nodup : ((t.intakeItems donationId w).map (·.itemId)).Nodup
  goods : ∀ r ∈ t.intakeItems donationId w, (ctx.items r.itemId).categoryType = .goods
  total : ∀ i ∈ t.goodsItems ctx donationId,
    ((t.intakeItems donationId w).map fun r => if r.itemId = i.itemId then r.qty.total else 0).sum = i.itemQty

theorem nodup_goodsItems (t : IntakeTables) (ctx : IntakeCtx) (donationId : Nat) :
    ((t.goodsItems ctx donationId).map (·.itemId)).Nodup := by
  have hkeys : ((t.goodsItems ctx donationId).map key).Nodup :=
    t.donationItem.nodup.sublist (List.filter_sublist.map key)
  refine List.Nodup.map_on (fun i hi j hj he => ?_) hkeys.of_map
  obtain ⟨hi, hdi⟩ := List.mem_filter.1 hi
  obtain ⟨hj, hdj⟩ := List.mem_filter.1 hj
  simp only [decide_eq_true_eq] at hdi hdj
  exact List.inj_on_of_nodup_map t.donationItem.nodup hi hj (Prod.ext (hdi.1.trans hdj.1.symm) he)

/-- **What an entry leaves**: the stock as it was, and at its warehouse an item for every GOODS item of the donation,
which add up to what was donated. -/
structure EntryLeft (ctx : IntakeCtx) (donationId inventoryId : Nat) (t t' : IntakeTables)
    (rows : List DonationIntakeItem) : Prop where
  donation : t'.donation = t.donation
  donationItem : t'.donationItem = t.donationItem
  itembatch : t'.itembatch = t.itembatch
  inventory : t'.inventory = t.inventory
  keys : ∀ w, (donationId, w) ∈ t'.dnintake.keys → w = inventoryId ∨ (donationId, w) ∈ t.dnintake.keys
  items : t'.intakeItems donationId inventoryId = rows
  others : ∀ w, w ≠ inventoryId → t'.intakeItems donationId w = t.intakeItems donationId w
  itemIds : rows.map (·.itemId) = (t.goodsItems ctx donationId).map (·.itemId)
  total : ∀ i ∈ t.goodsItems ctx donationId,
    (rows.map fun r => if r.itemId = i.itemId then r.qty.total else 0).sum = i.itemQty

theorem intakeForm_ok (h : intakeForm ctx today donationId inventoryId form t = .ok t') :
    t.status donationId = some .verified ∧ ∃ rows, EntryLeft ctx donationId inventoryId t t' rows ∧
      ∀ r ∈ rows, ∃ i ∈ t.goodsItems ctx donationId, ∃ e, entryItem ctx today form i = .ok e ∧
        e.row? donationId inventoryId = some r := by
  simp only [intakeForm, processEntry, bind_ok, require_ok, check_ok, pure_ok] at h
  obtain ⟨donation, hdon, allowed, -, -, -, -, hst, -, -, -, herr, rows, hrows, items, hins, rfl⟩ := h
  simp only [entryErrors, List.append_eq_nil_iff, List.filterMap_eq_nil_iff] at herr
  obtain ⟨⟨⟨⟨-, hnone⟩, -⟩, hmatch⟩, -⟩ := herr
  obtain ⟨hids, hkeys, hfrom, hsum⟩ := rows_ok hrows
  have hitems : items.rows =
      (t.dnintakeItem.rows.filter fun r => !decide (r.donationId = donationId ∧ r.inventoryId = inventoryId)) ++ rows :=
    Table.rows_insertAll hins
  refine ⟨by simp [IntakeTables.status, hdon, hst], rows,
    { donation := rfl
      donationItem := rfl
      itembatch := rfl
      inventory := rfl
      keys := fun w hw => ?_
      items := ?_
      others := fun w hw => ?_
      itemIds := hids.trans (map_oks (fun i _ e he => entryItem_itemId he) hnone)
      total := fun i hi => ?_ }, fun r hr => ?_⟩
  · obtain ⟨i, hi, hkey⟩ := List.mem_map.1 hw
    rcases Table.mem_upsert hi with rfl | hi
    · exact .inl (congrArg Prod.snd hkey).symm
    · exact .inr (List.mem_map.2 ⟨i, hi, hkey⟩)
  · simp only [IntakeTables.intakeItems, Table.select, hitems, List.filter_append, List.filter_filter]
    have hold : (t.dnintakeItem.rows.filter fun r => decide (r.donationId = donationId ∧ r.inventoryId = inventoryId) &&
        !decide (r.donationId = donationId ∧ r.inventoryId = inventoryId)) = [] := by simp
    rw [hold, List.nil_append, List.filter_eq_self]
    exact fun r hr => decide_eq_true (hkeys r hr)
  · simp only [IntakeTables.intakeItems, Table.select, hitems, List.filter_append, List.filter_filter]
    have hnew : rows.filter (fun r => decide (r.donationId = donationId ∧ r.inventoryId = w)) = [] := by
      rw [List.filter_eq_nil_iff]
      intro r hr hp
      exact hw ((of_decide_eq_true hp).2.symm.trans (hkeys r hr).2)
    rw [hnew, List.append_nil]
    refine List.filter_congr fun r _ => ?_
    by_cases hp : r.donationId = donationId ∧ r.inventoryId = w
    · have hne : ¬ (r.donationId = donationId ∧ r.inventoryId = inventoryId) := fun h => hw (hp.2.symm.trans h.2)
      rw [decide_eq_true hp, decide_eq_false hne]
      rfl
    · rw [decide_eq_false hp]
      rfl
  · have hnotnone := hmatch i hi
    unfold mismatchOf at hnotnone
    split at hnotnone
    · rename_i heq
      rw [enteredTotal, hsum, zero_add] at heq
      exact PyDecimal.finite.inj heq
    · cases hnotnone
  · obtain ⟨e, he, hrow⟩ := hfrom r hr
    obtain ⟨i, hi, hie⟩ := List.mem_map.1 (mem_oks.1 he)
    exact ⟨i, hi, e, hie, hrow⟩

/-! ## Verifications -/

/-- Rows of a database are as they were stored. -/
theorem IntakeDb.ready (db : IntakeDb) (vs : List VerifiedItem) (hq : ∀ v ∈ vs, v.qty.Nonneg) (dnintake : Table DonationIntake) :
    Ready vs { db.tables with dnintake := dnintake } := by
  have hc := db.consistent
  have hbatch : ∀ b ∈ db.tables.itembatch.rows, b.rounded = b :=
    Table.eq_of_mapRows key_rounded_itembatch (congrArg IntakeTables.itembatch hc.stored)
  have hstock : ∀ w ∈ db.tables.inventory.rows, w.rounded = w :=
    Table.eq_of_mapRows key_rounded_inventory (congrArg IntakeTables.inventory hc.stored)
  refine ⟨hq, fun v _ b hb _ => ?_, fun v _ w hw _ => ?_, hc.batchIds⟩
  · obtain ⟨hu, -, hd, he⟩ := hc.batch b hb
    refine ⟨?_, hu, hd, he⟩
    rw [← qty_rounded_batch, hbatch b hb]
  · obtain ⟨hu, -, hd, he⟩ := hc.inventory w hw
    refine ⟨?_, hu, hd, he⟩
    rw [← qty_rounded_inventory, hstock w hw]

theorem inBatches_rounded (t : IntakeTables) (x : Nat) : t.rounded.inBatches x = t.batchesLeft x :=
  Table.sum_mapRows key_rounded_itembatch (fun b : ItemBatch => b.qty.total)

theorem inInventory_rounded (t : IntakeTables) (x : Nat) : t.rounded.inInventory x = t.inventoryLeft x :=
  Table.sum_mapRows key_rounded_inventory (fun w : Inventory => w.qty.total)

theorem intake_of_verifyIntake {form : Nat → VerifyField}
    (h : verifyIntake ctx today donationId inventoryId form t = .ok t') :
    (donationId, inventoryId) ∈ t.dnintake.keys := by
  simp only [verifyIntake, bind_ok, require_ok] at h
  obtain ⟨intake, hin, -⟩ := h
  exact List.mem_map.2 ⟨intake, Table.mem_of_get? hin, Table.key_of_get? hin⟩

/-- What an accepted verification did: every item of the intake was verified, and `vs` was posted. -/
structure VerifyRun (ctx : IntakeCtx) (donationId : Nat) (today : Day) (inventoryId : Nat) (form : Nat → VerifyField)
    (vs : List VerifiedItem) (t t₁ t' : IntakeTables) : Prop where
  verified : ∀ v ∈ vs, ∃ i ∈ t.intakeItems donationId inventoryId, verifyItem ctx today t form i = .ok v
  sums : ∀ {γ : Type} {g : VerifiedItem → γ} {f : DonationIntakeItem → γ},
    (∀ i ∈ t.intakeItems donationId inventoryId, ∀ v, verifyItem ctx today t form i = .ok v → g v = f i) →
      vs.map g = (t.intakeItems donationId inventoryId).map f
  posted : ∃ dnintake, postItems vs { t with dnintake := dnintake } = .ok t₁
  processed : ∃ donation, t.donation.get? donationId = some donation ∧
    t' = { t₁ with donation := t₁.donation.set { donation with statusCode := .processed } }

theorem verifyIntake_run {form : Nat → VerifyField}
    (h : verifyIntake ctx today donationId inventoryId form t = .ok t') :
    ∃ vs t₁, VerifyRun ctx donationId today inventoryId form vs t t₁ t' := by
  simp only [verifyIntake, processVerification, bind_ok, require_ok, check_ok, pure_ok] at h
  obtain ⟨intake, hin, -, -, donation, hdon, -, herr, t₁, hpost, rfl⟩ := h
  have hkey : key intake = (donationId, inventoryId) := Table.key_of_get? hin
  rw [show intake.donationId = donationId from congrArg Prod.fst hkey,
    show intake.inventoryId = inventoryId from congrArg Prod.snd hkey] at hpost herr
  exact ⟨_, t₁, fun v hv => List.mem_map.1 (mem_oks.1 hv), fun hg => map_oks hg herr, ⟨_, hpost⟩, donation, hdon, rfl⟩

namespace VerifyRun

variable {form : Nat → VerifyField} {vs : List VerifiedItem} {t₁ : IntakeTables}

theorem itemIds (hvs : VerifyRun ctx donationId today inventoryId form vs t t₁ t') :
    vs.map (fun v => v.row.itemId) = (t.intakeItems donationId inventoryId).map (·.itemId) :=
  hvs.sums fun i _ v hv => by rw [(verifyItem_ok hv).1]

theorem nonneg (hvs : VerifyRun ctx donationId today inventoryId form vs t t₁ t') {v : VerifiedItem} (hv : v ∈ vs) :
    v.qty.Nonneg := by
  obtain ⟨i, -, hiv⟩ := hvs.verified v hv
  exact (verifyItem_ok hiv).2.2

theorem all (hvs : VerifyRun ctx donationId today inventoryId form vs t t₁ t')
    (hn : ((t.intakeItems donationId inventoryId).map (·.itemId)).Nodup) {i : DonationIntakeItem}
    (hi : i ∈ t.intakeItems donationId inventoryId) : ∃ v ∈ vs, verifyItem ctx today t form i = .ok v := by
  have hid : i.itemId ∈ vs.map fun v => v.row.itemId := hvs.itemIds ▸ List.mem_map_of_mem hi
  obtain ⟨v, hv, hvi⟩ := List.mem_map.1 hid
  obtain ⟨j, hj, hjv⟩ := hvs.verified v hv
  have hji : j = i := List.inj_on_of_nodup_map hn hj hi (by rw [← hvi, (verifyItem_ok hjv).1])
  exact ⟨v, hv, hji ▸ hjv⟩

/-- What is posted of an item is what the intake has of it. -/
theorem sum_qty (hvs : VerifyRun ctx donationId today inventoryId form vs t t₁ t') {s : ℕ}
    (hround : ∀ i ∈ t.intakeItems donationId inventoryId, ∀ v,
      verifyItem ctx today t form i = .ok v → (v.qty.rounded s).total = v.qty.total) (x : Nat) :
    (vs.map fun v => if v.row.itemId = x then (v.qty.rounded s).total else 0).sum =
      ((t.intakeItems donationId inventoryId).map fun r => if r.itemId = x then r.qty.total else 0).sum := by
  rw [hvs.sums fun i hi v hv => ?_]
  obtain ⟨hrow, htotal, -⟩ := verifyItem_ok hv
  rw [hrow, hround i hi v hv, htotal]

end VerifyRun

/-- **What a verification posts** of an item is what the intake has of it, and the donation is processed. -/
theorem verifyIntake_ok {db : IntakeDb} {form : Nat → VerifyField}
    (h : verifyIntake ctx today donationId inventoryId form db.tables = .ok t')
    (hnodup : ((db.tables.intakeItems donationId inventoryId).map (·.itemId)).Nodup)
    (hround : ∀ i ∈ db.tables.intakeItems donationId inventoryId, ∀ v,
      verifyItem ctx today db.tables form i = .ok v →
        (v.qty.rounded 4).total = v.qty.total ∧ (v.qty.rounded 2).total = v.qty.total) :
    t'.donationItem = db.tables.donationItem ∧ t'.status donationId = some .processed ∧
    (∀ x, t'.rounded.inBatches x = db.tables.inBatches x +
      ((db.tables.intakeItems donationId inventoryId).map fun r => if r.itemId = x then r.qty.total else 0).sum) ∧
    ∀ x, t'.rounded.inInventory x = db.tables.inInventory x +
      ((db.tables.intakeItems donationId inventoryId).map fun r => if r.itemId = x then r.qty.total else 0).sum := by
  obtain ⟨vs, t₁, hvs⟩ := verifyIntake_run h
  obtain ⟨dnintake, hpost⟩ := hvs.posted
  obtain ⟨donation, hdon, rfl⟩ := hvs.processed
  have hstored : db.tables.rounded = db.tables := db.consistent.stored
  obtain ⟨hdon₁, hitem₁, hb, hv⟩ :=
    postItems_ok (db.ready vs (fun _ => hvs.nonneg) dnintake) (hvs.itemIds ▸ hnodup) hpost
  have hbatch₀ : ∀ x, db.tables.batchesLeft x = db.tables.inBatches x := fun x => by
    rw [← inBatches_rounded, hstored]
  have hstock₀ : ∀ x, db.tables.inventoryLeft x = db.tables.inInventory x := fun x => by
    rw [← inInventory_rounded, hstored]
  refine ⟨hitem₁, ?_, fun x => ?_, fun x => ?_⟩
  · have hdk : donation.donationId = donationId := Table.key_of_get? hdon
    have hget : t₁.donation.get? donationId = some donation := by rw [hdon₁]; exact hdon
    have hset := Table.get?_set_of_get? (r := { donation with statusCode := .processed }) hget hdk
    simp only [IntakeTables.status, hset, Option.map_some]
  · rw [inBatches_rounded, ← hvs.sum_qty (fun i hi v hv => (hround i hi v hv).1), ← hbatch₀]
    exact hb x
  · rw [inInventory_rounded, ← hvs.sum_qty (fun i hi v hv => (hround i hi v hv).2), ← hstock₀]
    exact hv x

end

end

/-! ## Runs -/

theorem exec_intake_ok {ctx : IntakeCtx} {donationId : Nat} {db db' : IntakeDb} {op : IntakeOp} :
    db.exec ctx donationId op = .ok db' ↔
      ∃ t, op.route ctx donationId db.tables = .ok t ∧ t.rounded.Consistent ∧ db'.tables = t.rounded := by
  simp only [IntakeDb.exec, bind_ok]
  refine exists_congr fun t => and_congr_right fun _ => ?_
  unfold commitIntake
  split
  · rename_i h
    rw [Except.ok.injEq]
    exact ⟨fun e => e ▸ ⟨h, rfl⟩, fun e => by cases db'; simp_all⟩
  · simp_all

/-- Rounding to the scale of the columns leaves the totals of what is posted; and the donation of an intake that is
verified is itself still verified. -/
def IntakeOp.Fits (ctx : IntakeCtx) (donationId : Nat) (t : IntakeTables) : IntakeOp → Prop
  | .entry today inventoryId form => ∀ i ∈ t.goodsItems ctx donationId, ∀ e ∈ (entryItem ctx today form i).toOption,
      ∀ r ∈ e.row? donationId inventoryId, (r.qty.rounded 2).total = r.qty.total
  | .verify today inventoryId form => t.status donationId = some .verified ∧
      ∀ i ∈ t.intakeItems donationId inventoryId, ∀ v ∈ (verifyItem ctx today t form i).toOption,
        (v.qty.rounded 4).total = v.qty.total ∧ (v.qty.rounded 2).total = v.qty.total

/-- A typed number has at most `s` decimals. -/
def AmountField.Decimals (s : ℕ) (f : AmountField) : Prop := ∀ q ∈ f.finite?, AtScale s q

def EntryField.Decimals (s : ℕ) (f : EntryField) : Prop :=
  f.avgUnitValue.Decimals s ∧ f.usableQty.Decimals s ∧ f.defectiveQty.Decimals s ∧ f.expiredQty.Decimals s

def VerifyField.Decimals (s : ℕ) (f : VerifyField) : Prop :=
  (∀ a ∈ f.defectiveQty, a.Decimals s) ∧ ∀ a ∈ f.expiredQty, a.Decimals s

/-- What is typed for the items of the donation, or of its intake, has at most `s` decimals. -/
def IntakeOp.Decimals (s : ℕ) (ctx : IntakeCtx) (donationId : Nat) (t : IntakeTables) : IntakeOp → Prop
  | .entry _ _ form => ∀ i ∈ t.goodsItems ctx donationId, ∀ f ∈ form.fields i.itemId, f.Decimals s
  | .verify _ inventoryId form => ∀ i ∈ t.intakeItems donationId inventoryId, (form i.itemId).Decimals s

/-- What a post types is added up and multiplied exactly, as Python's context does it up to eight decimals, and a post that
is committed fits. -/
def EntersOnce (ctx : IntakeCtx) (donationId : Nat) (db : IntakeDb) (op : IntakeOp) : Prop :=
  op.Decimals 8 ctx donationId db.tables ∧ ((db.exec ctx donationId op).isOk → op.Fits ctx donationId db.tables)

instance IntakeOp.decidableFits (ctx : IntakeCtx) (donationId : Nat) (t : IntakeTables) :
    ∀ op : IntakeOp, Decidable (op.Fits ctx donationId t)
  | .entry today inventoryId form => inferInstanceAs (Decidable (∀ i ∈ t.goodsItems ctx donationId,
      ∀ e ∈ (entryItem ctx today form i).toOption, ∀ r ∈ e.row? donationId inventoryId,
        (r.qty.rounded 2).total = r.qty.total))
  | .verify today inventoryId form => inferInstanceAs (Decidable (t.status donationId = some .verified ∧
      ∀ i ∈ t.intakeItems donationId inventoryId, ∀ v ∈ (verifyItem ctx today t form i).toOption,
        (v.qty.rounded 4).total = v.qty.total ∧ (v.qty.rounded 2).total = v.qty.total))

instance (s : ℕ) (f : AmountField) : Decidable (f.Decimals s) := by unfold AmountField.Decimals; infer_instance
instance (s : ℕ) (f : EntryField) : Decidable (f.Decimals s) := by unfold EntryField.Decimals; infer_instance
instance (s : ℕ) (f : VerifyField) : Decidable (f.Decimals s) := by unfold VerifyField.Decimals; infer_instance

instance IntakeOp.decidableDecimals (s : ℕ) (ctx : IntakeCtx) (donationId : Nat) (t : IntakeTables) :
    ∀ op : IntakeOp, Decidable (op.Decimals s ctx donationId t)
  | .entry _ _ form => inferInstanceAs (Decidable (∀ i ∈ t.goodsItems ctx donationId, ∀ f ∈ form.fields i.itemId,
      f.Decimals s))
  | .verify _ inventoryId form => inferInstanceAs (Decidable (∀ i ∈ t.intakeItems donationId inventoryId,
      (form i.itemId).Decimals s))

instance EntersOnce.decidable (ctx : IntakeCtx) (donationId : Nat) (db : IntakeDb) (op : IntakeOp) :
    Decidable (EntersOnce ctx donationId db op) :=
  inferInstanceAs (Decidable (op.Decimals 8 ctx donationId db.tables ∧
    ((db.exec ctx donationId op).isOk → op.Fits ctx donationId db.tables)))

section
variable {ctx : IntakeCtx} {donationId : Nat} {db₀ db db' : IntakeDb}

/-- Before its verification nothing of the donation is in stock; after it, all that was donated. -/
inductive IntakePhase (ctx : IntakeCtx) (donationId : Nat) (db₀ db : IntakeDb) : Prop where
  | entering (status : db.tables.status donationId = some .verified)
      (batches : ∀ x, db.tables.inBatches x = db₀.tables.inBatches x)
      (inventory : ∀ x, db.tables.inInventory x = db₀.tables.inInventory x)
      (entered : ∀ w, (donationId, w) ∈ db.tables.dnintake.keys → Entered ctx donationId db.tables w)
  | stocked (status : db.tables.status donationId = some .processed)
      (batches : ∀ i ∈ db₀.tables.donationItem.rows, i.donationId = donationId →
        db.tables.inBatches i.itemId = db₀.tables.inBatches i.itemId +
          if (ctx.items i.itemId).categoryType = .goods then i.itemQty else 0)
      (inventory : ∀ i ∈ db₀.tables.donationItem.rows, i.donationId = donationId →
        db.tables.inInventory i.itemId = db₀.tables.inInventory i.itemId +
          if (ctx.items i.itemId).categoryType = .goods then i.itemQty else 0)

structure IntakeValid (ctx : IntakeCtx) (donationId : Nat) (db₀ db : IntakeDb) : Prop where
  donationItem : db.tables.donationItem = db₀.tables.donationItem
  phase : IntakePhase ctx donationId db₀ db

theorem donationItem_rounded (db : IntakeDb) {t : IntakeTables} (h : t.donationItem = db.tables.donationItem) :
    t.rounded.donationItem = db.tables.donationItem := by
  have hstored : db.tables.rounded.donationItem = db.tables.donationItem := by rw [db.consistent.stored]
  have hsame : t.rounded.donationItem = db.tables.rounded.donationItem := by
    simp only [IntakeTables.rounded, h]
  exact hsame.trans hstored

theorem goodsItems_rounded (db : IntakeDb) {t : IntakeTables} (h : t.donationItem = db.tables.donationItem) :
    t.rounded.goodsItems ctx donationId = db.tables.goodsItems ctx donationId := by
  simp only [IntakeTables.goodsItems, donationItem_rounded db h]

/-- What is stored of the items of an intake. -/
theorem intakeItems_rounded (t : IntakeTables) (w : Nat) :
    t.rounded.intakeItems donationId w = (t.intakeItems donationId w).map DonationIntakeItem.stored := by
  simp only [IntakeTables.intakeItems, IntakeTables.rounded, Table.select, Table.mapRows, List.filter_map]
  rfl

theorem intakeItems_stored (db : IntakeDb) (w : Nat) :
    (db.tables.intakeItems donationId w).map DonationIntakeItem.stored = db.tables.intakeItems donationId w := by
  rw [← intakeItems_rounded, db.consistent.stored]

/-- At its own warehouse an entry leaves all that was donated. -/
theorem EntryLeft.entered_own {w : Nat} {t : IntakeTables} {rows : List DonationIntakeItem}
    (hleft : EntryLeft ctx donationId w db.tables t rows)
    (hround : ∀ r ∈ rows, (r.qty.rounded 2).total = r.qty.total) : Entered ctx donationId t.rounded w := by
  have hrows : t.rounded.intakeItems donationId w = rows.map DonationIntakeItem.stored := by
    rw [intakeItems_rounded, hleft.items]
  refine ⟨?_, fun r hr => ?_, fun i hi => ?_⟩
  · rw [hrows, List.map_map]
    show (rows.map (·.itemId)).Nodup
    rw [hleft.itemIds]
    exact nodup_goodsItems _ _ _
  · rw [hrows] at hr
    obtain ⟨r', hr', rfl⟩ := List.mem_map.1 hr
    have hid : r'.itemId ∈ (db.tables.goodsItems ctx donationId).map (·.itemId) := by
      rw [← hleft.itemIds]
      exact List.mem_map_of_mem hr'
    obtain ⟨i, hi, hie⟩ := List.mem_map.1 hid
    have hcat := of_decide_eq_true (List.mem_filter.1 hi).2
    show (ctx.items r'.itemId).categoryType = .goods
    rw [← hie]
    exact hcat.2
  · rw [goodsItems_rounded db hleft.donationItem] at hi
    rw [hrows, List.map_map, ← hleft.total i hi]
    refine congrArg List.sum (List.map_congr_left fun r hr => ?_)
    show (if r.itemId = i.itemId then (r.qty.rounded 2).total else 0) = _
    rw [hround r hr]

/-- At the others it leaves what there was. -/
theorem EntryLeft.entered_other {inventoryId w : Nat} {t : IntakeTables} {rows : List DonationIntakeItem}
    (hleft : EntryLeft ctx donationId inventoryId db.tables t rows) (hw : w ≠ inventoryId)
    (h : Entered ctx donationId db.tables w) : Entered ctx donationId t.rounded w := by
  have hsame : t.rounded.intakeItems donationId w = db.tables.intakeItems donationId w := by
    rw [intakeItems_rounded, hleft.others w hw, intakeItems_stored]
  obtain ⟨hn, hg, ht⟩ := h
  rw [← hsame] at hn hg
  refine ⟨hn, hg, fun i hi => ?_⟩
  rw [goodsItems_rounded db hleft.donationItem] at hi
  rw [hsame]
  exact ht i hi

/-- **An entry** that fits keeps what the other intakes have, and has at its warehouse what was donated. -/
theorem IntakeValid.entry {today : Day} {inventoryId : Nat} {form : EntryForm} {t : IntakeTables}
    (hv : IntakeValid ctx donationId db₀ db)
    (h : intakeForm ctx today donationId inventoryId form db.tables = .ok t) (hdb : db'.tables = t.rounded)
    (hfits : (IntakeOp.entry today inventoryId form).Fits ctx donationId db.tables) :
    IntakeValid ctx donationId db₀ db' := by
  obtain ⟨hst, rows, hleft, hfrom⟩ := intakeForm_ok h
  obtain ⟨hitems, hphase⟩ := hv
  have hround : ∀ r ∈ rows, (r.qty.rounded 2).total = r.qty.total := fun r hr => by
    obtain ⟨i, hi, e, hie, hrow⟩ := hfrom r hr
    exact hfits i hi e (by rw [hie]; rfl) r hrow
  have hdi : db'.tables.donationItem = db.tables.donationItem := by
    rw [hdb]
    exact donationItem_rounded db hleft.donationItem
  refine ⟨hdi.trans hitems, ?_⟩
  cases hphase with
  | stocked status batches inventory =>
    rw [status] at hst
    cases hst
  | entering status batches inventory entered =>
    have hb : ∀ x, db'.tables.inBatches x = db.tables.inBatches x := fun x => by
      rw [hdb, inBatches_rounded, IntakeTables.batchesLeft, hleft.itembatch]
      exact (inBatches_rounded _ x).symm.trans (by rw [db.consistent.stored])
    have hi : ∀ x, db'.tables.inInventory x = db.tables.inInventory x := fun x => by
      rw [hdb, inInventory_rounded, IntakeTables.inventoryLeft, hleft.inventory]
      exact (inInventory_rounded _ x).symm.trans (by rw [db.consistent.stored])
    have hstatus : db'.tables.status donationId = some .verified := by
      rw [hdb, ← status]
      simp only [IntakeTables.status, IntakeTables.rounded, hleft.donation]
    refine .entering hstatus (fun x => (hb x).trans (batches x)) (fun x => (hi x).trans (inventory x)) fun w hw => ?_
    by_cases hwi : w = inventoryId
    · subst hwi
      exact hdb ▸ hleft.entered_own hround
    · have hkey : (donationId, w) ∈ db.tables.dnintake.keys := by
        rw [hdb] at hw
        exact (hleft.keys w hw).resolve_left hwi
      exact hdb ▸ hleft.entered_other hwi (entered w hkey)

/-- **A verification** that fits posts what was donated. -/
theorem IntakeValid.verify {today : Day} {inventoryId : Nat} {form : Nat → VerifyField} {t : IntakeTables}
    (hv : IntakeValid ctx donationId db₀ db)
    (h : verifyIntake ctx today donationId inventoryId form db.tables = .ok t) (hdb : db'.tables = t.rounded)
    (hfits : (IntakeOp.verify today inventoryId form).Fits ctx donationId db.tables) :
    IntakeValid ctx donationId db₀ db' := by
  obtain ⟨hverified, hround⟩ := hfits
  obtain ⟨hitems, hphase⟩ := hv
  cases hphase with
  | stocked status batches inventory =>
    rw [status] at hverified
    cases hverified
  | entering status batches inventory entered =>
    obtain ⟨hnodup, hgoods, htotal⟩ := entered inventoryId (intake_of_verifyIntake h)
    obtain ⟨hdi, hst, hb, hi⟩ := verifyIntake_ok h hnodup fun i hi v hiv =>
      hround i hi v (by rw [hiv]; rfl)
    -- an intake has what was donated of a GOODS item, and nothing else
    have hposted : ∀ i ∈ db₀.tables.donationItem.rows, i.donationId = donationId →
        ((db.tables.intakeItems donationId inventoryId).map fun r => if r.itemId = i.itemId then r.qty.total else 0).sum =
          if (ctx.items i.itemId).categoryType = .goods then i.itemQty else 0 := fun i hmem hd => by
      by_cases hcat : (ctx.items i.itemId).categoryType = .goods
      · rw [if_pos hcat]
        refine htotal i (List.mem_filter.2 ⟨hitems ▸ hmem, decide_eq_true ⟨hd, hcat⟩⟩)
      · rw [if_neg hcat]
        refine List.sum_eq_zero fun q hq => ?_
        obtain ⟨r, hr, rfl⟩ := List.mem_map.1 hq
        refine if_neg fun (he : r.itemId = i.itemId) => hcat ?_
        rw [← he]
        exact hgoods r hr
    refine ⟨?_, .stocked ?_ (fun i hmem hd => ?_) fun i hmem hd => ?_⟩
    · rw [hdb]
      exact (donationItem_rounded db hdi).trans hitems
    · rw [hdb]
      exact hst
    · rw [hdb, hb, batches, hposted i hmem hd]
    · rw [hdb, hi, inventory, hposted i hmem hd]

theorem intakeStep_valid (db : IntakeDb) (op : IntakeOp) (hv : IntakeValid ctx donationId db₀ db)
    (hop : EntersOnce ctx donationId db op) : IntakeValid ctx donationId db₀ (intakeStep ctx donationId db op) := by
  unfold intakeStep
  cases hexec : db.exec ctx donationId op with
  | error e => exact hv
  | ok db' =>
    have hfits : op.Fits ctx donationId db.tables := hop.2 (by rw [hexec]; rfl)
    obtain ⟨t, hroute, -, hdb⟩ := exec_intake_ok.1 hexec
    cases op with
    | entry today inventoryId form => exact hv.entry hroute hdb hfits
    | verify today inventoryId form => exact hv.verify hroute hdb hfits

theorem IntakeValid.stockedOnce (hv : IntakeValid ctx donationId db₀ db) : StockedOnce ctx donationId db₀ db := by
  have hnonneg : ∀ i ∈ db₀.tables.donationItem.rows, 0 ≤ i.itemQty := fun i hi =>
    (db₀.consistent.donationItem i hi).1
  cases hv.phase with
  | entering status batches inventory entered =>
    refine ⟨fun i hi hd => ?_, fun hp => ?_⟩
    · rw [batches, inventory, sub_self, sub_self]
      exact ⟨hnonneg i hi, hnonneg i hi⟩
    · rw [status] at hp
      cases hp
  | stocked status batches inventory =>
    refine ⟨fun i hi hd => ?_, fun _ i hi => ?_⟩
    · have hle : (if (ctx.items i.itemId).categoryType = .goods then i.itemQty else 0) ≤ i.itemQty := by
        split
        · exact le_rfl
        · exact hnonneg i hi
      rw [batches i hi hd, inventory i hi hd, add_sub_cancel_left, add_sub_cancel_left]
      exact ⟨hle, hle⟩
    · obtain ⟨hi, hp⟩ := List.mem_filter.1 hi
      obtain ⟨hd, hcat⟩ := of_decide_eq_true hp
      rw [batches i hi hd, inventory i hi hd, if_pos hcat, add_sub_cancel_left, add_sub_cancel_left]
      exact ⟨rfl, rfl⟩

end

/-- **A verified donation enters stock once**, whatever is entered and verified for it at whichever warehouses, if no
intake is verified after another one, if no rounding changes a total, and if nobody types more than eight decimals. -/
theorem donation_stocked_once (ctx : IntakeCtx) (donationId : Nat) (db : IntakeDb) (ops : List IntakeOp)
    (hverified : db.tables.status donationId = some .verified)
    (hnew : ∀ i ∈ db.tables.dnintake.rows, i.donationId ≠ donationId)
    (h : Along (intakeStep ctx donationId) (EntersOnce ctx donationId) db ops) :
    StockedOnce ctx donationId db (run (intakeStep ctx donationId) db ops) := by
  have hinit : IntakeValid ctx donationId db db := by
    refine ⟨rfl, .entering hverified (fun _ => rfl) (fun _ => rfl) fun w hw => ?_⟩
    obtain ⟨i, hi, hkey⟩ := List.mem_map.1 hw
    exact absurd (congrArg Prod.fst hkey) (hnew i hi)
  exact (Along.invariant intakeStep_valid hinit h).stockedOnce

namespace Site

def relief : StockItem := ⟨"WATER", false, false, .goods⟩

def intakeCtx : IntakeCtx := ⟨fun _ => relief, fun w => if w = 1 ∨ w = 2 then some true else none⟩

/-- A verified donation of five units of an item that no warehouse has. -/
def donated : IntakeDb :=
  ⟨{ donation := ⟨[⟨1, .verified, 2⟩], by decide⟩
     donationItem := ⟨[⟨1, 1, .goods, 5, 10, some "EA", none, .verified, 1⟩], by decide⟩
     dnintake := .empty
     dnintakeItem := .empty
     itembatch := .empty
     inventory := .empty
     nextBatchId := 1 }, by decide +kernel⟩

/-- Four usable units and a defective one. -/
def arrived : EntryForm :=
  ⟨.day 100, "", false, fun _ => some ⟨"", .blank, .blank, "EA", .value (.finite 10), .value (.finite 4),
    .value (.finite 1), .blank⟩⟩

def confirmed : Nat → VerifyField := fun _ => ⟨none, none, "", .blank, .blank⟩

/-- A draft, its submission, and the verification; what is posted later is refused. -/
def intakeInOrder : List IntakeOp :=
  [.entry 100 1 { arrived with saveDraft := true }, .entry 100 1 arrived, .verify 100 1 confirmed,
    .entry 100 2 arrived, .verify 100 2 confirmed]

/-- Both warehouses enter the donation before it is verified at one of them. -/
def intakeTwice : List IntakeOp :=
  [.entry 100 1 arrived, .entry 100 2 arrived, .verify 100 1 confirmed, .verify 100 2 confirmed]

end Site

theorem donation_stocked_once_site :
    StockedOnce Site.intakeCtx 1 Site.donated (run (intakeStep Site.intakeCtx 1) Site.donated Site.intakeInOrder) :=
  donation_stocked_once Site.intakeCtx 1 Site.donated Site.intakeInOrder (by decide +kernel) (by decide +kernel)
    (by decide +kernel)

/-- Ten units of a donation of five are in the batches and in the totals. -/
theorem donation_stocked_twice :
    Site.donated.tables.status 1 = some .verified ∧ Site.donated.tables.inBatches 1 = 0 ∧
    Site.donated.tables.inInventory 1 = 0 ∧
    (run (intakeStep Site.intakeCtx 1) Site.donated Site.intakeTwice).tables.status 1 = some .processed ∧
    (run (intakeStep Site.intakeCtx 1) Site.donated Site.intakeTwice).tables.inBatches 1 = 10 ∧
    (run (intakeStep Site.intakeCtx 1) Site.donated Site.intakeTwice).tables.inInventory 1 = 10 ∧
    ¬ StockedOnce Site.intakeCtx 1 Site.donated
      (run (intakeStep Site.intakeCtx 1) Site.donated Site.intakeTwice) := by
  refine ⟨by decide +kernel, by decide +kernel, by decide +kernel, by decide +kernel, by decide +kernel,
    by decide +kernel, fun h => ?_⟩
  have hmany : ¬ ((run (intakeStep Site.intakeCtx 1) Site.donated Site.intakeTwice).tables.inBatches 1 -
      Site.donated.tables.inBatches 1 ≤ 5) := by decide +kernel
  exact hmany (h.bound ⟨1, 1, .goods, 5, 10, some "EA", none, .verified, 1⟩ (by decide +kernel) rfl).1

end Dmis
