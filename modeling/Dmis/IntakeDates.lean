import Dmis.IntakePosting

/-!
# Dates of what a verification posts

The entry of an intake asks for the expiry date of an item that can expire, not before the day of the entry nor before
the batch date (`app/features/donation_intake.py:393-416`). The verification, on some later day, checks a date only if
its field is filled (`:744-772`), and looks at no date of the batch it adds to (`:844-850`).

An edited batch date is still held against the expiry date by the constraint on the intake's row. What nobody looks at
again is an expiry date that was entered earlier, and the dates of an existing batch: `verification_fresh`.
-/

namespace Dmis

open Relational Keyed

/-! ## What a verification should post -/

/-- The expiry date an item is posted with. -/
def VerifyField.finalExpiry (f : VerifyField) (i : DonationIntakeItem) : Option Day :=
  match f.expiryDate with
  | .blank => i.expiryDate
  | .malformed => none
  | .day d => some d

/-- `uk_itembatch_1`. -/
def ItemBatch.number (b : ItemBatch) : Nat × Nat × String := (b.inventoryId, b.itemId, b.batchNo)

/-- The earlier of two dates, if there are any. -/
def earliest : Option Day → Option Day → Option Day
  | none, e => e
  | some d, none => some d
  | some d, some e => some (min d e)

/-- Usable on `today`, and not older than its batch. -/
def ItemBatch.Fresh (today : Day) (b : ItemBatch) : Prop :=
  ∃ d ∈ b.expiryDate, today ≤ d ∧ ∀ day ∈ b.batchDate, day ≤ d

instance (today : Day) (b : ItemBatch) : Decidable (b.Fresh today) := by unfold ItemBatch.Fresh; infer_instance

/-- Every batch that is created or added to for an item that can expire is fresh, and expires with the first of what was
merged into it. -/
structure PostsFresh (ctx : IntakeCtx) (donationId : Nat) (today : Day) (inventoryId : Nat) (form : Nat → VerifyField)
    (t t' : IntakeTables) : Prop where
  fresh : ∀ i ∈ t.intakeItems donationId inventoryId, (ctx.items i.itemId).canExpireFlag → ∀ b' ∈ t'.itembatch.rows,
    b'.number = (inventoryId, i.itemId, (form i.itemId).finalBatchNo i) → b'.Fresh today
  earliest : ∀ i ∈ t.intakeItems donationId inventoryId, (ctx.items i.itemId).canExpireFlag → ∀ b ∈ t.itembatch.rows,
    ∀ b' ∈ t'.itembatch.rows, b.number = (inventoryId, i.itemId, (form i.itemId).finalBatchNo i) →
      b'.number = b.number → b'.expiryDate = earliest ((form i.itemId).finalExpiry i) b.expiryDate

def VerifiesFresh (ctx : IntakeCtx) (donationId : Nat) (today : Day) (inventoryId : Nat) (form : Nat → VerifyField)
    (db : IntakeDb) : Prop :=
  ∀ db', db.exec ctx donationId (.verify today inventoryId form) = .ok db' →
    PostsFresh ctx donationId today inventoryId form db.tables db'.tables

/-- The intake has what an entry on `day` left. -/
def EnteredOn (ctx : IntakeCtx) (donationId : Nat) (day : Day) (inventoryId : Nat) (t : IntakeTables) : Prop :=
  ∃ (form : EntryForm) (db db' : IntakeDb), db.exec ctx donationId (.entry day inventoryId form) = .ok db' ∧
    t.intakeItems donationId inventoryId = db'.tables.intakeItems donationId inventoryId

/-- If no expiry date is filled in the entered one has not passed, and the batch that is added to has not expired and
is not younger than either expiry date. -/
def VerifyField.DatesChecked (f : VerifyField) (today : Day) (inventoryId : Nat) (t : IntakeTables) (i : DonationIntakeItem) :
    Prop :=
  (f.expiryDate = .blank → ∀ d ∈ i.expiryDate, today ≤ d) ∧
  ∀ b ∈ t.itembatch.rows, b.number = (inventoryId, i.itemId, f.finalBatchNo i) → (∀ e ∈ b.expiryDate, today ≤ e) ∧
    ∀ day ∈ b.batchDate, (∀ d ∈ f.finalExpiry i, day ≤ d) ∧ ∀ e ∈ b.expiryDate, day ≤ e

def DatesChecked (ctx : IntakeCtx) (donationId : Nat) (today : Day) (inventoryId : Nat) (form : Nat → VerifyField)
    (t : IntakeTables) : Prop :=
  ∀ i ∈ t.intakeItems donationId inventoryId, (ctx.items i.itemId).canExpireFlag →
    (form i.itemId).DatesChecked today inventoryId t i

section
variable {ctx : IntakeCtx} {donationId inventoryId : Nat} {today day : Day} {form : Nat → VerifyField}
  {t t' : IntakeTables} {v : VerifiedItem} {vs : List VerifiedItem} {i : DonationIntakeItem} {b b' : ItemBatch}

theorem receive_expiryDate (e : Option Day) (q : Received) (b : ItemBatch) :
    (b.receive e q).expiryDate = earliest e b.expiryDate := by
  unfold ItemBatch.receive
  cases e with
  | none => simp [earliest]
  | some d =>
    cases hb : b.expiryDate with
    | none => simp [earliest]
    | some d' =>
      simp only [Option.mem_def, Option.some.injEq, exists_eq_left', forall_eq', earliest]
      split_ifs with h
      · rw [min_eq_left h.le]
      · rw [min_eq_right (not_lt.1 h)]

/-! ## The loop -/

/-- Rows of other items are not touched. -/
theorem postItem_select {x : Nat} (hr : Ready (v :: vs) t) (h : postItem v t = .ok t') (hx : v.row.itemId ≠ x) :
    (t'.itembatch.select fun b => b.itemId = x) = (t.itembatch.select fun b => b.itemId = x) ∧
    (t'.dnintakeItem.select fun i => i.itemId = x) = t.dnintakeItem.select fun i => i.itemId = x := by
  simp only [postItem, bind_ok, require_ok, pure_ok] at h
  obtain ⟨items, hitems, rfl⟩ := h
  constructor
  · have hitem : (v.batch t).itemId = v.row.itemId := (batch_cases hr).2.1
    refine Table.select_upsert (decide_eq_false fun he => hx (hitem.symm.trans he)) fun b hb => decide_eq_false fun he => hx ?_
    have hkey := congrArg BatchKey.itemId (Table.key_of_get? hb)
    exact hitem.symm.trans (hkey.symm.trans he)
  · have hkey : ∀ i : DonationIntakeItem, key i = key v.row → i.itemId = v.row.itemId := fun i he =>
      congrArg (fun k : Nat × Nat × Nat × String => k.2.2.1) he
    unfold VerifiedItem.rewrite at hitems
    split_ifs at hitems with hno
    · rw [Table.select_insert hitems (decide_eq_false hx)]
      exact Table.select_deleteWhere fun i hi => decide_eq_false fun he => hx ((hkey i he).symm.trans (of_decide_eq_true hi))
    · cases hitems
      refine Table.select_set (decide_eq_false hx) fun i hi => decide_eq_false fun he => hx ?_
      have hrow : key i = key v.verifiedRow := Table.key_of_get? hi
      exact (congrArg (fun k : Nat × Nat × Nat × String => k.2.2.1) hrow).symm.trans he

/-- The item's own rows: its batch, and its row of the intake. -/
theorem postItem_self (hv : v.row ∈ t.dnintakeItem.rows) (h : postItem v t = .ok t') :
    (v.batch t).receive v.expiryDate v.qty ∈ t'.itembatch.rows ∧ v.verifiedRow ∈ t'.dnintakeItem.rows := by
  simp only [postItem, bind_ok, require_ok, pure_ok] at h
  obtain ⟨items, hitems, rfl⟩ := h
  refine ⟨Table.mem_of_get? (Table.get?_upsert.trans (if_pos rfl)), ?_⟩
  unfold VerifiedItem.rewrite at hitems
  split_ifs at hitems with hno
  · rw [show items.rows = _ from (Table.insert_eq_some.1 hitems).2]
    simp
  · cases hitems
    have hkey : key v.verifiedRow = key v.row := by
      show (v.row.donationId, v.row.inventoryId, v.row.itemId, v.batchNo) = _
      rw [← not_not.1 hno]
      rfl
    exact Table.mem_of_get? (Table.get?_set_of_get? (Table.get?_key hv) hkey)

/-- The existing batch is among the rows of the item. -/
theorem existingBatch_congr
    (h : (t'.itembatch.select fun b => b.itemId = v.row.itemId) = t.itembatch.select fun b => b.itemId = v.row.itemId) :
    v.existingBatch t' = v.existingBatch t := by
  have hfilter : ∀ u : IntakeTables, v.existingBatch u =
      ((u.itembatch.select fun b => b.itemId = v.row.itemId).filter fun b =>
        b.inventoryId = v.row.inventoryId ∧ b.batchNo = v.batchNo).head? := fun u => by
    unfold VerifiedItem.existingBatch Table.select
    rw [List.filter_filter]
    congr 1
    refine List.filter_congr fun b _ => ?_
    simp only [← Bool.decide_and, decide_eq_decide]
    tauto
  rw [hfilter, hfilter, h]

/-- **The loop**, row by row. -/
theorem postItems_rows : ∀ {vs : List VerifiedItem} {t t' : IntakeTables}, Ready vs t →
    (vs.map fun v => v.row.itemId).Nodup → (∀ v ∈ vs, v.row ∈ t.dnintakeItem.rows) → postItems vs t = .ok t' →
    (∀ x, (∀ v ∈ vs, v.row.itemId ≠ x) →
      (t'.itembatch.select fun b => b.itemId = x) = (t.itembatch.select fun b => b.itemId = x) ∧
      (t'.dnintakeItem.select fun i => i.itemId = x) = t.dnintakeItem.select fun i => i.itemId = x) ∧
    ∀ v ∈ vs, (∃ n, ((v.existingBatch t).getD (v.emptyBatch n)).receive v.expiryDate v.qty ∈ t'.itembatch.rows) ∧
      v.verifiedRow ∈ t'.dnintakeItem.rows
  | [], t, t', _, _, _, h => by
    cases h
    exact ⟨fun _ _ => ⟨rfl, rfl⟩, by simp⟩
  | v :: vs, t, t', hr, hn, hrows, h => by
    simp only [postItems, bind_ok] at h
    obtain ⟨t₁, h₁, h⟩ := h
    rw [List.map_cons, List.nodup_cons] at hn
    obtain ⟨hv, hrows⟩ := List.forall_mem_cons.1 hrows
    have hother : ∀ w ∈ vs, w.row.itemId ≠ v.row.itemId := fun w hw he => hn.1 (he ▸ List.mem_map_of_mem hw)
    have hrows₁ : ∀ w ∈ vs, w.row ∈ t₁.dnintakeItem.rows := fun w hw => by
      have hsel := (postItem_select hr h₁ (hother w hw).symm).2
      have hmem : w.row ∈ t.dnintakeItem.select fun i => i.itemId = w.row.itemId :=
        List.mem_filter.2 ⟨hrows w hw, by simp⟩
      rw [← hsel] at hmem
      exact (List.mem_filter.1 hmem).1
    obtain ⟨hsel, hself⟩ := postItems_rows (hr.post hother h₁) hn.2 hrows₁ h
    refine ⟨fun x hx => ?_, fun w hw => ?_⟩
    · obtain ⟨hvx, hx⟩ := List.forall_mem_cons.1 hx
      obtain ⟨hb, hi⟩ := postItem_select hr h₁ hvx
      exact ⟨(hsel x hx).1.trans hb, (hsel x hx).2.trans hi⟩
    · rcases List.mem_cons.1 hw with rfl | hw
      · -- what the first item wrote is not touched by the others
        obtain ⟨hbatch, hrow⟩ := postItem_self hv h₁
        obtain ⟨hb, hi⟩ := hsel w.row.itemId hother
        have hbatch' : (w.batch t).receive w.expiryDate w.qty ∈ t₁.itembatch.select fun b => b.itemId = w.row.itemId :=
          List.mem_filter.2 ⟨hbatch, decide_eq_true (batch_cases hr).2.1⟩
        have hrow' : w.verifiedRow ∈ t₁.dnintakeItem.select fun i => i.itemId = w.row.itemId :=
          List.mem_filter.2 ⟨hrow, decide_eq_true rfl⟩
        rw [← hb] at hbatch'
        rw [← hi] at hrow'
        exact ⟨⟨t.nextBatchId, (List.mem_filter.1 hbatch').1⟩, (List.mem_filter.1 hrow').1⟩
      · have hsame := existingBatch_congr (v := w) (postItem_select hr h₁ (hother w hw).symm).1
        have := hself w hw
        rwa [hsame] at this

/-! ## One item -/

/-- What an accepted verification leaves of an item. -/
structure ItemPosted (ctx : IntakeCtx) (today : Day) (form : Nat → VerifyField) (t t' : IntakeTables)
    (i : DonationIntakeItem) (v : VerifiedItem) (n : Nat) : Prop where
  verified : verifyItem ctx today t form i = .ok v
  batch : (((v.existingBatch t).getD (v.emptyBatch n)).receive v.expiryDate v.qty).rounded ∈ t'.itembatch.rows
  dates : ∀ d ∈ v.expiryDate, v.batchDate ≤ d

theorem exec_verify_items {db db' : IntakeDb} (hn : ((db.tables.intakeItems donationId inventoryId).map (·.itemId)).Nodup)
    (h : db.exec ctx donationId (.verify today inventoryId form) = .ok db')
    (hi : i ∈ db.tables.intakeItems donationId inventoryId) :
    ∃ v n, ItemPosted ctx today form db.tables db'.tables i v n := by
  obtain ⟨t', hroute, hcons, hdb⟩ := exec_intake_ok.1 h
  obtain ⟨vs, t₁, hvs⟩ := verifyIntake_run hroute
  obtain ⟨dnintake, hpost⟩ := hvs.posted
  obtain ⟨donation, -, rfl⟩ := hvs.processed
  obtain ⟨v, hmem, hiv⟩ := hvs.all hn hi
  obtain ⟨-, hself⟩ := postItems_rows (db.ready vs (fun _ => hvs.nonneg) dnintake) (hvs.itemIds ▸ hn) (fun v hv => by
    obtain ⟨j, hj, hjv⟩ := hvs.verified v hv
    rw [(verifyItem_ok hjv).1]
    exact (List.mem_filter.1 hj).1) hpost
  obtain ⟨⟨n, hbatch⟩, hrow⟩ := hself v hmem
  refine ⟨v, n, hiv, ?_, ?_⟩
  · rw [hdb]
    exact List.mem_map_of_mem hbatch
  · exact (hcons.intakeItem _ (List.mem_map_of_mem hrow)).dates

theorem number_unique (hc : t.Consistent) (hb : b ∈ t.itembatch.rows) (hb' : b' ∈ t.itembatch.rows)
    (h : b.number = b'.number) : b = b' := by
  refine List.inj_on_of_nodup_map hc.ukItembatch hb hb' ?_
  simp only [ItemBatch.number, Prod.mk.injEq] at h ⊢
  exact ⟨h.1, h.2.2, h.2.1⟩

/-- The existing batch is the one of the number. -/
theorem existingBatch_eq_some (hc : t.Consistent) :
    v.existingBatch t = some b ↔ b ∈ t.itembatch.rows ∧ b.number = (v.row.inventoryId, v.row.itemId, v.batchNo) := by
  have hiff : ∀ c : ItemBatch, (decide (c.inventoryId = v.row.inventoryId ∧ c.itemId = v.row.itemId ∧
      c.batchNo = v.batchNo) = true) ↔ c.number = (v.row.inventoryId, v.row.itemId, v.batchNo) := fun c => by
    simp only [decide_eq_true_eq, ItemBatch.number, Prod.mk.injEq]
  constructor
  · intro h
    obtain ⟨hm, hp⟩ := List.mem_filter.1 (List.mem_of_mem_head? (Option.mem_def.2 h))
    exact ⟨hm, (hiff b).1 hp⟩
  · rintro ⟨hm, hnum⟩
    have hmem : b ∈ t.itembatch.select fun c => c.inventoryId = v.row.inventoryId ∧ c.itemId = v.row.itemId ∧
        c.batchNo = v.batchNo := List.mem_filter.2 ⟨hm, (hiff b).2 hnum⟩
    cases hx : v.existingBatch t with
    | none => exact absurd hmem (List.head?_eq_none_iff.1 hx ▸ List.not_mem_nil)
    | some c =>
      obtain ⟨hcm, hcp⟩ := List.mem_filter.1 (List.mem_of_mem_head? (Option.mem_def.2 hx))
      rw [number_unique hc hcm hm (((hiff c).1 hcp).trans hnum.symm)]

/-- Fresh means that both expiry dates are late enough. -/
theorem fresh_earliest (today d : Day) (e day : Option Day) :
    (∃ x ∈ earliest (some d) e, today ≤ x ∧ ∀ y ∈ day, y ≤ x) ↔
      today ≤ d ∧ (∀ x ∈ e, today ≤ x) ∧ ∀ y ∈ day, y ≤ d ∧ ∀ x ∈ e, y ≤ x := by
  cases e with
  | none => simp [earliest]
  | some e =>
    simp only [earliest, Option.mem_def, Option.some.injEq, exists_eq_left', forall_eq', le_min_iff, and_assoc]

/-- The expiry date that is posted; a filled one was checked against the day. -/
theorem verifyExpiry_ok {item : StockItem} {batchDate : Day} {f : VerifyField} {e : Option Day}
    (h : verifyExpiry item today i batchDate f.expiryDate = .ok e) :
    e = f.finalExpiry i ∧ (f.expiryDate ≠ .blank → item.canExpireFlag → ∀ d ∈ e, today ≤ d) ∧
    (f.expiryDate = .blank ∨ e ≠ none) := by
  unfold VerifyField.finalExpiry
  cases hf : f.expiryDate with
  | blank =>
    rw [hf] at h
    cases h
    exact ⟨rfl, fun hne => absurd rfl hne, .inl rfl⟩
  | malformed =>
    rw [hf] at h
    cases h
  | day d =>
    rw [hf, verifyExpiry] at h
    split_ifs at h with hpast hbatch
    cases h
    refine ⟨rfl, fun _ hexp d' hd' => ?_, .inr (Option.some_ne_none d)⟩
    cases hd'
    exact not_lt.1 fun hlt => hpast ⟨hexp, hlt⟩

/-- The posted batch has the number of the item. -/
theorem posted_number (n : Nat) (hc : t.Consistent) :
    (((v.existingBatch t).getD (v.emptyBatch n)).receive v.expiryDate v.qty).rounded.number =
      (v.row.inventoryId, v.row.itemId, v.batchNo) := by
  cases hx : v.existingBatch t with
  | none => rfl
  | some b => exact ((existingBatch_eq_some hc).1 hx).2

/-- The entry asked for an expiry date of what can expire. -/
theorem entryExpiry_ok {item : StockItem} {itemId : Nat} {batchDate : Day} {f : DateField} {e : Option Day}
    (h : entryExpiry item day itemId batchDate f = .ok e) (hexp : item.canExpireFlag) : ∃ d, e = some d ∧ day ≤ d := by
  cases f with
  | blank =>
    rw [entryExpiry, if_pos hexp] at h
    cases h
  | malformed =>
    rw [entryExpiry, if_pos hexp] at h
    cases h
  | day d =>
    rw [entryExpiry] at h
    split_ifs at h with hpast hbatch
    cases h
    exact ⟨d, rfl, not_lt.1 fun hlt => hpast ⟨hexp, hlt⟩⟩

theorem EnteredOn.items (h : EnteredOn ctx donationId day inventoryId t) :
    ((t.intakeItems donationId inventoryId).map (·.itemId)).Nodup ∧
    ∀ i ∈ t.intakeItems donationId inventoryId, (ctx.items i.itemId).canExpireFlag → ∃ d, i.expiryDate = some d ∧ day ≤ d := by
  obtain ⟨form, db, db', hexec, hitems⟩ := h
  obtain ⟨t₁, hroute, -, hdb⟩ := exec_intake_ok.1 hexec
  obtain ⟨-, rows, hleft, hrows⟩ := intakeForm_ok hroute
  have hstored : t.intakeItems donationId inventoryId = rows.map DonationIntakeItem.stored := by
    rw [hitems, hdb, ← hleft.items]
    exact intakeItems_rounded _ _
  rw [hstored]
  refine ⟨?_, fun i hi hexp => ?_⟩
  · rw [List.map_map]
    show (rows.map (·.itemId)).Nodup
    rw [hleft.itemIds]
    exact nodup_goodsItems _ ctx donationId
  · obtain ⟨r, hr, rfl⟩ := List.mem_map.1 hi
    obtain ⟨donated, -, e, he, hrow⟩ := hrows r hr
    simp only [IntakeEntry.row?, Option.bind_eq_bind, Option.bind_eq_some_iff, Option.pure_def, Option.some.injEq] at hrow
    obtain ⟨usable, -, defective, -, expired, -, avg, -, rfl⟩ := hrow
    simp only [entryItem, bind_ok, require_ok, check_ok, pure_ok] at he
    obtain ⟨f, -, ⟨batchNo, batchDate⟩, -, expiryDate, hexpiry, -, -, usable', -, defective', -, expired', -, -, -, -, -, avg', -,
      np, -, -, -, rfl⟩ := he
    exact entryExpiry_ok hexpiry hexp

/-! ## The batch of an item -/

/-- It is fresh when its two expiry dates are late enough. -/
theorem ItemPosted.fresh_iff {v : VerifiedItem} {n : Nat} (hp : ItemPosted ctx today form t t' i v n)
    (hc : t.Consistent) (hc' : t'.Consistent) (hw : i.inventoryId = inventoryId) (hexp : (ctx.items i.itemId).canExpireFlag)
    (hsome : i.expiryDate ≠ none) :
    (∀ b' ∈ t'.itembatch.rows, b'.number = (inventoryId, i.itemId, (form i.itemId).finalBatchNo i) → b'.Fresh today) ↔
      (form i.itemId).DatesChecked today inventoryId t i := by
  obtain ⟨-, -, -, -, -, hrow, hno, -, -, hexpiry⟩ := verifyItem_spec hp.verified
  obtain ⟨hfinal, hchecked, hblank⟩ := verifyExpiry_ok hexpiry
  have hnumber : (v.row.inventoryId, v.row.itemId, v.batchNo) =
      ((inventoryId, i.itemId, (form i.itemId).finalBatchNo i) : Nat × Nat × String) := by
    rw [hrow, hno, hw]
  -- a perishable item is posted with some expiry date
  obtain ⟨d, hd⟩ : ∃ d, v.expiryDate = some d := by
    refine Option.ne_none_iff_exists'.1 fun hnone => ?_
    rcases hblank with hblank | hne
    · refine hsome ?_
      rw [← hnone, hfinal, VerifyField.finalExpiry, hblank]
    · exact hne hnone
  have hentered : ((form i.itemId).expiryDate = .blank → ∀ d ∈ i.expiryDate, today ≤ d) ↔ today ≤ d := by
    by_cases hb : (form i.itemId).expiryDate = .blank
    · have hi : i.expiryDate = some d := by
        rw [← hd, hfinal, VerifyField.finalExpiry, hb]
      simp only [hb, hi, Option.mem_def, Option.some.injEq, forall_eq', forall_const]
    · exact ⟨fun _ => hchecked hb hexp d hd, fun _ hblank => absurd hblank hb⟩
  -- the batch of the number is the one that was posted
  have hposted := posted_number (v := v) n hc
  rw [hnumber] at hposted
  have hone : (∀ b' ∈ t'.itembatch.rows, b'.number = (inventoryId, i.itemId, (form i.itemId).finalBatchNo i) →
      b'.Fresh today) ↔ (((v.existingBatch t).getD (v.emptyBatch n)).receive v.expiryDate v.qty).rounded.Fresh today :=
    ⟨fun h => h _ hp.batch hposted, fun h b' hb' hb'no => number_unique hc' hp.batch hb' (hposted.trans hb'no.symm) ▸ h⟩
  rw [hone, VerifyField.DatesChecked, hentered, ← hfinal, hd]
  cases hx : v.existingBatch t with
  | none =>
    have hnone : ∀ b ∈ t.itembatch.rows, b.number ≠ (inventoryId, i.itemId, (form i.itemId).finalBatchNo i) :=
      fun b hb hbno => by
        have := (existingBatch_eq_some hc).2 ⟨hb, hbno.trans hnumber.symm⟩
        rw [hx] at this
        cases this
    have hdates := hp.dates d hd
    refine (fresh_earliest today d none (some v.batchDate)).trans ?_
    constructor
    · exact fun h => ⟨h.1, fun b hb hbno => absurd hbno (hnone b hb)⟩
    · exact fun h => ⟨h.1, by simp, by simp [hdates]⟩
  | some b =>
    obtain ⟨hb, hbno⟩ := (existingBatch_eq_some hc).1 hx
    rw [hnumber] at hbno
    have hfresh : ((b.receive (some d) v.qty).rounded.Fresh today) ↔
        today ≤ d ∧ (∀ x ∈ b.expiryDate, today ≤ x) ∧ ∀ y ∈ b.batchDate, y ≤ d ∧ ∀ x ∈ b.expiryDate, y ≤ x := by
      rw [← fresh_earliest today d, ← receive_expiryDate (some d) v.qty b]
      rfl
    refine hfresh.trans (and_congr_right fun _ => ⟨fun h b₂ hb₂ hb₂no => ?_, fun h => ?_⟩)
    · obtain rfl := number_unique hc hb hb₂ (hbno.trans hb₂no.symm)
      simpa only [Option.mem_def, Option.some.injEq, forall_eq'] using h
    · simpa only [Option.mem_def, Option.some.injEq, forall_eq'] using h b hb hbno

/-- The merge takes the earlier of two expiry dates. -/
theorem ItemPosted.earliest {v : VerifiedItem} {n : Nat} (hp : ItemPosted ctx today form t t' i v n)
    (hc : t.Consistent) (hc' : t'.Consistent) (hw : i.inventoryId = inventoryId) (hb : b ∈ t.itembatch.rows)
    (hbno : b.number = (inventoryId, i.itemId, (form i.itemId).finalBatchNo i)) (hb' : b' ∈ t'.itembatch.rows)
    (hb'no : b'.number = b.number) :
    b'.expiryDate = Dmis.earliest ((form i.itemId).finalExpiry i) b.expiryDate := by
  obtain ⟨-, -, -, -, -, hrow, hno, -, -, hexpiry⟩ := verifyItem_spec hp.verified
  have hnumber : b.number = (v.row.inventoryId, v.row.itemId, v.batchNo) := by
    rw [hbno, hrow, hno, hw]
  have hx : v.existingBatch t = some b := (existingBatch_eq_some hc).2 ⟨hb, hnumber⟩
  have hposted := posted_number (v := v) n hc
  obtain rfl := number_unique hc' hp.batch hb' (hposted.trans (hnumber.symm.trans hb'no.symm))
  rw [← (verifyExpiry_ok hexpiry).1, hx]
  exact receive_expiryDate v.expiryDate v.qty b

end

/-! ## What a verification takes over -/

/-- **What an accepted verification posts is fresh** exactly when the dates that it takes over were late enough. -/
theorem verification_fresh (ctx : IntakeCtx) (donationId : Nat) (day today : Day) (inventoryId : Nat)
    (form : Nat → VerifyField) (db : IntakeDb) (hent : EnteredOn ctx donationId day inventoryId db.tables)
    (hok : (db.exec ctx donationId (.verify today inventoryId form)).isOk) :
    VerifiesFresh ctx donationId today inventoryId form db ↔
      DatesChecked ctx donationId today inventoryId form db.tables := by
  obtain ⟨hn, hentered⟩ := hent.items
  cases hexec : db.exec ctx donationId (.verify today inventoryId form) with
  | error e =>
    rw [hexec] at hok
    cases hok
  | ok db' =>
    have hfresh : VerifiesFresh ctx donationId today inventoryId form db ↔
        PostsFresh ctx donationId today inventoryId form db.tables db'.tables := by
      refine ⟨fun h => h db' hexec, fun h db'' h'' => ?_⟩
      rw [hexec] at h''
      cases h''
      exact h
    have hone : ∀ i ∈ db.tables.intakeItems donationId inventoryId, i.inventoryId = inventoryId := fun i hi =>
      (of_decide_eq_true (List.mem_filter.1 hi).2).2
    have hiff : ∀ i ∈ db.tables.intakeItems donationId inventoryId, (ctx.items i.itemId).canExpireFlag →
        ((∀ b' ∈ db'.tables.itembatch.rows, b'.number = (inventoryId, i.itemId, (form i.itemId).finalBatchNo i) →
          b'.Fresh today) ↔ (form i.itemId).DatesChecked today inventoryId db.tables i) := fun i hi hexp => by
      obtain ⟨v, n, hp⟩ := exec_verify_items hn hexec hi
      obtain ⟨d, hd, -⟩ := hentered i hi hexp
      exact hp.fresh_iff db.consistent db'.consistent (hone i hi) hexp (hd ▸ Option.some_ne_none d)
    rw [hfresh]
    refine ⟨fun h i hi hexp => (hiff i hi hexp).1 (h.fresh i hi hexp), fun h => ⟨fun i hi hexp => ?_, ?_⟩⟩
    · exact (hiff i hi hexp).2 (h i hi hexp)
    · intro i hi _ b hb b' hb' hbno hb'no
      obtain ⟨v, n, hp⟩ := exec_verify_items hn hexec hi
      exact hp.earliest db.consistent db'.consistent (hone i hi) hb hbno hb' hb'no

namespace Site

def perishableCtx : IntakeCtx := { intakeCtx with items := fun _ => { relief with canExpireFlag := true } }

/-- Entered on day 100, with an expiry date ten days later. -/
def perishable : EntryForm :=
  { arrived with fields := fun x => (arrived.fields x).map fun f => { f with expiryDate := .day 110 } }

def enteredPerishable : IntakeDb := intakeStep perishableCtx 1 donated (.entry 100 1 perishable)

theorem enteredPerishable_on (hok : (donated.exec perishableCtx 1 (.entry 100 1 perishable)).isOk) :
    EnteredOn perishableCtx 1 100 1 enteredPerishable.tables := by
  refine ⟨perishable, donated, enteredPerishable, ?_, rfl⟩
  unfold enteredPerishable intakeStep
  cases h : donated.exec perishableCtx 1 (.entry 100 1 perishable) with
  | ok db' => rfl
  | error e =>
    rw [h] at hok
    cases hok

end Site

theorem verification_fresh_site : VerifiesFresh Site.perishableCtx 1 101 1 Site.confirmed Site.enteredPerishable :=
  (verification_fresh Site.perishableCtx 1 100 101 1 Site.confirmed Site.enteredPerishable
    (Site.enteredPerishable_on (by decide +kernel)) (by decide +kernel)).2 fun i hi _ => by
      have hall : ∀ i ∈ Site.enteredPerishable.tables.intakeItems 1 1, ∀ d ∈ i.expiryDate, 101 ≤ d := by decide +kernel
      have hnone : Site.enteredPerishable.tables.itembatch.rows = [] := by decide +kernel
      exact ⟨fun _ => hall i hi, fun b hb => absurd hb (by simp [hnone])⟩

/-- Ten days after they expired, five units are posted as usable. -/
theorem verification_stale :
    (Site.enteredPerishable.tables.intakeItems 1 1).map (fun i => (i.itemId, i.expiryDate)) = [(1, some 110)] ∧
    (Site.enteredPerishable.exec Site.perishableCtx 1 (.verify 120 1 Site.confirmed)).toOption.map (fun db =>
      db.tables.itembatch.rows.map fun b => (b.itemId, b.batchNo, b.usableQty, b.expiryDate)) =
        some [(1, "WATER", 4, some 110)] ∧
    ¬ VerifiesFresh Site.perishableCtx 1 120 1 Site.confirmed Site.enteredPerishable := by
  refine ⟨by decide +kernel, by decide +kernel, fun h => ?_⟩
  have hstale : (Site.enteredPerishable.exec Site.perishableCtx 1 (.verify 120 1 Site.confirmed)).toOption.map (fun db =>
      decide (∀ i ∈ Site.enteredPerishable.tables.intakeItems 1 1, ∃ b ∈ db.tables.itembatch.rows,
        b.number = (1, i.itemId, (Site.confirmed i.itemId).finalBatchNo i) ∧ ¬ b.Fresh 120)) = some true := by
    decide +kernel
  obtain ⟨i, hi⟩ : ∃ i, i ∈ Site.enteredPerishable.tables.intakeItems 1 1 :=
    List.exists_mem_of_ne_nil _ (by decide +kernel)
  cases hexec : Site.enteredPerishable.exec Site.perishableCtx 1 (.verify 120 1 Site.confirmed) with
  | error e =>
    rw [hexec] at hstale
    cases hstale
  | ok db =>
    rw [hexec] at hstale
    obtain ⟨b, hb, hbno, hnot⟩ := of_decide_eq_true (Option.some.inj hstale) i hi
    exact hnot ((h db hexec).fresh i hi rfl b hb hbno)

end Dmis
