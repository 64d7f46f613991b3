import Dmis.DonationForms
import Dmis.IntakeOnce

/-!
# From a verified donation to its intake

What `create_donation` and `verify_donation_detail` let a GOODS row hold (`app/features/donations.py:349-376`,
`:1388-1460`: zero or more) against what `_process_entry_submission` asks of its item
(`app/features/donation_intake.py:340-493`: a usable quantity that is not zero, parts that add up to the stored
quantity).

| here | there |
| --- | --- |
| `createErrors`, `createDonation` | `create_donation` (`:241-450`) |
| `entryFormFor` | a form for a donation, everything usable |

Main theorem `verified_donation_taken_in`: a final submission can pass exactly when every GOODS row of the
verification, as the column rounds it, has more than nothing.
-/

namespace Dmis

open Relational Keyed Python ParamValidation

/-! ## A donation that can be taken in -/

section

variable {ctx : IntakeCtx} {today : Day} {d w : Nat} {form : EntryForm} {t t' : IntakeTables}

/-- Everything has arrived and is usable, in one batch of the day. -/
def entryFieldFor (today : Day) (i : DonationItem) : EntryField :=
  { batchNo := "1"
    batchDate := .day today
    expiryDate := .day today
    uomCode := i.uomCode.getD ""
    avgUnitValue := .value (.finite 1)
    usableQty := .value (.finite i.itemQty)
    defectiveQty := .blank
    expiredQty := .blank }

def entryFormFor (today : Day) (goods : List DonationItem) : EntryForm :=
  { intakeDate := .day today
    commentsText := ""
    saveDraft := false
    fields := fun itemId => (goods.find? fun i => i.itemId = itemId).map (entryFieldFor today) }

/-- The entry of an item in that form. -/
def entryOf (today : Day) (i : DonationItem) : IntakeEntry :=
  { itemId := i.itemId
    batchNo := "1"
    batchDate := today
    expiryDate := some today
    uomCode := i.uomCode.getD ""
    avgUnitValue := .finite 1
    usableQty := .finite i.itemQty
    defectiveQty := .finite 0
    expiredQty := .finite 0 }

/-- What an intake asks of a donation's item: a unit, and something that arrived. -/
structure DonationItem.CanArrive (i : DonationItem) : Prop where
  unit : i.uomCode.getD "" ≠ ""
  qty : 0 < i.itemQty

theorem entryBatch_field (item : StockItem) (i : DonationItem) :
    entryBatch item today i.itemId (entryFieldFor today i) = .ok ("1", today) := by
  cases hb : item.isBatchedFlag with
  | true =>
    simp only [entryBatch, hb, if_true, entryFieldFor, batchDay, lt_irrefl, if_false]
    rfl
  | false =>
    simp [entryBatch, hb, entryFieldFor, batchDay]

theorem entryExpiry_field (item : StockItem) (i : DonationItem) :
    entryExpiry item today i.itemId today (entryFieldFor today i).expiryDate = .ok (some today) := by
  simp [entryExpiry, entryFieldFor]

theorem checkQuantities_usable {itemId : Nat} {q : ℚ} (hq : 0 ≤ q) :
    checkQuantities itemId [.finite q, .finite 0, .finite 0] = .ok () := by
  simp only [checkQuantities, bind_ok, require_ok, check_ok]
  refine ⟨false, ?_, rfl⟩
  simp only [PyDecimal.anyNegative, PyDecimal.negative?, decide_eq_false (not_lt.2 hq), lt_irrefl, decide_false]

theorem entryItem_entryFormFor {goods : List DonationItem} (hn : (goods.map (·.itemId)).Nodup) {i : DonationItem}
    (hi : i ∈ goods) (hok : i.CanArrive) :
    entryItem ctx today (entryFormFor today goods) i = .ok (entryOf today i) := by
  have hfield : (entryFormFor today goods).fields i.itemId = some (entryFieldFor today i) := by
    simp only [entryFormFor, find?_of_nodup_map hn hi, Option.map_some]
  simp only [entryItem, bind_ok, require_ok, check_ok, pure_ok]
  refine ⟨_, hfield, _, entryBatch_field _ i, _, entryExpiry_field _ i, (), hok.unit, .finite i.itemQty, rfl, .finite 0,
    rfl, .finite 0, rfl, (), checkQuantities_usable hok.qty.le, (), ?_, .finite 1, rfl, false, ?_, (), rfl, rfl⟩
  · simpa using hok.qty.ne'
  · simp [PyDecimal.nonpositive?]

theorem duplicateErrors_of_nodup : ∀ {entries : List IntakeEntry} {seen : List (Nat × String)},
    (entries.map IntakeEntry.itemId).Nodup → (∀ e ∈ entries, (e.itemId, e.batchNo) ∉ seen) →
    duplicateErrors seen entries = []
  | [], _, _, _ => rfl
  | e :: es, seen, hn, hnew => by
    rw [List.map_cons, List.nodup_cons] at hn
    have hrest : duplicateErrors ((e.itemId, e.batchNo) :: seen) es = [] := by
      refine duplicateErrors_of_nodup hn.2 fun e' he' hm => ?_
      rcases List.mem_cons.1 hm with heq | hm
      · exact hn.1 (List.mem_map.2 ⟨e', he', congrArg Prod.fst heq⟩)
      · exact hnew e' (List.mem_cons_of_mem e he') hm
    rw [duplicateErrors, if_neg (hnew e List.mem_cons_self), List.nil_append, hrest]

theorem oks_map_ok {α β ε : Type} {f : α → Except ε β} {g : α → β} : ∀ {l : List α}, (∀ a ∈ l, f a = .ok (g a)) →
    oks (l.map f) = l.map g ∧ errors (l.map f) = []
  | [], _ => ⟨rfl, rfl⟩
  | a :: l, h => by
    obtain ⟨hoks, herr⟩ := oks_map_ok fun b hb => h b (List.mem_cons_of_mem a hb)
    have ha := h a List.mem_cons_self
    constructor
    · simp only [List.map_cons, ha, ← hoks]
      rfl
    · simp only [List.map_cons, ha, ← herr]
      rfl

variable (ctx today) in
theorem entryErrors_entryFormFor {goods : List DonationItem} (hn : (goods.map (·.itemId)).Nodup)
    (hok : ∀ i ∈ goods, i.CanArrive) :
    entryErrors ctx today (entryFormFor today goods) goods = [] ∧
      oks (goods.map (entryItem ctx today (entryFormFor today goods))) = goods.map (entryOf today) := by
  obtain ⟨hoks, herr⟩ := oks_map_ok (f := entryItem ctx today (entryFormFor today goods)) (g := entryOf today)
    fun i hi => entryItem_entryFormFor hn hi (hok i hi)
  have hids : (goods.map (entryOf today)).map IntakeEntry.itemId = goods.map (·.itemId) := by
    rw [List.map_map]
    rfl
  refine ⟨?_, hoks⟩
  unfold entryErrors
  simp only [hoks, herr, List.append_eq_nil_iff, List.filterMap_eq_nil_iff]
  refine ⟨⟨⟨⟨?_, trivial⟩, duplicateErrors_of_nodup (hids ▸ hn) (by simp)⟩, fun i hi => ?_⟩, fun i hi => ?_⟩
  · simp [headerErrors, entryFormFor]
  · have htotal : enteredTotal (goods.map (entryOf today)) i.itemId = .finite i.itemQty := by
      have hone : (goods.map (entryOf today)).filter (fun e => e.itemId = i.itemId) = [entryOf today i] := by
        rw [filter_of_nodup_map (hids ▸ hn)]
        have hfind := find?_of_nodup_map (hids ▸ hn) (List.mem_map_of_mem (f := entryOf today) hi)
        rw [show (entryOf today i).itemId = i.itemId from rfl] at hfind
        rw [hfind]
        rfl
      rw [enteredTotal, hone]
      simp [IntakeEntry.total, entryOf, PyDecimal.add]
    rw [mismatchOf, if_pos htotal]
  · rw [missingOf, if_pos]
    rw [hids]
    exact List.mem_map_of_mem hi

variable (today) in
theorem intakeForm_entryFormFor (hstatus : t.status d = some .verified) (hallowed : ctx.warehouses w = some true)
    (hfirst : t.dnintake.get? (d, w) = none) (hok : ∀ i ∈ t.goodsItems ctx d, i.CanArrive) :
    ∃ t', intakeForm ctx today d w (entryFormFor today (t.goodsItems ctx d)) t = .ok t' := by
  have hn := nodup_goodsItems t ctx d
  obtain ⟨herr, hoks⟩ := entryErrors_entryFormFor ctx today hn hok
  obtain ⟨donation, hdonation, hverified⟩ := Option.map_eq_some_iff.1 hstatus
  obtain ⟨rows, hrows⟩ : ∃ rows, ((t.goodsItems ctx d).map (entryOf today)).mapM (·.row? d w) = some rows :=
    exists_mapM fun e he => by
      obtain ⟨i, -, rfl⟩ := List.mem_map.1 he
      exact ⟨_, rfl⟩
  obtain ⟨hids, hown, -, -⟩ := rows_ok hrows
  have hkeys : (rows.map key).Nodup := by
    have hitemIds : rows.map (·.itemId) = (t.goodsItems ctx d).map (·.itemId) := by
      rw [hids, List.map_map]
      rfl
    refine List.Nodup.of_map (fun k : Nat × Nat × Nat × String => k.2.2.1) ?_
    rw [List.map_map]
    exact hitemIds ▸ hn
  obtain ⟨items, hitems⟩ := Table.exists_insertAll
    (t := t.dnintakeItem.deleteWhere fun i => i.donationId = d ∧ i.inventoryId = w) hkeys fun r hr hk => by
      obtain ⟨r', -, hp, hk'⟩ := Table.mem_keys_deleteWhere.1 hk
      obtain ⟨hd, hw⟩ := hown r hr
      have hd' : r'.donationId = d := (congrArg Prod.fst hk').trans hd
      have hw' : r'.inventoryId = w := (congrArg (fun k => k.2.1) hk').trans hw
      simp [hd', hw'] at hp
  simp only [intakeForm, processEntry, bind_ok, require_ok, check_ok, pure_ok]
  refine ⟨_, donation, hdonation, true, hallowed, (), rfl, (), hverified, (), ?_, (), herr, rows, ?_, items, hitems,
    rfl⟩
  · simp [hfirst]
  · rw [hoks]
    exact hrows

/-- A row of an accepted entry has more than nothing. -/
theorem total_pos_of_row {i : DonationItem} {e : IntakeEntry} {r : DonationIntakeItem}
    (h : entryItem ctx today form i = .ok e) (hr : e.row? d w = some r) : 0 < r.qty.total := by
  simp only [entryItem, checkQuantities, bind_ok, require_ok, check_ok, pure_ok] at h
  obtain ⟨f, -, ⟨batchNo, batchDate⟩, -, expiryDate, -, -, -, usable, -, defective, -, expired, -, -,
    ⟨negative, hneg, rfl⟩, -, hzero, avg, -, np, -, -, -, rfl⟩ := h
  simp only [IntakeEntry.row?, Option.bind_eq_bind, Option.bind_eq_some_iff, Option.pure_def, Option.some.injEq] at hr
  obtain ⟨qu, hu, qd, hd, qx, hx, avg, -, rfl⟩ := hr
  have hfinite : ∀ {d : PyDecimal} {q : ℚ}, d.finite? = some q → d = .finite q := fun {d q} h => by
    rcases d with _ | _ | _ <;> cases h
    rfl
  obtain rfl := hfinite hu
  obtain rfl := hfinite hd
  obtain rfl := hfinite hx
  have h1 : 0 ≤ qu := anyNegative_ok hneg (by simp)
  have h2 : 0 ≤ qd := anyNegative_ok hneg (by simp)
  have h3 : 0 ≤ qx := anyNegative_ok hneg (by simp)
  have hpos : 0 < qu := h1.lt_of_ne fun he => hzero (by rw [← he])
  show 0 < qu + qd + qx
  linarith

/-- **What an intake takes**: items that have more than nothing. -/
theorem qty_pos_of_intakeForm (h : intakeForm ctx today d w form t = .ok t') :
    ∀ i ∈ t.goodsItems ctx d, 0 < i.itemQty := by
  intro i hi
  obtain ⟨-, rows, hleft, hfrom⟩ := intakeForm_ok h
  have hpos : ∀ r ∈ rows, 0 < r.qty.total := fun r hr => by
    obtain ⟨i', -, e, he, hrow⟩ := hfrom r hr
    exact total_pos_of_row he hrow
  have hmem : i.itemId ∈ rows.map (·.itemId) := hleft.itemIds ▸ List.mem_map_of_mem hi
  obtain ⟨r, hr, hri⟩ := List.mem_map.1 hmem
  rw [← hleft.total i hi]
  have hle := List.single_le_sum (l := rows.map fun r => if r.itemId = i.itemId then r.qty.total else 0)
    (fun x hx => by
      obtain ⟨r', hr', rfl⟩ := List.mem_map.1 hx
      split_ifs
      · exact (hpos r' hr').le
      · exact le_rfl) _ (List.mem_map_of_mem hr)
  rw [if_pos hri] at hle
  exact (hpos r hr).trans_le hle

theorem intake_possible_iff (hstatus : t.status d = some .verified) (hallowed : ctx.warehouses w = some true)
    (hfirst : t.dnintake.get? (d, w) = none) (hunit : ∀ i ∈ t.goodsItems ctx d, i.uomCode.getD "" ≠ "") :
    (∃ form t', form.saveDraft = false ∧ intakeForm ctx today d w form t = .ok t') ↔
      ∀ i ∈ t.goodsItems ctx d, 0 < i.itemQty := by
  constructor
  · rintro ⟨form, t', -, h⟩
    exact qty_pos_of_intakeForm h
  · intro h
    obtain ⟨t', ht'⟩ := intakeForm_entryFormFor today hstatus hallowed hfirst
      fun i hi => ⟨hunit i hi, h i hi⟩
    exact ⟨_, t', rfl, ht'⟩

end

/-! ## Creation -/

/-- `create_donation`: comparing a NaN raises inside the `try`. -/
def createQuantityErrors (f : ItemField) : List String :=
  let negative := "Quantity must be >= 0 for item #" ++ f.num
  match f.quantity with
  | .blank => ["Quantity is required for item #" ++ f.num]
  | .malformed | .value .nan => ["Invalid quantity for item #" ++ f.num]
  | .value (.finite q) => errorIf (q < 0) negative
  | .value (.infinity neg) => errorIf neg negative

def createCostErrors (f : ItemField) : List String :=
  let negative := "Item cost must be >= 0 for item #" ++ f.num
  match f.itemCost with
  | .blank | .malformed | .value .nan => ["Invalid item cost for item #" ++ f.num]
  | .value (.finite q) => errorIf (q < 0) negative
  | .value (.infinity neg) => errorIf neg negative

def createErrors (form : DonationForm) : List String :=
  form.otherErrors ++
  rowErrors (fun f => typeErrors f ++ createQuantityErrors f ++ createCostErrors f ++ unitErrors f) [] form.items ++
  noItemErrors form.items

/-- The second pass of `create_donation`, over `item_data`. -/
def RowEntry.persistErrors (e : RowEntry) : List String :=
  if e.quantity < 0 then ["Donation items must have quantity >= 0"]
  else
    match e.donationType with
    | .funds => errorIf (e.itemCost ≤ 0) "FUNDS donations must have item cost greater than 0.00"
    | .goods => errorIf (e.itemCost < 0) "GOODS donations cannot have negative item cost"

/-- The items of a new donation. -/
def createDonation (upper : String → String) (cat : Catalogue) (post : ItemsPost) : Option (Table ItemRow) :=
  if createErrors (post.form upper) = [] then do
    let itemData ← post.fields.itemData upper
    if itemData.flatMap RowEntry.persistErrors = [] then do
      let t ← Table.insertAll (itemData.map fun e => e.row (upper e.locationName) .pending) .empty
      if ∀ i ∈ t.rows, i.Check cat then some t else none
    else none
  else none

/-! ## The items of a verified donation -/

/-- A post created the donation, another verified it. -/
def CreatedAndVerified (upper : String → String) (cat : Catalogue) (created : ItemsPost) (donation : Donation)
    (verified : ItemsPost) (items : Table ItemRow) : Prop :=
  ∃ entered, createDonation upper cat created = some entered ∧
    verifyDonationDetail upper cat donation verified entered = some items

/-- The two models of a row of `donation_item`. -/
structure ItemRow.Is (r : ItemRow) (i : DonationItem) : Prop where
  itemId : r.itemId = i.itemId
  donationType : r.donationType = i.donationType
  itemQty : r.itemQty = i.itemQty
  itemCost : r.itemCost = i.itemCost
  uomCode : r.uomCode = i.uomCode
  currencyCode : r.currencyCode = i.currencyCode
  statusCode : r.statusCode = i.statusCode

/-- The table holds these items of the donation. -/
structure HoldsItems (donationId : Nat) (items : Table ItemRow) (t : IntakeTables) : Prop where
  rows : ∀ i ∈ t.donationItem.rows, i.donationId = donationId → ∃ r ∈ items.rows, r.Is i
  all : ∀ r ∈ items.rows, ∃ i ∈ t.donationItem.rows, i.donationId = donationId ∧ r.Is i

/-- The intake and the forms read one catalogue. -/
def SameCatalogue (cat : Catalogue) (ctx : IntakeCtx) : Prop :=
  ∀ n ∈ cat.items, cat.category n = some (ctx.items n).categoryType

theorem donationType_of_text {f : ItemField} {c : DonationType} (h : c.text = f.typeText) :
    f.donationType = some c := by
  unfold ItemField.donationType
  rw [← h]
  cases c <;> rfl

section

variable {upper : String → String} {cat : Catalogue} {created verified : ItemsPost} {donation : Donation}
  {entered items : Table ItemRow} {itemData : List RowEntry}

/-- What the checks of the verification say of an entry. -/
structure EntryChecked (cat : Catalogue) (e : RowEntry) : Prop where
  category : ∀ n : ℕ, e.itemId = n → ∀ c, cat.category n = some c → e.donationType = c
  unit : e.donationType = .goods → e.uomCode.getD "" ≠ ""

theorem checked_of_verifyErrors {post : ItemsPost} (h : verifyErrors cat.category (post.form upper) = []) {k : String}
    (hk : k ∈ post.fields.rowKeys) {e : RowEntry}
    (he : (rowAt post.fields (itemNum k) 0).verifyEntry upper = some e) : EntryChecked cat e := by
  obtain ⟨hid, htype, -, -, huom, -, -, -⟩ := FormRow.entry_some he
  unfold verifyErrors at h
  simp only [List.append_eq_nil_iff] at h
  obtain ⟨hitem, hrow⟩ := mem_rowKeys.1 hk
  have hone := rowErrors_one h.1.2 _ (List.mem_map_of_mem hitem) hrow
  simp only [List.append_eq_nil_iff] at hone
  obtain ⟨⟨-, hunit⟩, hmismatch⟩ := hone
  constructor
  · intro n hn c hc
    have hvalue : ((rowAt post.fields (itemNum k) 0).field upper (itemNum k)).itemId.value = some n := by
      show (rowAt post.fields (itemNum k) 0).id?.bind _ = _
      rw [hid, hn]
      simp
    unfold mismatchErrors at hmismatch
    rw [hvalue, Option.bind_some, hc] at hmismatch
    have htext : c.text = ((rowAt post.fields (itemNum k) 0).field upper (itemNum k)).typeText := by
      by_contra hne
      simp [errorIf, hne] at hmismatch
    exact Option.some.inj (htype.symm.trans (donationType_of_text htext))
  · intro hgoods
    unfold unitErrors at hunit
    rw [show ((rowAt post.fields (itemNum k) 0).field upper (itemNum k)).donationType = some .goods from
      hgoods ▸ htype] at hunit
    rw [huom, if_pos hgoods]
    intro hblank
    have hfield : ((rowAt post.fields (itemNum k) 0).field upper (itemNum k)).uomCode = "" := hblank
    simp [errorIf, hfield] at hunit

/-- An entry that no later one overwrites. -/
def LastEntry (itemData : List RowEntry) (e : RowEntry) : Prop :=
  ∃ pre post, itemData = pre ++ e :: post ∧ e.itemId ∉ post.map RowEntry.itemId

/-- **The rows a verification leaves** are the rows of the last entries of their items. -/
theorem verified_rows (h : verifyDonationDetail upper cat donation verified entered = some items) :
    ∃ itemData, verified.fields.itemData upper = some itemData ∧
      (∀ r ∈ items.rows, ∃ e, LastEntry itemData e ∧ r = e.row (upper e.locationName) .verified) ∧
      ∀ e, LastEntry itemData e → e.row (upper e.locationName) .verified ∈ items.rows ∧ EntryChecked cat e ∧
        ∃ n ∈ cat.items, e.itemId = n := by
  unfold verifyDonationDetail at h
  split_ifs at h
  have herr : verifyErrors cat.category (verified.form upper) = [] := by
    unfold storeItems at h
    split_ifs at h with herr
    exact herr
  obtain ⟨itemData, hacc⟩ := storeItems_accepted (verifyWrite_writes upper) texts_of_verify h
  have hlast : ∀ e, LastEntry itemData e → items.get? e.itemId = some (e.row (upper e.locationName) .verified) := by
    rintro e ⟨pre, post, he, hp⟩
    obtain ⟨o, ho⟩ := hacc.last pre e post he hp
    exact ho
  refine ⟨itemData, hacc.parsed, fun r hr => ?_, fun e he => ?_⟩
  · obtain ⟨e₀, he₀, hid₀⟩ := hacc.entry_of_row hr
    obtain ⟨pre, e, post, he, hid, hp⟩ := exists_last (List.mem_map.2 ⟨e₀, he₀, hid₀⟩)
    have hle : LastEntry itemData e := ⟨pre, post, he, by rwa [hid]⟩
    have hrow := hlast e hle
    rw [hid] at hrow
    have hself : items.get? r.itemId = some r := Table.get?_key hr
    exact ⟨e, hle, Option.some.inj (hself.symm.trans hrow)⟩
  · have hr := Table.mem_of_get? (hlast e he)
    obtain ⟨pre, post, rfl, -⟩ := he
    obtain ⟨k, hk, hke⟩ := exists_of_forall₂_right hacc.entries e (by simp)
    exact ⟨hr, checked_of_verifyErrors herr hk hke, (hacc.check _ hr).item⟩

/-- **From a verified donation to its intake.** -/
theorem verified_donation_taken_in {ctx : IntakeCtx} {today : Day} {inventoryId : Nat} {t : IntakeTables}
    (h : CreatedAndVerified upper cat created donation verified items) (hcat : SameCatalogue cat ctx)
    (hitems : HoldsItems donation.donationId items t) (hstatus : t.status donation.donationId = some .verified)
    (heligible : ctx.warehouses inventoryId = some true)
    (hfirst : t.dnintake.get? (donation.donationId, inventoryId) = none) :
    (∃ form t', form.saveDraft = false ∧ intakeForm ctx today donation.donationId inventoryId form t = .ok t') ↔
      ∀ itemData e, verified.fields.itemData upper = some itemData → LastEntry itemData e → e.donationType = .goods →
        0 < numeric 2 e.quantity := by
  obtain ⟨entered, -, hverify⟩ := h
  obtain ⟨itemData, hdata, hrows, hlast⟩ := verified_rows hverify
  -- the category of an item is the type of its entry
  have htype : ∀ e i, LastEntry itemData e → (e.row (upper e.locationName) .verified).Is i →
      e.donationType = (ctx.items i.itemId).categoryType := fun e i he his => by
    obtain ⟨-, hchecked, n, hn, hid⟩ := hlast e he
    have hni : n = i.itemId := by exact_mod_cast hid.symm.trans his.itemId
    exact hchecked.category n hid _ (hni ▸ hcat n hn)
  have hgoods : ∀ i ∈ t.goodsItems ctx donation.donationId, ∃ e, LastEntry itemData e ∧
      (e.row (upper e.locationName) .verified).Is i ∧ e.donationType = .goods := fun i hi => by
    obtain ⟨hi, hp⟩ := List.mem_filter.1 hi
    obtain ⟨hd, hg⟩ := of_decide_eq_true hp
    obtain ⟨r, hr, his⟩ := hitems.rows i hi hd
    obtain ⟨e, he, rfl⟩ := hrows r hr
    exact ⟨e, he, his, (htype e i he his).trans hg⟩
  have hunit : ∀ i ∈ t.goodsItems ctx donation.donationId, i.uomCode.getD "" ≠ "" := fun i hi => by
    obtain ⟨e, he, his, hg⟩ := hgoods i hi
    rw [← his.uomCode]
    exact (hlast e he).2.1.unit hg
  rw [intake_possible_iff hstatus heligible hfirst hunit]
  constructor
  · intro hpos itemData' e hdata' he hg
    obtain rfl : itemData = itemData' := Option.some.inj (hdata.symm.trans hdata')
    obtain ⟨i, hi, hd, his⟩ := hitems.all _ (hlast e he).1
    have hmem : i ∈ t.goodsItems ctx donation.donationId :=
      List.mem_filter.2 ⟨hi, decide_eq_true ⟨hd, (htype e i he his).symm.trans hg⟩⟩
    have hqty := hpos i hmem
    rwa [← his.itemQty] at hqty
  · intro hpos i hi
    obtain ⟨e, he, his, hg⟩ := hgoods i hi
    rw [← his.itemQty]
    exact hpos itemData e hdata he hg

end

namespace Site

/-- The tables after the verification of `quantity` units. -/
def verifiedTables (quantity : ℚ) : IntakeTables :=
  { donation := ⟨[⟨1, .verified, 4⟩], by simp⟩
    donationItem := ⟨[⟨1, 7, .goods, quantity, 25 / 2, some "EA", none, .verified, 2⟩], by simp⟩
    dnintake := .empty
    dnintakeItem := .empty
    itembatch := .empty
    inventory := .empty
    nextBatchId := 1 }

theorem holdsItems (quantity : ℚ) :
    HoldsItems 1 (DonationFormSite.after quantity .verified) (verifiedTables quantity) := by
  constructor
  · intro i hi _
    obtain rfl := List.mem_singleton.1 hi
    exact ⟨_, List.mem_singleton_self _, ⟨rfl, rfl, rfl, rfl, rfl, rfl, rfl⟩⟩
  · intro r hr
    obtain rfl := List.mem_singleton.1 hr
    exact ⟨_, List.mem_singleton_self _, rfl, ⟨rfl, rfl, rfl, rfl, rfl, rfl, rfl⟩⟩

theorem createdAndVerified_five : CreatedAndVerified String.toUpper DonationFormSite.cat (DonationFormSite.post "5")
    DonationFormSite.entered (DonationFormSite.post "5") (DonationFormSite.after 5 .verified) :=
  ⟨DonationFormSite.after 5 .pending, by decide +kernel, by decide +kernel⟩

theorem createdAndVerified_zero : CreatedAndVerified String.toUpper DonationFormSite.cat (DonationFormSite.post "0")
    DonationFormSite.entered (DonationFormSite.post "0") (DonationFormSite.after 0 .verified) :=
  ⟨DonationFormSite.after 0 .pending, by decide +kernel, by decide +kernel⟩

theorem sameCatalogue : SameCatalogue DonationFormSite.cat intakeCtx := fun _ _ => rfl

end Site

theorem verified_donation_taken_in_site :
    ∃ form t', form.saveDraft = false ∧ intakeForm Site.intakeCtx 100 1 2 form (Site.verifiedTables 5) = .ok t' :=
  (verified_donation_taken_in Site.createdAndVerified_five Site.sameCatalogue (Site.holdsItems 5) rfl rfl rfl).2
    fun itemData e hdata he _ => by
      have hone : (DonationFormSite.fields "5").itemData String.toUpper =
          some [⟨7, .goods, 5, 25 / 2, some "EA", none, "shelf", true⟩] := by decide +kernel
      obtain rfl := Option.some.inj (hone.symm.trans hdata)
      obtain ⟨pre, post, heq, -⟩ := he
      have hmem : e ∈ [(⟨7, .goods, 5, 25 / 2, some "EA", none, "shelf", true⟩ : RowEntry)] := heq ▸ by simp
      rw [List.mem_singleton.1 hmem]
      decide +kernel

/-- **Nothing of an item is donated, accepted and verified**, and no intake takes it. -/
theorem empty_donation_verified :
    CreatedAndVerified String.toUpper DonationFormSite.cat (DonationFormSite.post "0") DonationFormSite.entered
      (DonationFormSite.post "0") (DonationFormSite.after 0 .verified) ∧
    HoldsItems 1 (DonationFormSite.after 0 .verified) (Site.verifiedTables 0) ∧
    (Site.verifiedTables 0).status 1 = some .verified ∧ Site.intakeCtx.warehouses 1 = some true ∧
    ∀ today inventoryId, ¬ ∃ form t',
      intakeForm Site.intakeCtx today 1 inventoryId form (Site.verifiedTables 0) = .ok t' := by
  refine ⟨Site.createdAndVerified_zero, Site.holdsItems 0, rfl, rfl, fun today inventoryId => ?_⟩
  rintro ⟨form, t', h⟩
  have hpos := qty_pos_of_intakeForm h ⟨1, 7, .goods, 0, 25 / 2, some "EA", none, .verified, 2⟩ (by decide +kernel)
  exact lt_irrefl _ hpos

end Dmis
