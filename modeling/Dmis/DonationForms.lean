import Dmis.ParamValidation
import Dmis.Lib.Lists

/-!
# The item rows of the donation forms

How `edit_donation` and `verify_donation_detail` find the item rows in the posted fields, and what they leave in
`donation_item`. Both pages walk over the field names, take the number after the last underscore of `item_id_…`,
read the first value of every field with that number, refuse a row whose item id was there before as a text, and
write the rows in that order.

| here | there |
| --- | --- |
| `FormData.itemKeys`, `itemNum`, `rowAt` | `for key in request.form.keys()`, `key.split('_')[-1]`, `request.form.get` |
| `ItemRow.Check` | the columns and the keys of `donation_item` |
| `editWrite`, `editDonation` | `edit_donation` (`:707-771`, `:818-868`) |
| `verifyWrite`, `verifyDonationDetail` | `verify_donation_detail` (`:1388-1460`, `:1494-1543`) |

The database checks the rows as the commit finds them; a check that an earlier flush makes refuses only more.

Main theorem `stored_items_are_submitted`: the rows in the table are the rows in the form, one for one, exactly when
every row with an item id is the one its number leads to, no two of them name one item, none that is marked as
existing has vanished, and the amounts fit their columns.
-/

namespace Dmis

open Relational Keyed Python ParamValidation

/-! ## Posted fields -/

/-- `request.form`: the posted fields in order, names repeated. -/
abbrev FormData := List (String × String)

namespace FormData

/-- `request.form.getlist(name)`. -/
def getlist (form : FormData) (name : String) : List String := (form.filter fun f => f.1 = name).map Prod.snd

/-- `request.form.keys()`. -/
def keys (form : FormData) : List String := (form.map Prod.fst).eraseDups

end FormData

/-- A row of the form; the `j`-th row of a number has the `j`-th value of every field. -/
structure FormRow where
  /-- Empty without the field. -/
  itemId : String
  donationType : Option String
  quantity : Option String
  itemCost : Option String
  uomId : Option String
  currencyCode : Option String
  locationName : Option String
  isExisting : Option String
  deriving DecidableEq, Repr

def rowAt (form : FormData) (num : String) (j : ℕ) : FormRow :=
  { itemId := ((form.getlist ("item_id_" ++ num))[j]?).getD ""
    donationType := (form.getlist ("donation_type_" ++ num))[j]?
    quantity := (form.getlist ("quantity_" ++ num))[j]?
    itemCost := (form.getlist ("item_cost_" ++ num))[j]?
    uomId := (form.getlist ("uom_id_" ++ num))[j]?
    currencyCode := (form.getlist ("currency_code_" ++ num))[j]?
    locationName := (form.getlist ("location_name_" ++ num))[j]?
    isExisting := (form.getlist ("is_existing_" ++ num))[j]? }

/-- `key.split('_')[-1]`. -/
def itemNum (key : String) : String := String.ofList (key.toList.rtakeWhile (· ≠ '_'))

/-- The names that start with `item_id_`. -/
def FormData.itemKeys (form : FormData) : List String :=
  form.keys.filter fun k => "item_id_".toList.isPrefixOf k.toList

/-- The names whose row has an item id. -/
def FormData.rowKeys (form : FormData) : List String :=
  form.itemKeys.filter fun k => (rowAt form (itemNum k) 0).itemId ≠ ""

/-! ## Rows in the form -/

namespace FormRow

/-- `int(item_id)`. -/
def id? (r : FormRow) : Option ℤ := intOf? r.itemId.toList

def amountField : Option String → AmountField
  | none | some "" => .blank
  | some t =>
    match decimal? t.toList with
    | some d => .value d
    | none => .malformed

/-- What the checks of `Dmis.Donations` look at. -/
def field (upper : String → String) (num : String) (r : FormRow) : ItemField :=
  { num := num
    itemId := { text := r.itemId, value := r.id?.bind fun n => if 0 ≤ n then some n.toNat else none }
    typeText := upper (r.donationType.getD "GOODS")
    quantity := amountField r.quantity
    itemCost := amountField (some (r.itemCost.getD "0.00"))
    uomCode := r.uomId.getD ""
    currencyCode := r.currencyCode.getD ""
    isExisting := r.isExisting = some "true" }

/-- `location_name.strip()`. -/
def location (r : FormRow) : String := String.ofList (strip (r.locationName.getD "DONATION RECEIVED").toList)

end FormRow

/-- An entry of `item_data`. -/
structure RowEntry where
  itemId : ℤ
  donationType : DonationType
  quantity : ℚ
  itemCost : ℚ
  uomCode : Option String
  currencyCode : Option String
  locationName : String
  isExisting : Bool
  deriving DecidableEq, Repr

/-- The entry of a row; the loop over `item_data` sets a fund's quantity to one. -/
def FormRow.entry (upper : String → String) (quantity itemCost : Option ℚ) (r : FormRow) : Option RowEntry := do
  let id ← r.id?
  let type ← (r.field upper "").donationType
  let q ← quantity
  let cost ← itemCost
  pure
    { itemId := id
      donationType := type
      quantity := if type = .funds then 1 else q
      itemCost := cost
      uomCode := if type = .goods then r.uomId else none
      currencyCode := if type = .funds then r.currencyCode else none
      locationName := r.location
      isExisting := r.isExisting = some "true" }

/-! ## Rows in the table -/

/-- The `donation_item` rows of one donation. -/
structure ItemRow where
  itemId : ℤ
  donationType : DonationType
  itemQty : ℚ
  itemCost : ℚ
  uomCode : Option String
  currencyCode : Option String
  locationName : String
  statusCode : DonationItemStatus
  deriving DecidableEq, Repr

instance : Keyed ItemRow ℤ := ⟨ItemRow.itemId⟩

/-- The tables the keys of `donation_item` point to. -/
structure Catalogue where
  items : List ℕ
  /-- The `category_type` of an item. -/
  category : Nat → Option DonationType
  units : List String
  currencies : List String

/-- `numeric(9, 2)`, `numeric(10, 2)`, the check constraints and the foreign keys. -/
structure ItemRow.Check (cat : Catalogue) (i : ItemRow) : Prop where
  item : ∃ n ∈ cat.items, i.itemId = n
  qty : 0 ≤ i.itemQty ∧ i.itemQty < 10 ^ 7
  cost : 0 ≤ i.itemCost ∧ i.itemCost < 10 ^ 8
  uom : ∀ u ∈ i.uomCode, u ∈ cat.units
  currency : ∀ c ∈ i.currencyCode, c ∈ cat.currencies

instance (cat : Catalogue) : DecidablePred (ItemRow.Check cat) := fun i =>
  decidable_of_iff ((∃ n ∈ cat.items, i.itemId = n) ∧ (0 ≤ i.itemQty ∧ i.itemQty < 10 ^ 7) ∧
      (0 ≤ i.itemCost ∧ i.itemCost < 10 ^ 8) ∧ (∀ u ∈ i.uomCode, u ∈ cat.units) ∧
      ∀ c ∈ i.currencyCode, c ∈ cat.currencies)
    ⟨fun ⟨h1, h2, h3, h4, h5⟩ => ⟨h1, h2, h3, h4, h5⟩, fun ⟨h1, h2, h3, h4, h5⟩ => ⟨h1, h2, h3, h4, h5⟩⟩

/-- The row both pages write for an entry. -/
def RowEntry.row (e : RowEntry) (locationName : String) (status : DonationItemStatus) : ItemRow :=
  { itemId := e.itemId
    donationType := e.donationType
    itemQty := numeric 2 e.quantity
    itemCost := numeric 2 e.itemCost
    uomCode := e.uomCode
    currencyCode := e.currencyCode
    locationName := locationName
    statusCode := status }

/-- `item_info['location_name'].upper()`, or the default. -/
def RowEntry.editLocation (upper : String → String) (e : RowEntry) : String :=
  if e.locationName = "" then "DONATION RECEIVED" else upper e.locationName

/-- `edit_donation`: an entry marked as existing updates its row, if there is one; any other is inserted. -/
def editWrite (upper : String → String) (e : RowEntry) (t : Table ItemRow) : Option (Table ItemRow) :=
  if e.isExisting then
    match t.get? e.itemId with
    | some i => some (t.set (e.row (e.editLocation upper) i.statusCode))
    | none => some t
  else t.insert (e.row (e.editLocation upper) .pending)

/-- `verify_donation_detail`: an entry updates its row or inserts one. -/
def verifyWrite (upper : String → String) (e : RowEntry) (t : Table ItemRow) : Option (Table ItemRow) :=
  some (t.upsert (e.row (upper e.locationName) .verified))

/-! ## The two pages -/

/-- A post of one of the pages. -/
structure ItemsPost where
  versionNbr : VersionField
  /-- What the checks of the header fields and of the uploaded documents found. -/
  otherErrors : List String
  fields : FormData

/-- The form the checks of `Dmis.Donations` are about. -/
def ItemsPost.form (upper : String → String) (post : ItemsPost) : DonationForm :=
  { versionNbr := post.versionNbr
    otherErrors := post.otherErrors
    items := post.fields.itemKeys.map fun k => (rowAt post.fields (itemNum k) 0).field upper (itemNum k) }

/-- The two pages: `none` when the post is turned away. -/
def storeItems (errors : List String) (entry : FormRow → Option RowEntry)
    (write : RowEntry → Table ItemRow → Option (Table ItemRow)) (cat : Catalogue) (form : FormData)
    (t : Table ItemRow) : Option (Table ItemRow) :=
  if errors = [] then do
    let itemData ← form.rowKeys.mapM fun k => entry (rowAt form (itemNum k) 0)
    let kept := t.deleteWhere fun i => i.itemId ∉ itemData.map RowEntry.itemId
    let t' ← itemData.foldlM (fun t e => write e t) kept
    if ∀ i ∈ t'.rows, i.Check cat then some t' else none
  else none

def FormRow.editEntry (upper : String → String) (r : FormRow) : Option RowEntry :=
  let f := r.field upper ""
  r.entry upper (Dmis.safeQuantity f.quantity.decimal?).toOption (Dmis.safeAmount f.itemCost.decimal?).toOption

def FormRow.verifyEntry (upper : String → String) (r : FormRow) : Option RowEntry :=
  let f := r.field upper ""
  r.entry upper f.quantity.finite? f.itemCost.finite?

/-- `item_data` of the verification. -/
def FormData.itemData (upper : String → String) (form : FormData) : Option (List RowEntry) :=
  form.rowKeys.mapM fun k => (rowAt form (itemNum k) 0).verifyEntry upper

def editDonation (upper : String → String) (cat : Catalogue) (donation : Donation) (post : ItemsPost)
    (t : Table ItemRow) : Option (Table ItemRow) :=
  if donation.statusCode ≠ .verified ∧ donation.statusCode ≠ .processed ∧
      safeVersionNumber post.versionNbr = donation.versionNbr then
    storeItems (editErrors (post.form upper)) (·.editEntry upper) (editWrite upper) cat post.fields t
  else none

def verifyDonationDetail (upper : String → String) (cat : Catalogue) (donation : Donation) (post : ItemsPost)
    (t : Table ItemRow) : Option (Table ItemRow) :=
  if donation.statusCode = .entered ∧ post.versionNbr = .num donation.versionNbr then
    storeItems (verifyErrors cat.category (post.form upper)) (·.verifyEntry upper) (verifyWrite upper) cat post.fields t
  else none

/-! ## What the form says -/

namespace FormRow

/-- The quantity typed; a fund is one. -/
def typedQty (upper : String → String) (r : FormRow) : Option ℚ :=
  if (r.field upper "").donationType = some .funds then some 1 else (amountField r.quantity).finite?

/-- The cost typed, zero where none is. -/
def typedCost (r : FormRow) : Option ℚ :=
  let t := r.itemCost.getD "0.00"
  if strip t.toList = [] then some 0 else (amountField (some t)).finite?

end FormRow

/-- The row of the table carries what the row of the form says. -/
structure Carries (upper : String → String) (i : ItemRow) (r : FormRow) : Prop where
  type : (r.field upper "").donationType = some i.donationType
  qty : r.typedQty upper = some i.itemQty
  cost : r.typedCost = some i.itemCost
  unit : i.uomCode = if i.donationType = .goods then r.uomId else none
  currency : i.currencyCode = if i.donationType = .funds then r.currencyCode else none
  location : i.locationName = upper r.location ∨ r.location = "" ∧ i.locationName = "DONATION RECEIVED"

/-- The `j`-th row of a number has an item id. -/
def RowSubmitted (form : FormData) (num : String) (j : ℕ) : Prop := (rowAt form num j).itemId ≠ ""

/-- The table holds one row for each row of the form, and no other. -/
structure StoredAsSubmitted (upper : String → String) (form : FormData) (t : Table ItemRow) : Prop where
  carried : ∀ num j, RowSubmitted form num j → ∃ i ∈ t.rows, (rowAt form num j).id? = some i.itemId ∧
    Carries upper i (rowAt form num j)
  apart : ∀ num j num' j', RowSubmitted form num j → RowSubmitted form num' j' →
    (rowAt form num j).id? = (rowAt form num' j').id? → num = num' ∧ j = j'
  only : ∀ i ∈ t.rows, ∃ num j, RowSubmitted form num j ∧ (rowAt form num j).id? = some i.itemId

/-- A number with at most two decimals, not negative. -/
def Fits (q : Option ℚ) : Prop := ∃ x, q = some x ∧ 0 ≤ x ∧ AtScale 2 x

/-- The forms whose rows can be told apart, with amounts that fit their columns. -/
structure PlainRows (upper : String → String) (form : FormData) : Prop where
  first : ∀ num j, RowSubmitted form num j → j = 0 ∧ '_' ∉ num.toList
  apart : ∀ num num', RowSubmitted form num 0 → RowSubmitted form num' 0 →
    (rowAt form num 0).id? = (rowAt form num' 0).id? → num = num'
  qty : ∀ num, RowSubmitted form num 0 → Fits ((rowAt form num 0).typedQty upper)
  cost : ∀ num, RowSubmitted form num 0 → Fits (rowAt form num 0).typedCost

/-! ## Names and numbers -/

theorem underscore_notMem_itemNum (key : String) : '_' ∉ (itemNum key).toList := by
  intro h
  simp only [itemNum, String.toList_ofList] at h
  simpa using List.mem_rtakeWhile_imp h

theorem itemNum_of_plain {num : String} (h : '_' ∉ num.toList) : itemNum ("item_id_" ++ num) = num := by
  have hnum : ∀ c ∈ num.toList.reverse, decide (c ≠ '_') = true := fun c hc => by
    simpa using fun he : c = '_' => h (he ▸ List.mem_reverse.1 hc)
  have hkey : ("item_id_" ++ num).toList.reverse = num.toList.reverse ++ '_' :: "item_id".toList.reverse := by
    simp
  rw [itemNum, List.rtakeWhile, hkey, List.takeWhile_append_of_pos hnum, List.takeWhile_cons_of_neg (by simp)]
  simp

theorem itemKeys_nodup (form : FormData) : form.itemKeys.Nodup := (nodup_eraseDups _).filter _

theorem getlist_eq_nil {form : FormData} {name : String} (h : name ∉ form.keys) : form.getlist name = [] := by
  unfold FormData.getlist
  rw [List.map_eq_nil_iff, List.filter_eq_nil_iff]
  intro f hf he
  refine h (List.mem_eraseDups.2 (List.mem_map.2 ⟨f, hf, ?_⟩))
  simpa using he

theorem mem_itemKeys_of_submitted {form : FormData} {num : String} {j : ℕ} (h : RowSubmitted form num j) :
    "item_id_" ++ num ∈ form.itemKeys := by
  refine List.mem_filter.2 ⟨?_, by simp⟩
  by_contra hn
  refine h ?_
  simp [rowAt, getlist_eq_nil hn]

theorem mem_rowKeys {form : FormData} {key : String} :
    key ∈ form.rowKeys ↔ key ∈ form.itemKeys ∧ RowSubmitted form (itemNum key) 0 := by
  simp [FormData.rowKeys, RowSubmitted]

theorem rowKeys_nodup (form : FormData) : form.rowKeys.Nodup := (itemKeys_nodup form).filter _

/-- The row of a plain number is read. -/
theorem mem_rowKeys_of_submitted {form : FormData} {num : String} (h : RowSubmitted form num 0)
    (hp : '_' ∉ num.toList) : "item_id_" ++ num ∈ form.rowKeys :=
  mem_rowKeys.2 ⟨mem_itemKeys_of_submitted h, by rwa [itemNum_of_plain hp]⟩

/-- **A row with an underscore in its number is skipped, or refused as a duplicate**: a row that is read is the row of
the key that led to it. -/
theorem key_of_rowKeys {form : FormData} (hn : (form.rowKeys.map fun k => (rowAt form (itemNum k) 0).itemId).Nodup)
    {key : String} (h : key ∈ form.rowKeys) : key = "item_id_" ++ itemNum key := by
  have hplain := itemNum_of_plain (underscore_notMem_itemNum key)
  have hown := mem_rowKeys_of_submitted (mem_rowKeys.1 h).2 (underscore_notMem_itemNum key)
  exact List.inj_on_of_nodup_map hn h hown (by rw [hplain])

/-! ## What the writes leave -/

/-- What a write leaves of every row. -/
def Writes (write : RowEntry → Table ItemRow → Option (Table ItemRow))
    (result : RowEntry → Option ItemRow → Option ItemRow) : Prop :=
  ∀ e t t', write e t = some t' → ∀ x, t'.get? x = if x = e.itemId then result e (t.get? x) else t.get? x

section

variable {write : RowEntry → Table ItemRow → Option (Table ItemRow)}
  {result : RowEntry → Option ItemRow → Option ItemRow}

theorem foldlM_cons {e : RowEntry} {es : List RowEntry} {t t' : Table ItemRow}
    (h : (e :: es).foldlM (fun t e => write e t) t = some t') :
    ∃ t₁, write e t = some t₁ ∧ es.foldlM (fun t e => write e t) t₁ = some t' := by
  rwa [List.foldlM_cons, Option.bind_eq_bind, Option.bind_eq_some_iff] at h

theorem get?_foldlM_other (hw : Writes write result) {x : ℤ} : ∀ {es : List RowEntry} {t t' : Table ItemRow},
    es.foldlM (fun t e => write e t) t = some t' → x ∉ es.map RowEntry.itemId → t'.get? x = t.get? x
  | [], t, t', h, _ => by
    cases h
    rfl
  | e :: es, t, t', h, hx => by
    obtain ⟨t₁, h₁, h⟩ := foldlM_cons h
    rw [List.map_cons, List.mem_cons, not_or] at hx
    rw [get?_foldlM_other hw h hx.2, hw e t t₁ h₁, if_neg hx.1]

theorem get?_foldlM (hw : Writes write result) {e : RowEntry} : ∀ {es : List RowEntry} {t t' : Table ItemRow},
    es.foldlM (fun t e => write e t) t = some t' → (es.map RowEntry.itemId).Nodup → e ∈ es →
    t'.get? e.itemId = result e (t.get? e.itemId)
  | a :: es, t, t', h, hn, he => by
    obtain ⟨t₁, h₁, hrest⟩ := foldlM_cons h
    rw [List.map_cons, List.nodup_cons] at hn
    rcases List.mem_cons.1 he with rfl | he
    · rw [get?_foldlM_other hw hrest hn.1, hw e t t₁ h₁, if_pos rfl]
    · have hne : e.itemId ≠ a.itemId := fun heq => hn.1 (heq ▸ List.mem_map_of_mem he)
      rw [get?_foldlM hw hrest hn.2 he, hw a t t₁ h₁, if_neg hne]

/-- The last entry of an item decides. -/
theorem get?_foldlM_last (hw : Writes write result) {e : RowEntry} {post : List RowEntry}
    (hpost : e.itemId ∉ post.map RowEntry.itemId) : ∀ {pre : List RowEntry} {t t' : Table ItemRow},
    (pre ++ e :: post).foldlM (fun t e => write e t) t = some t' → ∃ o, t'.get? e.itemId = result e o
  | [], t, t', h => by
    obtain ⟨t₁, h₁, hrest⟩ := foldlM_cons h
    exact ⟨t.get? e.itemId, by rw [get?_foldlM_other hw hrest hpost, hw e t t₁ h₁, if_pos rfl]⟩
  | a :: pre, t, t', h => by
    obtain ⟨t₁, -, hrest⟩ := foldlM_cons h
    exact get?_foldlM_last hw hpost hrest

end

/-- What `edit_donation` makes of a row. -/
def RowEntry.editResult (upper : String → String) (e : RowEntry) (o : Option ItemRow) : Option ItemRow :=
  if e.isExisting then o.map fun i => e.row (e.editLocation upper) i.statusCode
  else some (e.row (e.editLocation upper) .pending)

def RowEntry.verifyResult (upper : String → String) (e : RowEntry) (_ : Option ItemRow) : Option ItemRow :=
  some (e.row (upper e.locationName) .verified)

theorem editWrite_writes (upper : String → String) : Writes (editWrite upper) (RowEntry.editResult upper) := by
  intro e t t' h x
  have hkey : ∀ location status, key (e.row location status) = e.itemId := fun _ _ => rfl
  unfold editWrite at h
  unfold RowEntry.editResult
  by_cases hex : e.isExisting = true
  · rw [if_pos hex] at h ⊢
    cases hold : t.get? e.itemId with
    | none =>
      rw [hold] at h
      cases h
      split
      · subst x
        rw [hold]
        rfl
      · rfl
    | some i =>
      rw [hold] at h
      cases h
      rw [Table.get?_set, hkey]
      by_cases hx : x = e.itemId
      · rw [if_pos hx, if_pos hx.symm, hx, hold]
        rfl
      · rw [if_neg hx, if_neg (Ne.symm hx)]
  · rw [if_neg hex] at h ⊢
    rw [Table.get?_insert h, hkey]
    by_cases hx : x = e.itemId
    · rw [if_pos hx, if_pos hx.symm]
    · rw [if_neg hx, if_neg (Ne.symm hx)]

theorem verifyWrite_writes (upper : String → String) : Writes (verifyWrite upper) (RowEntry.verifyResult upper) := by
  intro e t t' h x
  cases h
  rw [Table.get?_upsert, show key (e.row (upper e.locationName) .verified) = e.itemId from rfl]
  by_cases hx : x = e.itemId
  · rw [if_pos hx, if_pos hx.symm]
    rfl
  · rw [if_neg hx, if_neg (Ne.symm hx)]

/-! ## An accepted form -/

/-- What an accepted post did. -/
structure Accepted (entry : FormRow → Option RowEntry) (result : RowEntry → Option ItemRow → Option ItemRow)
    (cat : Catalogue) (form : FormData) (t t' : Table ItemRow) (itemData : List RowEntry) : Prop where
  texts : (form.rowKeys.map fun k => (rowAt form (itemNum k) 0).itemId).Nodup
  parsed : form.rowKeys.mapM (fun k => entry (rowAt form (itemNum k) 0)) = some itemData
  /-- The rows that no entry names are gone. -/
  other : ∀ x, x ∉ itemData.map RowEntry.itemId → t'.get? x = none
  written : (itemData.map RowEntry.itemId).Nodup → ∀ e ∈ itemData, t'.get? e.itemId = result e (t.get? e.itemId)
  last : ∀ pre e post, itemData = pre ++ e :: post → e.itemId ∉ post.map RowEntry.itemId →
    ∃ o, t'.get? e.itemId = result e o
  check : ∀ i ∈ t'.rows, i.Check cat

theorem storeItems_accepted {errors : List String} {entry : FormRow → Option RowEntry}
    {write : RowEntry → Table ItemRow → Option (Table ItemRow)} {result : RowEntry → Option ItemRow → Option ItemRow}
    {cat : Catalogue} {form : FormData} {t t' : Table ItemRow} (hw : Writes write result)
    (htexts : errors = [] → (form.rowKeys.map fun k => (rowAt form (itemNum k) 0).itemId).Nodup)
    (h : storeItems errors entry write cat form t = some t') :
    ∃ itemData, Accepted entry result cat form t t' itemData := by
  unfold storeItems at h
  split_ifs at h with herr
  simp only [Option.bind_eq_bind, Option.bind_eq_some_iff] at h
  obtain ⟨itemData, hmap, t₁, hfold, h⟩ := h
  split_ifs at h with hcheck
  cases h
  have hkept : ∀ x, (t.deleteWhere fun i => decide (i.itemId ∉ itemData.map RowEntry.itemId)).get? x =
      if x ∈ itemData.map RowEntry.itemId then t.get? x else none := by
    intro x
    rw [Table.get?_deleteWhere]
    cases hx : t.get? x with
    | none => simp
    | some i =>
      have hk : i.itemId = x := Table.key_of_get? hx
      rw [Option.filter_some, hk]
      simp
  refine ⟨itemData, htexts herr, hmap, fun x hx => ?_, fun hn e he => ?_, fun pre e post he hp => ?_,
    hcheck⟩
  · rw [get?_foldlM_other hw hfold hx, hkept, if_neg hx]
  · rw [get?_foldlM hw hfold hn he, hkept, if_pos (List.mem_map_of_mem he)]
  · subst he
    exact get?_foldlM_last hw hp hfold

namespace Accepted

variable {upper : String → String} {entry : FormRow → Option RowEntry}
  {result : RowEntry → Option ItemRow → Option ItemRow} {cat : Catalogue} {form : FormData} {t t' : Table ItemRow}
  {itemData : List RowEntry}

theorem entries (h : Accepted entry result cat form t t' itemData) :
    List.Forall₂ (fun k e => entry (rowAt form (itemNum k) 0) = some e) form.rowKeys itemData :=
  forall₂_of_mapM h.parsed

theorem of_entry (h : Accepted entry result cat form t t' itemData) {e : RowEntry} (he : e ∈ itemData) :
    ∃ num, '_' ∉ num.toList ∧ RowSubmitted form num 0 ∧ entry (rowAt form num 0) = some e := by
  obtain ⟨k, hk, hke⟩ := exists_of_forall₂_right h.entries e he
  exact ⟨itemNum k, underscore_notMem_itemNum k, (mem_rowKeys.1 hk).2, hke⟩

theorem of_submitted (h : Accepted entry result cat form t t' itemData) {num : String} (hs : RowSubmitted form num 0)
    (hp : '_' ∉ num.toList) : ∃ e ∈ itemData, entry (rowAt form num 0) = some e := by
  obtain ⟨e, he, hke⟩ := exists_of_forall₂_left h.entries _ (mem_rowKeys_of_submitted hs hp)
  rw [itemNum_of_plain hp] at hke
  exact ⟨e, he, hke⟩

/-- A row of the table was written for an entry. -/
theorem entry_of_row (h : Accepted entry result cat form t t' itemData) {i : ItemRow} (hi : i ∈ t'.rows) :
    ∃ e ∈ itemData, e.itemId = i.itemId := by
  by_contra hn
  have hnone := h.other i.itemId fun hm => hn (List.mem_map.1 hm)
  rw [show t'.get? i.itemId = some i from Table.get?_key hi] at hnone
  cases hnone

/-- When no two rows that are read name one item, the entries have different ids. -/
theorem ids_nodup (h : Accepted entry result cat form t t' itemData)
    (hid : ∀ r e, entry r = some e → r.id? = some e.itemId)
    (hapart : ∀ num num', RowSubmitted form num 0 → RowSubmitted form num' 0 →
      (rowAt form num 0).id? = (rowAt form num' 0).id? → num = num') : (itemData.map RowEntry.itemId).Nodup := by
  have hids : form.rowKeys.map (fun k => (rowAt form (itemNum k) 0).id?) =
      (itemData.map RowEntry.itemId).map some := by
    rw [List.map_map]
    refine map_eq_of_forall₂ ?_ h.entries
    intro k e hke
    exact hid _ e hke
  have hn : (form.rowKeys.map fun k => (rowAt form (itemNum k) 0).id?).Nodup := by
    refine (rowKeys_nodup form).map_on fun k hk k' hk' heq => ?_
    rw [key_of_rowKeys h.texts hk, key_of_rowKeys h.texts hk',
      hapart _ _ (mem_rowKeys.1 hk).2 (mem_rowKeys.1 hk').2 heq]
  rw [hids] at hn
  exact hn.of_map _

/-- Rows that are all stored as they stand are plain, and none is lost. -/
theorem plainRows_of_stored (h : Accepted entry result cat form t t' itemData)
    (hid : ∀ r e, entry r = some e → r.id? = some e.itemId) {lost : FormRow → Prop}
    (hlost : ∀ r e o, entry r = some e → (result e o = none ↔ lost r ∧ o = none))
    (hcarries : ∀ r e o i, entry r = some e → result e o = some i → i.Check cat →
      (Carries upper i r ↔ Fits (r.typedQty upper) ∧ Fits r.typedCost))
    (hs : StoredAsSubmitted upper form t') : PlainRows upper form ∧
      ∀ num, RowSubmitted form num 0 → lost (rowAt form num 0) →
        ∃ i ∈ t.rows, (rowAt form num 0).id? = some i.itemId := by
  have hfirst : ∀ num j, RowSubmitted form num j → j = 0 ∧ '_' ∉ num.toList := fun num j hnum => by
    obtain ⟨i, hi, hidi, -⟩ := hs.carried num j hnum
    obtain ⟨e, he, hei⟩ := h.entry_of_row hi
    obtain ⟨num', hp, hnum', hentry⟩ := h.of_entry he
    have hsame : (rowAt form num j).id? = (rowAt form num' 0).id? := by rw [hidi, hid _ _ hentry, hei]
    obtain ⟨rfl, rfl⟩ := hs.apart num j num' 0 hnum hnum' hsame
    exact ⟨rfl, hp⟩
  have hapart : ∀ num num', RowSubmitted form num 0 → RowSubmitted form num' 0 →
      (rowAt form num 0).id? = (rowAt form num' 0).id? → num = num' :=
    fun num num' h1 h2 heq => (hs.apart num 0 num' 0 h1 h2 heq).1
  have hn := h.ids_nodup hid hapart
  -- what each row of the form became
  have hrow : ∀ num, RowSubmitted form num 0 → ∃ e i, entry (rowAt form num 0) = some e ∧
      result e (t.get? e.itemId) = some i ∧ i.Check cat ∧ Carries upper i (rowAt form num 0) := fun num hnum => by
    obtain ⟨e, he, hentry⟩ := h.of_submitted hnum (hfirst num 0 hnum).2
    obtain ⟨i, hi, hidi, hc⟩ := hs.carried num 0 hnum
    have hei : e.itemId = i.itemId := Option.some.inj ((hid _ _ hentry).symm.trans hidi)
    refine ⟨e, i, hentry, ?_, h.check i hi, hc⟩
    rw [← h.written hn e he, hei]
    exact Table.get?_key hi
  refine ⟨⟨hfirst, hapart, fun num hnum => ?_, fun num hnum => ?_⟩, fun num hnum hl => ?_⟩
  · obtain ⟨e, i, hentry, hres, hcheck, hc⟩ := hrow num hnum
    exact ((hcarries _ e _ i hentry hres hcheck).1 hc).1
  · obtain ⟨e, i, hentry, hres, hcheck, hc⟩ := hrow num hnum
    exact ((hcarries _ e _ i hentry hres hcheck).1 hc).2
  · obtain ⟨e, i, hentry, hres, -, -⟩ := hrow num hnum
    cases hold : t.get? e.itemId with
    | none =>
      rw [(hlost _ e _ hentry).2 ⟨hl, hold⟩] at hres
      cases hres
    | some i₀ =>
      have hkey : i₀.itemId = e.itemId := Table.key_of_get? hold
      exact ⟨i₀, Table.mem_of_get? hold, (hid _ _ hentry).trans (congrArg some hkey.symm)⟩

/-- Plain rows are stored as they stand where none is lost. -/
theorem stored_of_plainRows (h : Accepted entry result cat form t t' itemData)
    (hid : ∀ r e, entry r = some e → r.id? = some e.itemId) {lost : FormRow → Prop}
    (hlost : ∀ r e o, entry r = some e → (result e o = none ↔ lost r ∧ o = none))
    (hcarries : ∀ r e o i, entry r = some e → result e o = some i → i.Check cat →
      (Carries upper i r ↔ Fits (r.typedQty upper) ∧ Fits r.typedCost))
    (hp : PlainRows upper form) (hfound : ∀ num, RowSubmitted form num 0 → lost (rowAt form num 0) →
      ∃ i ∈ t.rows, (rowAt form num 0).id? = some i.itemId) : StoredAsSubmitted upper form t' := by
  have hn := h.ids_nodup hid hp.apart
  refine ⟨fun num j hnum => ?_, fun num j num' j' h1 h2 heq => ?_, fun i hi => ?_⟩
  · obtain ⟨rfl, hplain⟩ := hp.first num j hnum
    obtain ⟨e, he, hentry⟩ := h.of_submitted hnum hplain
    have hwritten := h.written hn e he
    cases hres : result e (t.get? e.itemId) with
    | none =>
      obtain ⟨hl, hold⟩ := (hlost _ e _ hentry).1 hres
      obtain ⟨i₀, hi₀, hidi⟩ := hfound num hnum hl
      have hei : e.itemId = i₀.itemId := Option.some.inj ((hid _ _ hentry).symm.trans hidi)
      rw [hei, show t.get? i₀.itemId = some i₀ from Table.get?_key hi₀] at hold
      cases hold
    | some i =>
      have hgot := hwritten.trans hres
      have hi := Table.mem_of_get? hgot
      have hei : i.itemId = e.itemId := Table.key_of_get? hgot
      refine ⟨i, hi, (hid _ _ hentry).trans (congrArg some hei.symm), ?_⟩
      exact (hcarries _ e _ i hentry hres (h.check i hi)).2 ⟨hp.qty num hnum, hp.cost num hnum⟩
  · obtain ⟨rfl, -⟩ := hp.first num j h1
    obtain ⟨rfl, -⟩ := hp.first num' j' h2
    exact ⟨hp.apart num num' h1 h2 heq, rfl⟩
  · obtain ⟨e, he, hei⟩ := h.entry_of_row hi
    obtain ⟨num, -, hnum, hentry⟩ := h.of_entry he
    exact ⟨num, 0, hnum, (hid _ _ hentry).trans (congrArg some hei)⟩

/-- **The rows of the form against the rows of the table**, for a page that makes `result` of a row. -/
theorem stored_iff (h : Accepted entry result cat form t t' itemData)
    (hid : ∀ r e, entry r = some e → r.id? = some e.itemId) {lost : FormRow → Prop}
    (hlost : ∀ r e o, entry r = some e → (result e o = none ↔ lost r ∧ o = none))
    (hcarries : ∀ r e o i, entry r = some e → result e o = some i → i.Check cat →
      (Carries upper i r ↔ Fits (r.typedQty upper) ∧ Fits r.typedCost)) :
    StoredAsSubmitted upper form t' ↔ PlainRows upper form ∧
      ∀ num, RowSubmitted form num 0 → lost (rowAt form num 0) →
        ∃ i ∈ t.rows, (rowAt form num 0).id? = some i.itemId :=
  ⟨h.plainRows_of_stored hid hlost hcarries, fun hp => h.stored_of_plainRows hid hlost hcarries hp.1 hp.2⟩

end Accepted

/-! ## What the pages check -/

/-- A form without errors has no item id twice. -/
theorem rowErrors_texts {one : ItemField → List String} : ∀ {fs : List ItemField} {seen : List String},
    rowErrors one seen fs = [] → ((fs.filter fun f => f.itemId.text ≠ "").map fun f => f.itemId.text).Nodup ∧
      ∀ f ∈ fs, f.itemId.text ≠ "" → f.itemId.text ∉ seen
  | [], _, _ => by simp
  | f :: fs, seen, h => by
    unfold rowErrors at h
    split_ifs at h with hblank hseen
    · obtain ⟨hn, hfresh⟩ := rowErrors_texts h
      rw [List.filter_cons_of_neg (by simp [hblank])]
      refine ⟨hn, fun g hg hne => ?_⟩
      rcases List.mem_cons.1 hg with rfl | hg
      · exact absurd hblank hne
      · exact hfresh g hg hne
    · obtain ⟨-, h⟩ := List.append_eq_nil_iff.1 h
      obtain ⟨hn, hfresh⟩ := rowErrors_texts h
      rw [List.filter_cons_of_pos (by simp [hblank]), List.map_cons, List.nodup_cons]
      refine ⟨⟨fun hm => ?_, hn⟩, fun g hg hne => ?_⟩
      · obtain ⟨g, hg, heq⟩ := List.mem_map.1 hm
        obtain ⟨hg, hne⟩ := List.mem_filter.1 hg
        exact hfresh g hg (by simpa using hne) (by simp [heq])
      · rcases List.mem_cons.1 hg with rfl | hg
        · exact hseen
        · exact fun hm => hfresh g hg hne (by simp [hm])

/-- A form without errors has no error in any of its rows. -/
theorem rowErrors_one {one : ItemField → List String} : ∀ {fs : List ItemField} {seen : List String},
    rowErrors one seen fs = [] → ∀ f ∈ fs, f.itemId.text ≠ "" → one f = []
  | f :: fs, seen, h, g, hg, hne => by
    unfold rowErrors at h
    split_ifs at h with hblank hseen
    · rcases List.mem_cons.1 hg with rfl | hg
      · exact absurd hblank hne
      · exact rowErrors_one h g hg hne
    · obtain ⟨hone, h⟩ := List.append_eq_nil_iff.1 h
      rcases List.mem_cons.1 hg with rfl | hg
      · exact hone
      · exact rowErrors_one h g hg hne

theorem texts_of_rowErrors {upper : String → String} {post : ItemsPost} {one : ItemField → List String}
    (h : rowErrors one [] (post.form upper).items = []) :
    (post.fields.rowKeys.map fun k => (rowAt post.fields (itemNum k) 0).itemId).Nodup := by
  have hn := (rowErrors_texts h).1
  rwa [ItemsPost.form, List.filter_map, List.map_map] at hn

theorem texts_of_edit {upper : String → String} {post : ItemsPost} (h : editErrors (post.form upper) = []) :
    (post.fields.rowKeys.map fun k => (rowAt post.fields (itemNum k) 0).itemId).Nodup := by
  unfold editErrors at h
  simp only [List.append_eq_nil_iff] at h
  exact texts_of_rowErrors h.1.2

theorem texts_of_verify {upper : String → String} {category : Nat → Option DonationType} {post : ItemsPost}
    (h : verifyErrors category (post.form upper) = []) :
    (post.fields.rowKeys.map fun k => (rowAt post.fields (itemNum k) 0).itemId).Nodup := by
  unfold verifyErrors at h
  simp only [List.append_eq_nil_iff] at h
  exact texts_of_rowErrors h.1.2

namespace FormRow

variable {upper : String → String} {r : FormRow} {e : RowEntry} {q? c? : Option ℚ}

theorem entry_some (h : r.entry upper q? c? = some e) :
    r.id? = some e.itemId ∧ (r.field upper "").donationType = some e.donationType ∧
    (∃ q, q? = some q ∧ e.quantity = if e.donationType = .funds then 1 else q) ∧ c? = some e.itemCost ∧
    (e.uomCode = if e.donationType = .goods then r.uomId else none) ∧
    (e.currencyCode = if e.donationType = .funds then r.currencyCode else none) ∧
    e.locationName = r.location ∧ (e.isExisting = true ↔ r.isExisting = some "true") := by
  simp only [entry, Option.bind_eq_bind, Option.bind_eq_some_iff, Option.pure_def, Option.some.injEq] at h
  obtain ⟨id, hid, type, htype, q, hq, c, hc, rfl⟩ := h
  exact ⟨hid, htype, ⟨q, hq, rfl⟩, hc, rfl, rfl, rfl, by simp⟩

/-- A page that reads an amount reads the one typed, unless that is negative or fits no column. -/
def Reads (bound : ℚ) (typed read : Option ℚ) : Prop :=
  ∀ x q, typed = some x → read = some q → 0 ≤ x → numeric 2 q < bound → q = x

/-- What is stored of an amount is what was typed exactly when that has at most two decimals and is not negative. -/
theorem Reads.stored_iff {bound : ℚ} {typed read : Option ℚ} (h : Reads bound typed read) {q : ℚ} (hq : read = some q)
    (h0 : 0 ≤ numeric 2 q) (hb : numeric 2 q < bound) : typed = some (numeric 2 q) ↔ Fits typed := by
  constructor
  · intro ht
    exact ⟨_, ht, h0, numeric_atScale 2 q⟩
  · rintro ⟨x, ht, hx, hs⟩
    rw [ht, h x q ht hq hx hb, show numeric 2 x = x from hs]

theorem atScale_one : AtScale 2 1 := atScale_iff.2 ⟨100, by norm_num⟩

/-- What the row of an accepted entry carries, for a page that reads the amounts. -/
theorem carries_iff (h : r.entry upper q? c? = some e) (hq : Reads (10 ^ 7) (amountField r.quantity).finite? q?)
    (hc : Reads (10 ^ 8) r.typedCost c?) {location : String} {status : DonationItemStatus} {cat : Catalogue}
    (hloc : location = upper r.location ∨ r.location = "" ∧ location = "DONATION RECEIVED")
    (hcheck : (e.row location status).Check cat) :
    Carries upper (e.row location status) r ↔ Fits (r.typedQty upper) ∧ Fits r.typedCost := by
  obtain ⟨-, htype, ⟨q, hread, hqty⟩, hcost, huom, hcurrency, -, -⟩ := entry_some h
  have hcostiff := hc.stored_iff hcost hcheck.cost.1 hcheck.cost.2
  have hqtyiff : r.typedQty upper = some (numeric 2 e.quantity) ↔ Fits (r.typedQty upper) := by
    unfold typedQty
    rw [htype]
    by_cases hf : e.donationType = .funds
    · rw [if_pos (by rw [hf]), hqty, if_pos hf, show numeric 2 1 = 1 from atScale_one]
      exact iff_of_true rfl ⟨1, rfl, by norm_num, atScale_one⟩
    · rw [if_neg (by simpa using hf), hqty, if_neg hf]
      have hstored : (e.row location status).itemQty = numeric 2 q := by
        show numeric 2 e.quantity = _
        rw [hqty, if_neg hf]
      have hb := hcheck.qty
      rw [hstored] at hb
      exact hq.stored_iff hread hb.1 hb.2
  constructor
  · intro hcar
    exact ⟨hqtyiff.1 hcar.qty, hcostiff.1 hcar.cost⟩
  · rintro ⟨h1, h2⟩
    exact ⟨htype, hqtyiff.2 h1, hcostiff.2 h2, huom, hcurrency, hloc⟩

theorem decimal?_of_finite? {a : AmountField} {x : ℚ} (h : a.finite? = some x) : a.decimal? = some (.finite x) := by
  rcases a with _ | _ | (q | neg | _) <;> cases h
  rfl

/-- What is clamped from above fits no column. -/
theorem eq_of_clamped {M bound x q : ℚ} (hs : AtScale 2 M) (hM : bound ≤ M) (hx : 0 ≤ x) (hb : numeric 2 q < bound)
    (hq : (if x < 0 then 0 else if M < x then M else x) = q) : q = x := by
  rw [if_neg (not_lt.2 hx)] at hq
  split_ifs at hq with hlt
  · rw [← hq, show numeric 2 M = M from hs] at hb
    exact absurd hb (not_lt.2 hM)
  · exact hq.symm

theorem maxAmount_atScale : AtScale 2 maxAmount := by decide +kernel

theorem reads_safeQuantity (a : AmountField) : Reads (10 ^ 7) a.finite? (Dmis.safeQuantity a.decimal?).toOption := by
  intro x q ht hr hx hb
  rw [decimal?_of_finite? ht] at hr
  exact eq_of_clamped maxQty_atScale (by unfold maxQty; norm_num) hx hb (Option.some.inj hr)

theorem amountField_blank {t : String} (h : strip t.toList = []) : (amountField (some t)).decimal? = none := by
  unfold amountField
  split
  · rfl
  · rfl
  · rename_i u heq
    rw [Option.some.injEq] at heq
    rw [← heq, decimal?_blank h]
    rfl

/-- A typed cost is zero for a blank field, or the number the field reads as. -/
theorem typedCost_cases (upper : String → String) {x : ℚ} (h : r.typedCost = some x) :
    (r.field upper "").itemCost.decimal? = none ∧ x = 0 ∨ (r.field upper "").itemCost.finite? = some x := by
  unfold typedCost at h
  dsimp only at h
  split_ifs at h with hblank
  · exact .inl ⟨amountField_blank hblank, (Option.some.inj h).symm⟩
  · exact .inr h

theorem reads_safeAmount (r : FormRow) : Reads (10 ^ 8) r.typedCost
    (Dmis.safeAmount (r.field upper "").itemCost.decimal?).toOption := by
  intro x q ht hr hx hb
  rcases typedCost_cases upper ht with ⟨hblank, rfl⟩ | hx'
  · rw [hblank] at hr
    exact (Option.some.inj hr).symm
  · rw [decimal?_of_finite? hx'] at hr
    exact eq_of_clamped maxAmount_atScale (by unfold maxAmount; norm_num) hx hb (Option.some.inj hr)

theorem reads_same (bound : ℚ) (a : Option ℚ) : Reads bound a a := by
  intro x q ht hr _ _
  rw [ht] at hr
  exact (Option.some.inj hr).symm

/-- The verification takes no blank cost. -/
theorem reads_typedCost (r : FormRow) : Reads (10 ^ 8) r.typedCost (r.field upper "").itemCost.finite? := by
  intro x q ht hr hx hb
  rcases typedCost_cases upper ht with ⟨hblank, -⟩ | hx'
  · cases (decimal?_of_finite? hr).symm.trans hblank
  · exact reads_same _ _ x q hx' hr hx hb

end FormRow

/-! ## The two pages -/

theorem editResult_eq_none_iff {upper : String → String} {r : FormRow} {e : RowEntry} {o : Option ItemRow}
    (h : r.editEntry upper = some e) : e.editResult upper o = none ↔ r.isExisting = some "true" ∧ o = none := by
  obtain ⟨-, -, -, -, -, -, -, hex⟩ := FormRow.entry_some h
  unfold RowEntry.editResult
  by_cases he : e.isExisting = true
  · simp [he, ← hex]
  · simp [he, ← hex]

theorem edit_carries_iff {upper : String → String} {r : FormRow} {e : RowEntry} {o : Option ItemRow} {i : ItemRow}
    {cat : Catalogue} (h : r.editEntry upper = some e) (hi : e.editResult upper o = some i) (hcheck : i.Check cat) :
    Carries upper i r ↔ Fits (r.typedQty upper) ∧ Fits r.typedCost := by
  obtain ⟨-, -, -, -, -, -, hlocation, -⟩ := FormRow.entry_some h
  have hloc : e.editLocation upper = upper r.location ∨
      r.location = "" ∧ e.editLocation upper = "DONATION RECEIVED" := by
    unfold RowEntry.editLocation
    rw [hlocation]
    by_cases hblank : r.location = ""
    · exact .inr ⟨hblank, if_pos hblank⟩
    · exact .inl (if_neg hblank)
  have hrow : ∃ status, i = e.row (e.editLocation upper) status := by
    unfold RowEntry.editResult at hi
    split_ifs at hi
    · obtain ⟨i₀, -, rfl⟩ := Option.map_eq_some_iff.1 hi
      exact ⟨_, rfl⟩
    · exact ⟨_, (Option.some.inj hi).symm⟩
  obtain ⟨status, rfl⟩ := hrow
  exact FormRow.carries_iff h (FormRow.reads_safeQuantity _) (FormRow.reads_safeAmount r) hloc hcheck

theorem verify_carries_iff {upper : String → String} {r : FormRow} {e : RowEntry} {o : Option ItemRow} {i : ItemRow}
    {cat : Catalogue} (h : r.verifyEntry upper = some e) (hi : e.verifyResult upper o = some i) (hcheck : i.Check cat) :
    Carries upper i r ↔ Fits (r.typedQty upper) ∧ Fits r.typedCost := by
  obtain ⟨-, -, -, -, -, -, hlocation, -⟩ := FormRow.entry_some h
  cases hi
  exact FormRow.carries_iff h (FormRow.reads_same _ _) (FormRow.reads_typedCost r) (.inl (by rw [hlocation])) hcheck

/-- **When the donation items are the rows of the form.** -/
theorem stored_items_are_submitted (upper : String → String) (cat : Catalogue) (donation : Donation) (post : ItemsPost)
    (t t' : Table ItemRow) :
    (editDonation upper cat donation post t = some t' →
      (StoredAsSubmitted upper post.fields t' ↔ PlainRows upper post.fields ∧
        ∀ num, RowSubmitted post.fields num 0 → (rowAt post.fields num 0).isExisting = some "true" →
          ∃ i ∈ t.rows, (rowAt post.fields num 0).id? = some i.itemId)) ∧
    (verifyDonationDetail upper cat donation post t = some t' →
      (StoredAsSubmitted upper post.fields t' ↔ PlainRows upper post.fields)) := by
  constructor
  · intro h
    unfold editDonation at h
    split_ifs at h
    obtain ⟨itemData, hacc⟩ := storeItems_accepted (editWrite_writes upper) texts_of_edit h
    exact hacc.stored_iff (fun r e he => (FormRow.entry_some he).1) (fun r e o he => editResult_eq_none_iff he)
      fun r e o i he hi hcheck => edit_carries_iff he hi hcheck
  · intro h
    unfold verifyDonationDetail at h
    split_ifs at h
    obtain ⟨itemData, hacc⟩ := storeItems_accepted (verifyWrite_writes upper) texts_of_verify h
    have hlost : ∀ r e o, FormRow.verifyEntry upper r = some e → (e.verifyResult upper o = none ↔ False ∧ o = none) :=
      fun r e o _ => ⟨fun hn => (nomatch hn), fun hn => hn.1.elim⟩
    rw [hacc.stored_iff (fun r e he => (FormRow.entry_some he).1) hlost
      fun r e o i he hi hcheck => verify_carries_iff he hi hcheck]
    exact ⟨fun hp => hp.1, fun hp => ⟨hp, fun _ _ hf => hf.elim⟩⟩

namespace DonationFormSite

def cat : Catalogue := { items := [5, 7], category := fun _ => some .goods, units := ["EA"], currencies := ["JMD"] }

def entered : Donation := { donationId := 1, statusCode := .entered, versionNbr := 3 }

def row : ItemRow :=
  { itemId := 7
    donationType := .goods
    itemQty := 4
    itemCost := 0
    uomCode := some "EA"
    currencyCode := none
    locationName := "SHELF"
    statusCode := .pending }

def before : Table ItemRow := ⟨[row], by decide⟩

/-- One row, for the item that is there. -/
def fields (quantity : String) : FormData :=
  [("item_id_1", "7"), ("quantity_1", quantity), ("item_cost_1", "12.5"), ("uom_id_1", "EA"),
    ("location_name_1", "shelf "), ("is_existing_1", "true")]

def post (quantity : String) : ItemsPost := { versionNbr := .num 3, otherErrors := [], fields := fields quantity }

def after (qty : ℚ) (status : DonationItemStatus) : Table ItemRow :=
  ⟨[{ row with itemQty := qty, itemCost := 25 / 2, statusCode := status }], by simp⟩

theorem submitted_fields {quantity num : String} {j : ℕ} (h : RowSubmitted (fields quantity) num j) :
    num = "1" ∧ j = 0 := by
  have hkey : "item_id_" ++ num = "item_id_1" := by
    have hm := mem_itemKeys_of_submitted h
    have hkeys : (fields quantity).itemKeys = ["item_id_1"] := by
      show List.filter _ (List.eraseDups ["item_id_1", "quantity_1", "item_cost_1", "uom_id_1", "location_name_1",
        "is_existing_1"]) = _
      decide +kernel
    simpa [hkeys] using hm
  have hnum : num = "1" := by
    have hl := congrArg String.toList hkey
    simp only [String.toList_append] at hl
    exact String.toList_injective (List.append_cancel_left hl)
  subst hnum
  refine ⟨rfl, ?_⟩
  have hlist : (fields quantity).getlist "item_id_1" = ["7"] := by simp [FormData.getlist, fields]
  cases j with
  | zero => rfl
  | succ j => simp [RowSubmitted, rowAt, hlist] at h

theorem plainRows : PlainRows String.toUpper (fields "2.50") := by
  refine ⟨fun num j h => ?_, fun num num' h h' _ => ?_, fun num h => ?_, fun num h => ?_⟩
  · obtain ⟨rfl, rfl⟩ := submitted_fields h
    exact ⟨rfl, by decide⟩
  · rw [(submitted_fields h).1, (submitted_fields h').1]
  · obtain ⟨rfl, -⟩ := submitted_fields h
    exact ⟨5 / 2, by decide +kernel, by norm_num, by decide +kernel⟩
  · obtain ⟨rfl, -⟩ := submitted_fields h
    exact ⟨25 / 2, by decide +kernel, by norm_num, by decide +kernel⟩

end DonationFormSite

open DonationFormSite

theorem stored_items_are_submitted_site :
    StoredAsSubmitted String.toUpper (fields "2.50") (after (5 / 2) .pending) ∧
    StoredAsSubmitted String.toUpper (fields "2.50") (after (5 / 2) .verified) := by
  have hedit := (stored_items_are_submitted String.toUpper cat entered (post "2.50") before (after (5 / 2) .pending)).1
    (by decide +kernel)
  have hverify :=
    (stored_items_are_submitted String.toUpper cat entered (post "2.50") before (after (5 / 2) .verified)).2
      (by decide +kernel)
  refine ⟨hedit.2 ⟨plainRows, fun num h _ => ?_⟩, hverify.2 plainRows⟩
  obtain ⟨rfl, -⟩ := submitted_fields h
  exact ⟨row, by decide, by decide +kernel⟩

/-- **A negative quantity is stored as zero**, past the check that says it must not be negative. -/
theorem edit_stores_zero :
    editDonation String.toUpper cat entered (post "-5") before = some (after 0 .pending) ∧
    ¬ ∀ cat donation post t t', editDonation String.toUpper cat donation post t = some t' →
      StoredAsSubmitted String.toUpper post.fields t' := by
  have haccepted : editDonation String.toUpper cat entered (post "-5") before = some (after 0 .pending) := by
    decide +kernel
  refine ⟨haccepted, fun h => ?_⟩
  have hsubmitted : RowSubmitted (fields "-5") "1" 0 := by
    show (rowAt (fields "-5") "1" 0).itemId ≠ ""
    decide +kernel
  obtain ⟨i, hi, -, hc⟩ := (h cat entered (post "-5") before _ haccepted).carried "1" 0 hsubmitted
  have htyped : (rowAt (fields "-5") "1" 0).typedQty String.toUpper = some (-5) := by decide +kernel
  have hqty : i.itemQty = -5 := (Option.some.inj (htyped.symm.trans hc.qty)).symm
  rw [List.mem_singleton.1 hi] at hqty
  revert hqty
  decide

end Dmis
