import Dmis.RequestRaces

/-!
# The form of a request item

What `edit_items` stores of a posted row (`requests_aidmgmt.py:373-439`). Every field has a normaliser of its own, and
the rules are checked on what it returns: `safe_id` and `safe_quantity` clamp, and the urgency goes through
`validate_filter_value` (`param_validation.py:202-223`), which lowers the value and looks for it among `H`, `M`, `L`.

It is never found there. So every row gets the default `M`, and the rules for `H` are checked of no form
(`editUrgency_eq`); `edit_stores_submitted` says which forms are stored as they are.
-/

namespace Dmis

open Relational Keyed

def Urgency.code : Urgency → String
  | low => "L" | medium => "M" | high => "H" | critical => "C"

/-- The row holds what was posted. -/
structure ItemPost.StoredIn (post : ItemPost) (i : ReliefRqstItem) : Prop where
  item : post.itemId = some (i.itemId : ℤ)
  qty : ∃ q, post.requestQty = some (.finite q) ∧ i.requestQty = numeric 2 q
  positive : 0 < i.requestQty
  urgency : i.urgencyInd.code = post.urgencyInd.toUpper
  /-- `c_reliefrqst_item_1`, `4` and `5` among them. -/
  checked : i.Check

/-- What an accepted form should leave: its row, and a date and a justification where the urgency is high. -/
structure StoresSubmitted (rqstId : Nat) (post : ItemPost) (t : Tables) : Prop where
  stored : ∃ i ∈ t.reliefrqstItem.rows, i.reliefrqstId = rqstId ∧ post.StoredIn i
  high : post.urgencyInd.toUpper = "H" → (∃ d, post.requiredByDate = .day d) ∧ post.rqstReasonDesc ≠ ""

/-- Medium urgency, and a quantity that `safe_quantity` does not cut down. -/
structure ItemPost.Plain (post : ItemPost) : Prop where
  urgency : post.urgencyInd.toUpper = "M"
  qty : ∃ q, post.requestQty = some (.finite q) ∧ numeric 2 q ≤ maxQty

theorem isUpper_toLower (c : Char) : c.toLower.isUpper = false := by
  unfold Char.toLower Char.isUpper
  split
  · rename_i h
    rw [decide_eq_false_iff_not]
    rintro ⟨-, hz⟩
    have hlow := UInt32.le_iff_toNat_le.1 h.1
    have hhigh := UInt32.le_iff_toNat_le.1 h.2
    have hsum := UInt32.le_iff_toNat_le.1 hz
    rw [UInt32.toNat_add, show ('a'.val - 'A'.val).toNat = 32 from rfl] at hsum
    have hA : 'A'.val.toNat = 65 := rfl
    have hZ : 'Z'.val.toNat = 90 := rfl
    omega
  · rename_i h
    exact decide_eq_false h

/-- The allowed urgencies are upper case, and the value is compared in lower case. -/
theorem editUrgency_eq (posted : String) : editUrgency posted = .medium := by
  have hmiss : posted.toUpper.toLower ∉ ["H", "M", "L"] := by
    intro h
    have hupper : ∀ s ∈ ["H", "M", "L"], s.toList.any Char.isUpper = true := by decide
    obtain ⟨c, hc, hu⟩ := List.any_eq_true.1 (hupper _ h)
    have hmap : posted.toUpper.toLower.toList = posted.toUpper.toList.map Char.toLower := String.toList_map
    rw [hmap] at hc
    obtain ⟨d, -, rfl⟩ := List.mem_map.1 hc
    rw [isUpper_toLower] at hu
    cases hu
  unfold editUrgency validateFilterValue
  rw [if_neg hmiss]
  decide +kernel

section
variable {rqstId itemId : Nat} {qty : ℚ} {urgency : Urgency} {reason : Option String} {requiredBy : Option Day}
  {t t' : Tables}

/-- The row of the item after the service. -/
theorem addOrUpdateRequestItem_row (h : addOrUpdateRequestItem rqstId itemId qty urgency reason requiredBy t = .ok t') :
    ∃ i, t'.reliefrqstItem.get? (rqstId, itemId) = some i ∧ i.requestQty = qty ∧ i.urgencyInd = urgency ∧
      i.rqstReasonDesc = reason ∧ i.requiredByDate = requiredBy := by
  simp only [addOrUpdateRequestItem, bind_ok] at h
  obtain ⟨-, -, h⟩ := h
  split at h
  · rename_i i hi
    cases h
    have hkey : key i = (rqstId, itemId) := Table.key_of_get? hi
    exact ⟨_, Table.get?_set_of_get? hi hkey, rfl, rfl, rfl, rfl⟩
  · simp only [bind_ok, require_ok, pure_ok] at h
    obtain ⟨rows, hins, rfl⟩ := h
    exact ⟨_, (Table.get?_insert hins _).trans (if_pos rfl), rfl, rfl, rfl, rfl⟩

/-- Clamping changes a positive quantity only above the bound. -/
theorem safeQuantity_stored {v : Option PyDecimal} (h : safeQuantity v = .ok qty) (hpos : 0 < qty) :
    (∃ q, v = some (.finite q) ∧ numeric 2 qty = numeric 2 q) ↔ ∃ q, v = some (.finite q) ∧ numeric 2 q ≤ maxQty := by
  have hmax : numeric 2 maxQty = maxQty := maxQty_atScale
  refine exists_congr fun q => and_congr_right fun hv => ?_
  subst hv
  rw [safeQuantity, Except.ok.injEq] at h
  subst h
  split_ifs at hpos ⊢ with hneg hbig
  · exact absurd hpos (lt_irrefl 0)
  · rw [hmax]
    exact ⟨fun he => he.ge, fun hle => le_antisymm (hmax.ge.trans (numeric_mono hbig.le)) hle⟩
  · exact iff_of_true rfl (hmax ▸ numeric_mono (not_lt.1 hbig))

end

/-- **The row an accepted form leaves**: whatever urgency was posted, it is stored as medium. -/
theorem edit_row {ctx : Ctx} {rqstId : Nat} {post : ItemPost} {db db' : Database}
    (h : db.exec (editItems ctx rqstId post) = .ok db') :
    ∃ i qty, db'.tables.reliefrqstItem.get? (rqstId, safeId post.itemId) = some i ∧ i.Check ∧
      post.itemId = some (i.itemId : ℤ) ∧ safeQuantity post.requestQty = .ok qty ∧ 0 < qty ∧
      i.requestQty = numeric 2 qty ∧ i.urgencyInd = .medium := by
  obtain ⟨t, hroute, hcons, hdb⟩ := exec_ok.1 h
  simp only [editItems, bind_ok, check_ok, require_ok, exists_const] at hroute
  obtain ⟨r, -, -, -, hid, qty, hqty, requiredBy, -, item, -, -, -, hpos, -, -, hadd⟩ := hroute
  rw [editUrgency_eq] at hadd
  obtain ⟨i, hi, hiq, hiu, -, -⟩ := addOrUpdateRequestItem_row hadd
  have hrow : db'.tables.reliefrqstItem.get? (rqstId, safeId post.itemId) = some i.rounded := by
    rw [hdb]
    show (t.reliefrqstItem.mapRows _ key_rounded_rqstItem).get? _ = _
    rw [Table.get?_mapRows, hi]
    rfl
  have hitem : post.itemId = some (safeId post.itemId : ℤ) := by
    unfold safeId at hid ⊢
    cases hp : post.itemId with
    | none => simp [hp] at hid
    | some n => simp_all; omega
  have hkey := Table.key_of_get? hrow
  refine ⟨i.rounded, qty, hrow, hcons.rqstItem _ (hdb ▸ Table.mem_of_get? hrow), ?_, hqty, hpos,
    congrArg (numeric 2) hiq, hiu⟩
  rw [hitem, show i.rounded.itemId = safeId post.itemId from congrArg Prod.snd hkey]

/-- **An accepted form is stored as it is** exactly when its urgency is medium and its quantity within the bound. -/
theorem edit_stores_submitted {ctx : Ctx} {rqstId : Nat} {post : ItemPost} {db db' : Database}
    (h : db.exec (editItems ctx rqstId post) = .ok db') : StoresSubmitted rqstId post db'.tables ↔ post.Plain := by
  obtain ⟨i, qty, hrow, hcheck, hitem, hqty, hpos, hiq, hiu⟩ := edit_row h
  have hkey := Table.key_of_get? hrow
  constructor
  · rintro ⟨⟨j, hj, hjr, hstored⟩, -⟩
    have hsame : j.itemId = i.itemId := by
      have heq := hstored.item.symm.trans hitem
      rwa [Option.some.injEq, Nat.cast_inj] at heq
    obtain rfl : j = i := by
      have hget := Table.get?_key hj
      rw [show key j = key i from Prod.ext (hjr.trans (congrArg Prod.fst hkey).symm) hsame, hkey, hrow] at hget
      exact (Option.some.inj hget).symm
    refine ⟨?_, (safeQuantity_stored hqty hpos).1 ?_⟩
    · rw [← hstored.urgency, hiu]
      rfl
    · rw [← hiq]
      exact hstored.qty
  · rintro ⟨hurgency, hplain⟩
    refine ⟨⟨i, Table.mem_of_get? hrow, congrArg Prod.fst hkey, ⟨hitem, ?_, hcheck.1, ?_, hcheck⟩⟩, fun hhigh => ?_⟩
    · rw [hiq]
      exact (safeQuantity_stored hqty hpos).2 hplain
    · rw [hurgency, hiu]
      rfl
    · rw [hurgency] at hhigh
      exact absurd hhigh (by decide)

/-- An urgent row without a date and without a justification. -/
def Site.urgent : ItemPost := ⟨some 1, some (.finite 5), "H", "", .blank⟩

theorem exec_eq_after {route : Tables → Except Err Tables} {db : Database} (h : (db.exec route).isOk) :
    db.exec route = .ok (db.after route) := by
  unfold Database.after
  cases he : db.exec route with
  | error e => rw [he] at h; cases h
  | ok db' => rfl

/-- What is posted as the urgency does not matter. -/
theorem editItems_urgency (ctx : Ctx) (rqstId : Nat) (post : ItemPost) (posted : String) :
    editItems ctx rqstId post = editItems ctx rqstId { post with urgencyInd := posted } := by
  funext t
  simp only [editItems, editUrgency_eq]

theorem edit_stores_submitted_site :
    StoresSubmitted 1 ⟨some 1, some (.finite 7), "m", "", .blank⟩
      (Site.draft.after (editItems Site.agency 1 ⟨some 1, some (.finite 7), "m", "", .blank⟩)).tables := by
  have hok : (Site.draft.exec (editItems Site.agency 1 ⟨some 1, some (.finite 7), "m", "", .blank⟩)).isOk := by
    rw [editItems_urgency _ _ _ ""]
    decide +kernel
  exact (edit_stores_submitted (exec_eq_after hok)).2 ⟨by decide +kernel, 7, rfl, by decide +kernel⟩

/-- It is accepted, and stored with medium urgency. -/
theorem edit_drops_urgency :
    (Site.draft.exec (editItems Site.agency 1 Site.urgent)).isOk ∧
    (Site.draft.after (editItems Site.agency 1 Site.urgent)).tables.reliefrqstItem.rows.map
      ReliefRqstItem.urgencyInd = [.medium] ∧
    ¬ StoresSubmitted 1 Site.urgent (Site.draft.after (editItems Site.agency 1 Site.urgent)).tables := by
  refine ⟨?_, ?_, fun h => ?_⟩
  · rw [editItems_urgency _ _ _ ""]
    decide +kernel
  · rw [editItems_urgency _ _ _ ""]
    decide +kernel
  · obtain ⟨⟨d, hd⟩, -⟩ := h.high (by decide +kernel)
    cases hd

end Dmis
