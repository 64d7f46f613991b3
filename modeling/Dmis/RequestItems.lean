import Dmis.TwoDispatches

/-!
# What a request asks for

The items of a request are edited while it is a draft. Afterwards its `request_qty` columns are fixed
(`Tables.requested`), and the routes only write statuses and issued quantities, which never get negative.
`ItemsKept` says both of a transaction; every route keeps its items so (`route_itemsKept`).
-/

namespace Dmis

open Relational Keyed

/-- The quantity requested of an item, if the request has the item. -/
def Tables.requested (t : Tables) (rqstId itemId : Nat) : Option ℚ :=
  (t.reliefrqstItem.get? (rqstId, itemId)).map ReliefRqstItem.requestQty

/-- No item has a negative issued quantity. -/
def IssuedNonneg (t : Tables) : Prop := ∀ i ∈ t.reliefrqstItem.rows, 0 ≤ i.issueQty

/-- Requested quantities of submitted requests stay, issued ones stay non-negative. -/
structure ItemsKept (t t' : Tables) : Prop where
  requested : ∀ rqstId, (∀ r ∈ t.reliefrqst.get? rqstId, r.statusCode ≠ .draft) →
    ∀ itemId, t'.requested rqstId itemId = t.requested rqstId itemId
  issued : IssuedNonneg t → IssuedNonneg t'

section
variable {t t' t₁ : Tables} {ctx : Ctx} {r : ReliefRqst} {op : Op}

theorem ItemsKept.of_eq (h : t'.reliefrqstItem = t.reliefrqstItem) : ItemsKept t t' :=
  ⟨fun _ _ _ => by rw [Tables.requested, h]; rfl, fun hn => by rw [IssuedNonneg, h]; exact hn⟩

theorem ItemsKept.trans (h : ItemsKept t t₁) (hr : t₁.reliefrqst = t.reliefrqst) (h' : ItemsKept t₁ t') :
    ItemsKept t t' :=
  ⟨fun x hx item => (h'.requested x (by rwa [hr]) item).trans (h.requested x hx item),
    fun hn => h'.issued (h.issued hn)⟩

/-! ## Editing a draft -/

/-- An edit of a draft's items leaves other requests alone. -/
theorem ItemsKept.of_draft {rqstId : Nat} (hr : t.reliefrqst.get? rqstId = some r) (hd : r.statusCode = .draft)
    (hother : ∀ x itemId, x ≠ rqstId → t'.reliefrqstItem.get? (x, itemId) = t.reliefrqstItem.get? (x, itemId))
    (hissued : IssuedNonneg t → IssuedNonneg t') : ItemsKept t t' := by
  refine ⟨fun x hx itemId => ?_, hissued⟩
  have hne : x ≠ rqstId := fun e => hx r (e ▸ hr) hd
  rw [Tables.requested, hother x itemId hne]
  rfl

theorem addOrUpdateRequestItem_kept {rqstId itemId : Nat} {qty : ℚ} {urgency : Urgency} {reason : Option String}
    {requiredBy : Option Day} (hr : t.reliefrqst.get? rqstId = some r) (hd : r.statusCode = .draft)
    (h : addOrUpdateRequestItem rqstId itemId qty urgency reason requiredBy t = .ok t') : ItemsKept t t' := by
  simp only [addOrUpdateRequestItem, bind_ok] at h
  obtain ⟨_, -, h⟩ := h
  split at h
  · rename_i i hi
    have hk : key i = (rqstId, itemId) := Table.key_of_get? hi
    simp only [pure_ok] at h
    subst h
    refine .of_draft hr hd (fun x y hne => Table.get?_set_of_ne ?_) fun hn j hj => ?_
    · exact fun e => hne (congrArg Prod.fst (hk.symm.trans e)).symm
    · rcases Table.mem_set hj with rfl | hj
      · exact hn i (Table.mem_of_get? hi)
      · exact hn j hj.1
  · simp only [bind_ok, require_ok, pure_ok] at h
    obtain ⟨rows, hins, rfl⟩ := h
    refine .of_draft hr hd (fun x y hne => ?_) fun hn j hj => ?_
    · rw [Table.get?_insert hins, if_neg]
      exact fun e => hne (congrArg Prod.fst e).symm
    · simp only [(Table.insert_eq_some.1 hins).2, List.mem_append, List.mem_singleton] at hj
      rcases hj with hj | rfl
      · exact hn j hj
      · exact le_rfl

/-! ## Planning and issuing -/

theorem issueQtyFor_nonneg {s : ItemStatus} {total requested : ℚ} (ht : 0 ≤ total) (hr : 1 / 100 ≤ requested) :
    0 ≤ issueQtyFor s total requested := by
  have hr0 : (0 : ℚ) ≤ requested := le_trans (by norm_num) hr
  cases s <;> simp only [issueQtyFor, le_refl, le_min_iff, ht, hr0, true_and] <;> linarith

/-- A positive quantity of two decimals is a cent at least. -/
theorem cent_le {q : ℚ} (hs : AtScale 2 q) (h : 0 < q) : 1 / 100 ≤ q := by
  obtain ⟨n, hn⟩ := atScale_iff.1 hs
  have hpos : (0 : ℚ) < n := by rw [← hn]; positivity
  have hone : (1 : ℚ) ≤ n := by exact_mod_cast hpos
  linarith

theorem rounded_rqstItems (t : Tables) (rqstId : Nat) :
    t.rounded.rqstItems rqstId = (t.rqstItems rqstId).map ReliefRqstItem.rounded := by
  simp only [Tables.rqstItems, Tables.rounded, Table.select, Table.mapRows, List.filter_map]
  rfl

theorem forall_rqstItems_rounded {rqstId : Nat} {P : ReliefRqstItem → Prop} :
    (∀ i ∈ t.rounded.rqstItems rqstId, P i) ↔ ∀ i ∈ t.rqstItems rqstId, P i.rounded := by
  rw [rounded_rqstItems, List.forall_mem_map]

theorem stored_requestQty (hc : t.Consistent) {i : ReliefRqstItem} (hi : i ∈ t.reliefrqstItem.rows) :
    AtScale 2 i.requestQty ∧ AtScale 2 i.issueQty := by
  rw [← hc.stored] at hi
  obtain ⟨j, -, rfl⟩ := List.mem_map.1 hi
  exact ⟨numeric_atScale _ _, numeric_atScale _ _⟩

theorem processed_kept {form : Form} {vc : Bool} {new : List Alloc} {old : Allocations} {p : ReliefPkg}
    {t₀ : Tables} {plans : List ItemPlan} (hc : t.Consistent)
    (h : Processed ctx form vc r t t₁ new old p t₀ plans) : ItemsKept t t₁ := by
  -- the row planned for an item is a new version of it
  have hplan : ∀ plan ∈ plans, ∃ item ∈ t.rqstItems r.reliefrqstId,
      PlanOk ctx form vc t.itembatch t.inventory old item plan := fun plan hm =>
    exists_of_forall₂_right h.planOk plan hm
  refine ⟨fun x _ itemId => ?_, fun hn i hi => ?_⟩
  · rw [Tables.requested, h.items]
    refine Table.get?_foldl_set_map (fun plan hm => ?_) _
    obtain ⟨item, hitem, hok⟩ := hplan plan hm
    have hg : t.reliefrqstItem.get? (key item) = some item := Table.get?_key (Tables.mem_rqstItems.1 hitem).1
    rw [hok.row]
    exact congrArg (Option.map ReliefRqstItem.requestQty) hg
  · rw [h.items] at hi
    rcases Table.mem_foldl_set hi with hi | ⟨plan, hm, rfl⟩
    · exact hn i hi
    · obtain ⟨item, hitem, hok⟩ := hplan plan hm
      have hmem := (Tables.mem_rqstItems.1 hitem).1
      have hscale : AtScale 2 item.requestQty := (stored_requestQty hc hmem).1
      rw [hok.row]
      refine issueQtyFor_nonneg (List.sum_nonneg fun q hq => ?_) (cent_le hscale (hc.rqstItem item hmem).1)
      obtain ⟨a, ha, rfl⟩ := List.mem_map.1 hq
      exact h.qty_nonneg (List.mem_flatMap.2 ⟨plan, hm, ha⟩)

theorem issueAllocated_kept {new : List Alloc} (hnew : ∀ a ∈ new, 0 ≤ a.allocatedQty) :
    ItemsKept t { t with reliefrqstItem := issueAllocated r new t.reliefrqstItem } := by
  refine ⟨fun x _ itemId => ?_, fun hn i hi => ?_⟩
  · rw [Tables.requested, issueAllocated, Table.map_get?_mapRows fun i => ?_]
    · rfl
    · split <;> rfl
  · obtain ⟨j, hj, rfl⟩ := List.mem_map.1 hi
    split
    · refine List.sum_nonneg fun q hq => ?_
      obtain ⟨a, ha, rfl⟩ := List.mem_map.1 hq
      exact hnew a (List.mem_filter.1 ha).1
    · exact hn j hj

theorem issueDispatched_kept (plan : List PlanEntry) :
    ItemsKept t { t with reliefrqstItem := issueDispatched r plan t.reliefrqstItem } := by
  refine ⟨fun x _ itemId => ?_, fun hn i hi => ?_⟩
  · rw [Tables.requested, issueDispatched, Table.map_get?_mapRows fun i => ?_]
    · rfl
    · split <;> rfl
  · obtain ⟨j, hj, rfl⟩ := List.mem_map.1 hi
    split
    · refine add_nonneg (hn j hj) (List.sum_nonneg fun q hq => ?_)
      obtain ⟨e, he, rfl⟩ := List.mem_map.1 hq
      exact le_of_lt (of_decide_eq_true (List.mem_filter.1 (List.mem_filter.1 he).1).2)
    · exact hn j hj

/-! ## Every route -/

/-- **Every route keeps the items.** -/
theorem route_itemsKept (hc : t.Consistent) (h : op.route t = .ok t') : ItemsKept t t' := by
  cases op with
  | createDraftRequest =>
    simp only [Op.route, createDraftRequest, bind_ok, pure_ok] at h
    obtain ⟨_, _, _, _, _, _, _, _, rfl⟩ := h
    exact .of_eq rfl
  | editItems ctx rid post =>
    simp only [Op.route, editItems, bind_ok, check_ok, require_ok, exists_const] at h
    obtain ⟨r, hr, -, hd, -, _, -, _, -, _, -, -, -, -, -, -, h⟩ := h
    exact addOrUpdateRequestItem_kept hr hd h
  | deleteItem ctx rid itemId =>
    simp only [Op.route, deleteItem, bind_ok, check_ok, require_ok, pure_ok, exists_const] at h
    obtain ⟨r, hr, -, hd, _, -, rfl⟩ := h
    refine .of_draft hr hd (fun x y hne => ?_) fun hn i hi => hn i (List.mem_filter.1 hi).1
    rw [Table.get?_deleteWhere]
    cases hg : t.reliefrqstItem.get? (x, y) with
    | none => rfl
    | some i =>
      have hk : i.reliefrqstId = x := congrArg Prod.fst (Table.key_of_get? hg)
      simp [hk, hne]
  | submitRequest =>
    simp only [Op.route, submitRequest, bind_ok, pure_ok] at h
    obtain ⟨_, _, _, _, _, _, _, _, _, _, _, _, rfl⟩ := h
    exact .of_eq rfl
  | submitEligibilityDecision =>
    simp only [Op.route, submitEligibilityDecision, bind_ok, pure_ok] at h
    obtain ⟨_, _, _, _, _, _, _, _, _, _, _, _, _, _, rfl⟩ := h
    exact .of_eq rfl
  | preparePackage | approvePackage =>
    obtain ⟨vc, r, t₁, t₂, new, old, -, hproc, hf⟩ := route_form h rfl
    obtain ⟨q, t₀, plans, hp⟩ := processAllocations_ok hproc
    have hkept := processed_kept hc hp
    have hi := hf.frame.2.2.1
    rcases hf.items with he | ⟨r', he⟩
    · exact hkept.trans hp.reliefrqst_eq (.of_eq (hi.trans he))
    · -- the approval page issues what was allocated, which is positive
      have hnew : ∀ a ∈ new, 0 ≤ a.allocatedQty := fun a ha => by
        rw [hp.new_eq] at ha
        exact le_of_lt (of_decide_eq_true (List.mem_filter.1 ha).2)
      exact (hkept.trans hp.reliefrqst_eq (issueAllocated_kept (r := r') hnew)).trans hp.reliefrqst_eq
        (.of_eq (hi.trans he))
  | reviewApproval => exact .of_eq (by rw [(reviewApproval_frame h).1])
  | submitForDispatch ctx pkgId version field =>
    obtain ⟨p, r, plan, batches, totals, -, -, -, rfl⟩ := submitForDispatch_frame h
    exact (issueDispatched_kept (r := r) plan).trans rfl (.of_eq rfl)
  | cancelPackage ctx pkgId =>
    simp only [Op.route, cancelPackage, bind_ok] at h
    obtain ⟨_, _, hcancel⟩ := h
    obtain ⟨_, -, -, hf, -⟩ := cancelReliefPackage_ok hcancel
    rw [hf]
    exact .of_eq rfl
  | cancelPreparation rid =>
    simp only [Op.route, cancelPreparation, releaseAllReservations, bind_ok, pure_ok] at h
    obtain ⟨_, _, _, _, rfl⟩ := h
    refine .of_eq ?_
    split <;> rfl
  | markHandover =>
    simp only [Op.route, markHandover, bind_ok, pure_ok] at h
    obtain ⟨_, _, _, _, _, _, _, _, _, _, _, _, rfl⟩ := h
    exact .of_eq rfl

/-- What is committed. -/
theorem ItemsKept.rounded (hc : t.Consistent) (h : ItemsKept t t') : ItemsKept t t'.rounded := by
  refine ⟨fun x hx itemId => ?_, fun hn i hi => ?_⟩
  · have hreq := h.requested x hx itemId
    simp only [Tables.requested, Tables.rounded, Table.get?_mapRows, Option.map_map] at hreq ⊢
    have hcomp : ReliefRqstItem.requestQty ∘ ReliefRqstItem.rounded = numeric 2 ∘ ReliefRqstItem.requestQty := rfl
    rw [hcomp, ← Option.map_map, hreq]
    cases hg : t.reliefrqstItem.get? (x, itemId) with
    | none => rfl
    | some i => exact congrArg some (stored_requestQty hc (Table.mem_of_get? hg)).1
  · obtain ⟨j, hj, rfl⟩ := List.mem_map.1 hi
    exact numeric_nonneg (h.issued hn j hj)

/-- **Every step keeps the items.** -/
theorem step_itemsKept (db : Database) (op : Op) : ItemsKept db.tables (step db op).tables := by
  refine step_cases (P := fun d => ItemsKept db.tables d.tables) (.of_eq rfl) fun db' t ht _ he => ?_
  rw [he]
  exact (route_itemsKept db.consistent ht).rounded db.consistent

end

end Dmis
