import Dmis.Lifecycle

/-!
# What an operation leaves alone

Every operation is about one request (`Op.Targets`). It leaves the package rows of all other requests
alone (`route_rows`), and unless it dispatches a package, the usable stock of every batch
(`route_usable`).
-/

namespace Dmis

open Relational Keyed

/-- The operation is about this request; a draft is created under an id no request has. -/
def Op.Targets (t : Tables) (rqstId : Nat) : Op → Prop
  | .createDraftRequest .. => t.reliefrqst.get? rqstId = none
  | .editItems _ r _ | .deleteItem _ r _ | .submitRequest _ r _ | .submitEligibilityDecision _ r _ _
  | .preparePackage _ r _ _ | .approvePackage _ r _ _ | .reviewApproval _ r _ _ | .cancelPreparation r => r = rqstId
  | .submitForDispatch _ p _ _ | .cancelPackage _ p | .markHandover _ p =>
    ∃ q ∈ t.reliefpkg.get? p, q.reliefrqstId = rqstId

instance (t : Tables) (rqstId : Nat) (op : Op) : Decidable (op.Targets t rqstId) := by
  cases op <;> (unfold Op.Targets; infer_instance)

/-- The dispatch operations. -/
def Op.Dispatches : Op → Prop
  | .preparePackage _ _ .sendForDispatch _ | .approvePackage _ _ .approveAndDispatch _
  | .reviewApproval _ _ .approveAndDispatch _ | .submitForDispatch .. => True
  | _ => False

/-- The operations on the request itself. -/
def Op.OnRequest : Op → Prop
  | .createDraftRequest .. | .editItems .. | .deleteItem .. | .submitRequest ..
  | .submitEligibilityDecision .. => True
  | _ => False

/-- The form an operation processes. -/
def Op.posts : Op → Option (Ctx × Nat × Form)
  | .preparePackage ctx rqstId _ post | .approvePackage ctx rqstId _ post => some (ctx, rqstId, post.form)
  | _ => none

section
variable {t t' t₁ t₂ : Tables} {ctx : Ctx} {rqstId x : Nat} {r : ReliefRqst} {p q : ReliefPkg} {post : Post} {op : Op}
  {form : Form} {vc : Bool} {new : List Alloc} {old : Allocations}

theorem HeaderStep.targets {a b : Option Header} (ha : t.header rqstId = a) (h : HeaderStep op rqstId a b) :
    op.Targets t rqstId := by
  cases h with
  | createDraftRequest => exact Option.map_eq_none_iff.1 ha
  | submitForDispatch | cancelPackage | markHandover =>
    have hf := (header_eq_some.1 ha).2
    exact ⟨_, get?_of_firstPkg hf, (mem_of_firstPkg hf).2⟩
  | _ => rfl

/-! ## What a route does

One inversion lemma for each kind of route; the facts about all operations below are read off them. -/

/-- The operations on the request write the request and its items. -/
theorem route_onRequest (h : op.route t = .ok t') (hop : op.OnRequest) :
    t' = { t with
      reliefrqst := t'.reliefrqst
      reliefrqstItem := t'.reliefrqstItem
      nextReliefrqstId := t'.nextReliefrqstId } := by
  cases op with
  | createDraftRequest =>
    simp only [Op.route, createDraftRequest, bind_ok, pure_ok] at h
    obtain ⟨_, _, _, _, _, _, _, _, rfl⟩ := h
    rfl
  | editItems =>
    simp only [Op.route, editItems, addOrUpdateRequestItem, bind_ok, check_ok, require_ok, exists_const] at h
    obtain ⟨_, _, _, _, _, _, _, _, _, _, _, _, _, _, _, _, _, h⟩ := h
    split at h
    · simp only [pure_ok] at h; subst h; rfl
    · simp only [bind_ok, pure_ok] at h
      obtain ⟨_, _, rfl⟩ := h; rfl
  | deleteItem =>
    simp only [Op.route, deleteItem, bind_ok, pure_ok] at h
    obtain ⟨_, _, _, _, _, _, _, _, rfl⟩ := h
    rfl
  | submitRequest =>
    simp only [Op.route, submitRequest, bind_ok, pure_ok] at h
    obtain ⟨_, _, _, _, _, _, _, _, _, _, _, _, rfl⟩ := h
    rfl
  | submitEligibilityDecision =>
    simp only [Op.route, submitEligibilityDecision, bind_ok, pure_ok] at h
    obtain ⟨_, _, _, _, _, _, _, _, _, _, _, _, _, _, rfl⟩ := h
    rfl
  | _ => exact hop.elim

theorem unmarked_id (p : ReliefPkg) : p.unmarked.reliefpkgId = p.reliefpkgId := by
  unfold ReliefPkg.unmarked; split <;> rfl

/-- What the gate of the approve and review pages lets through. -/
theorem approveGate_mem (h : approveGate ctx rqstId t = .ok (r, p)) :
    r.reliefrqstId = rqstId ∧ p ∈ t.packages rqstId ∧ p.statusCode = .pending := by
  simp only [approveGate, bind_ok, check_ok, require_ok, pure_ok, exists_const] at h
  obtain ⟨-, r', hr, p', hp, -, he⟩ := h
  cases he
  exact ⟨Table.key_of_get? hr, List.mem_of_find?_eq_some hp, by simpa using List.find?_some hp⟩

theorem get?_of_packages (h : p ∈ t.packages rqstId) : t.reliefpkg.get? p.reliefpkgId = some p :=
  Table.get?_key (List.mem_filter.1 h).1

/-- A package of the request is still there once the form is processed. -/
theorem processAllocations_keeps (h : processAllocations ctx form vc r t = .ok (t₁, new, old))
    (hm : p ∈ t.packages r.reliefrqstId) : t₁.reliefpkg.get? p.reliefpkgId = some p := by
  obtain ⟨q, t₀, plans, hp⟩ := processAllocations_ok h
  rw [hp.reliefpkg_eq]
  rcases getOrCreatePkg_cases hp.pkg with ⟨-, rfl⟩ | ⟨hnone, -⟩
  · exact get?_of_packages hm
  · rw [List.head?_eq_none_iff.1 hnone] at hm
    cases hm

/-- A rewritten header keeps the request of every package. -/
theorem setPkg_rqst (hp : t.reliefpkg.get? p.reliefpkgId = some p) (hid : q.reliefpkgId = p.reliefpkgId)
    (hr : q.reliefrqstId = p.reliefrqstId) (id : Nat) :
    ((t.setPkg q).reliefpkg.get? id).map ReliefPkg.reliefrqstId =
      (t.reliefpkg.get? id).map ReliefPkg.reliefrqstId := by
  refine Table.get?_set_map (fun x hx => ?_) id
  have hx : t.reliefpkg.get? q.reliefpkgId = some x := hx
  rw [hid, hp] at hx
  cases hx
  exact hr.symm

/-- What becomes of a processed form: `t₁` is what `_process_allocations` left, `t₂` has the new headers and, on
the approval page, the new issued quantities. Then the stock is reserved, or taken by rows that were read back. -/
structure FormRouted (op : Op) (rqstId : Nat) (t₁ t₂ t' : Tables) (new : List Alloc) (old : Allocations) :
    Prop where
  rest : t₂ = { t₁ with
    reliefrqst := t₂.reliefrqst, reliefpkg := t₂.reliefpkg, reliefrqstItem := t₂.reliefrqstItem,
    reliefpkgItem := t₂.reliefpkgItem }
  rows : t₂.reliefpkgItem = t₁.reliefpkgItem ∨ t₂.reliefpkgItem = t₁.readBack.reliefpkgItem
  keys : t₂.reliefpkg.keys = t₁.reliefpkg.keys
  rqst : ∀ id, (t₂.reliefpkg.get? id).map ReliefPkg.reliefrqstId =
    (t₁.reliefpkg.get? id).map ReliefPkg.reliefrqstId
  items : t₂.reliefrqstItem = t₁.reliefrqstItem ∨ ∃ r, t₂.reliefrqstItem = issueAllocated r new t₁.reliefrqstItem
  stock : (¬ op.Dispatches ∧ reserveInventory new old t₂ = .ok t') ∨
    op.Dispatches ∧ ∃ t₃, commitInventory rqstId t₂ = .ok t₃ ∧ t' = { t₃ with reliefrqst := t'.reliefrqst }

/-- Every posted form is processed once, and followed by one call of the reservation service. -/
theorem route_form (h : op.route t = .ok t') (hop : op.posts = some (ctx, rqstId, form)) :
    ∃ vc r t₁ t₂ new old, r.reliefrqstId = rqstId ∧
      processAllocations ctx form vc r t = .ok (t₁, new, old) ∧ FormRouted op rqstId t₁ t₂ t' new old := by
  cases op with
  | preparePackage ctx rid action post =>
    cases hop
    simp only [Op.route, preparePackage, bind_ok] at h
    obtain ⟨r, hg, h⟩ := h
    obtain ⟨-, -, -, rfl⟩ := prepareGate_ok hg
    cases action with
    | saveDraft =>
      simp only [saveDraft, saveDraftAllocations, bind_ok, pure_ok] at h
      obtain ⟨_, ⟨_, _, _, _, ⟨t₁, new, old⟩, hproc, he⟩, hres⟩ := h
      cases he
      refine ⟨_, r, t₁, _, new, old, rfl, hproc, ?_, .inl ?_, ?_, fun id => ?_, .inl ?_, .inl ⟨not_false, hres⟩⟩
      · simp only [Tables.setRqst]
        split <;> rfl
      · simp only [Tables.setRqst]
        split <;> rfl
      · simp only [Tables.setRqst]
        split
        · exact Table.keys_set _ _
        · rfl
      · simp only [Tables.setRqst]
        split
        · rename_i q hq
          have hr : q.unmarked.reliefrqstId = q.reliefrqstId := by unfold ReliefPkg.unmarked; split <;> rfl
          exact setPkg_rqst (get?_of_firstPkg hq) (unmarked_id q) hr id
        · rfl
      · simp only [Tables.setRqst]
        split <;> rfl
    | submitForApproval =>
      simp only [submitForApproval, submitForApprovalAllocations, bind_ok, require_ok, pure_ok] at h
      obtain ⟨_, ⟨_, _, _, _, _, _, _, _, ⟨t₁, new, old⟩, hproc, q, hq, _, _, he⟩, hres⟩ := h
      cases he
      exact ⟨_, r, t₁, (t₁.setPkg (q.submitted ctx)).setRqst (r.actedOn ctx), new, old, rfl, hproc, rfl,
        .inl rfl, Table.keys_set _ _, setPkg_rqst (q := q.submitted ctx) (get?_of_firstPkg hq) rfl rfl, .inl rfl, .inl ⟨not_false, hres⟩⟩
    | sendForDispatch =>
      simp only [sendForDispatch, bind_ok, require_ok, pure_ok] at h
      obtain ⟨_, _, _, _, _, _, ⟨t₁, new, old⟩, hproc, q, hq, t₃, hcommit, rfl⟩ := h
      exact ⟨_, r, t₁, t₁.readBack.setPkg (q.dispatch ctx), new, old, rfl, hproc, rfl, .inr rfl, Table.keys_set _ _,
        setPkg_rqst (t := t₁.readBack) (q := q.dispatch ctx) (get?_of_firstPkg hq) rfl rfl, .inl rfl,
        .inr ⟨trivial, t₃, hcommit, rfl⟩⟩
  | approvePackage ctx rid action post =>
    cases hop
    simp only [Op.route, approvePackage, bind_ok] at h
    obtain ⟨⟨r, p⟩, hg, h⟩ := h
    obtain ⟨rfl, hm, -⟩ := approveGate_mem hg
    cases action with
    | saveDraft =>
      simp only [saveDraftApproval, saveDraftApprovalAllocations, bind_ok, pure_ok] at h
      obtain ⟨_, ⟨_, _, _, _, ⟨t₁, new, old⟩, hproc, he⟩, hres⟩ := h
      cases he
      exact ⟨_, r, t₁, t₁.setPkg (p.redrafted ctx), new, old, rfl, hproc, rfl, .inl rfl, Table.keys_set _ _,
        setPkg_rqst (q := p.redrafted ctx) (processAllocations_keeps hproc hm) rfl rfl, .inl rfl,
        .inl ⟨not_false, hres⟩⟩
    | approveAndDispatch =>
      simp only [approveAndDispatch, bind_ok, pure_ok] at h
      obtain ⟨_, _, _, _, ⟨t₁, new, old⟩, hproc, _, _, _, _, t₃, hcommit, rfl⟩ := h
      have hp := processAllocations_keeps hproc hm
      let issued := { t₁.readBack with reliefrqstItem := issueAllocated r new t₁.reliefrqstItem }
      exact ⟨_, r, t₁, issued.setPkg (p.dispatch ctx), new, old, rfl, hproc, rfl, .inr rfl, Table.keys_set _ _,
        setPkg_rqst (t := issued) (q := p.dispatch ctx) hp rfl rfl, .inr ⟨r, rfl⟩, .inr ⟨trivial, t₃, hcommit, rfl⟩⟩
  | _ => cases hop

/-- Read back or not, the rows are stored as they were processed. -/
theorem FormRouted.rows_rounded (h : FormRouted op rqstId t₁ t₂ t' new old) :
    t₂.rounded.reliefpkgItem = t₁.rounded.reliefpkgItem := by
  rcases h.rows with he | he
  · simp only [Tables.rounded, he]
  · rw [← rounded_readBack t₁]
    simp only [Tables.rounded, he]

/-- The reservation service writes batches and totals. -/
theorem FormRouted.frame (h : FormRouted op rqstId t₁ t₂ t' new old) :
    t'.reliefpkg = t₂.reliefpkg ∧ t'.reliefpkgItem = t₂.reliefpkgItem ∧
    t'.reliefrqstItem = t₂.reliefrqstItem ∧ t'.nextReliefpkgId = t₂.nextReliefpkgId := by
  rcases h.stock with ⟨-, hres⟩ | ⟨-, t₃, hcommit, he⟩
  · have hf := (reserveInventory_ok hres).1
    rw [hf]
    exact ⟨rfl, rfl, rfl, rfl⟩
  · obtain ⟨_, _, hf, _⟩ := commitInventory_ok hcommit
    rw [he, hf]
    exact ⟨rfl, rfl, rfl, rfl⟩

/-- The review page writes headers, and the stock if it dispatches. -/
theorem reviewApproval_frame {action : ReviewAction}
    (h : (Op.reviewApproval ctx rqstId action post).route t = .ok t') :
    t' = { t with
      itembatch := t'.itembatch
      inventory := t'.inventory
      reliefrqst := t'.reliefrqst
      reliefpkg := t'.reliefpkg } ∧
    t'.reliefpkg.keys = t.reliefpkg.keys ∧ (action = .reject → t'.itembatch = t.itembatch) := by
  simp only [Op.route, reviewApproval, bind_ok] at h
  obtain ⟨⟨r, p⟩, -, h⟩ := h
  cases action with
  | approveAndDispatch =>
    simp only [reviewApproveAndDispatch, bind_ok, pure_ok] at h
    obtain ⟨_, _, _, _, _, _, _, _, t₂, hcommit, rfl⟩ := h
    obtain ⟨_, _, hf, _⟩ := commitInventory_ok hcommit
    rw [hf]
    exact ⟨rfl, Table.keys_set _ _, fun ha => by cases ha⟩
  | reject =>
    simp only [reviewReject, bind_ok, pure_ok] at h
    obtain ⟨_, _, _, _, rfl⟩ := h
    exact ⟨rfl, Table.keys_set _ _, fun _ => rfl⟩

/-- Workflow C writes the stock, the rows of the package, and the records. -/
theorem submitForDispatch_frame {pkgId : Nat} {version : VersionField} {field : PlanField}
    (h : submitForDispatch ctx pkgId version field t = .ok t') :
    ∃ p r plan batches totals, t.reliefpkg.get? pkgId = some p ∧ t.reliefrqst.get? p.reliefrqstId = some r ∧
      lmPlan pkgId field t = .ok plan ∧
      t' = updateDispatchRecords ctx p r plan
        { overwritePackageItems pkgId plan t with itembatch := batches, inventory := totals } := by
  simp only [submitForDispatch, workflowC, bind_ok, require_ok, pure_ok] at h
  obtain ⟨_, _, _, _, _, _, plan, hplan, _, _, p, hp, _, _, _, _, _, _, r, hr, t₁, hundo, t₂, hdep, rfl⟩ := h
  have h₁ := undoLoReservations_frame hundo
  have h₂ := depleteUsableStock_frame hdep
  have hr : t.reliefrqst.get? p.reliefrqstId = some r := hr
  refine ⟨p, r, plan, t₂.itembatch, t₂.inventory, hp, hr, hplan, congrArg (updateDispatchRecords ctx p r plan) ?_⟩
  rw [h₂, h₁]
  rfl

/-! ## Package rows -/

theorem processAllocations_rows {form : Form} {vc : Bool} {new : List Alloc} {old : Allocations}
    (h : processAllocations ctx form vc r t = .ok (t', new, old))
    (hq : q ∈ t.reliefpkg.rows) (hne : q.reliefrqstId ≠ r.reliefrqstId) (k : BatchKey) :
    t'.reliefpkgItem.get? (q.reliefpkgId, k) = t.reliefpkgItem.get? (q.reliefpkgId, k) := by
  obtain ⟨p, t₁, plans, hp⟩ := processAllocations_ok h
  refine hp.others _ _ fun e => hne ?_
  rcases getOrCreatePkg_cases hp.pkg with ⟨hf, -⟩ | ⟨-, -, pkgs, hi, -⟩
  · obtain ⟨hm, hr⟩ := mem_of_firstPkg hf
    rw [← hr, List.inj_on_of_nodup_map t.reliefpkg.nodup hq hm e]
  · exact absurd (List.mem_map.2 ⟨q, hq, e⟩) (Table.insert_eq_some.1 hi).1

theorem overwritePackageItems_get? {pkgId : Nat} (plan : List PlanEntry) (hne : x ≠ pkgId) (k : BatchKey) :
    (overwritePackageItems pkgId plan t).reliefpkgItem.get? (x, k) = t.reliefpkgItem.get? (x, k) := by
  have hrows : ∀ {plan : List PlanEntry} {rows : Table ReliefPkgItem},
      (plan.foldl (fun rows e => rows.upsert (planRow pkgId e)) rows).get? (x, k) = rows.get? (x, k) := by
    intro plan
    induction plan with
    | nil => intro rows; rfl
    | cons e plan ih =>
      intro rows
      rw [List.foldl_cons, ih, Table.get?_upsert, if_neg]
      exact fun h => hne (congrArg Prod.fst h).symm
  simp only [overwritePackageItems, Table.get?_mapRows, hrows]
  cases hg : t.reliefpkgItem.get? (x, k) with
  | none => rfl
  | some i =>
    have hi : i.reliefpkgId = x := congrArg Prod.fst (Table.key_of_get? hg)
    simp only [Option.map_some, hi, hne, false_and, if_false]

theorem get?_deleteWhere_of_ne {rows : Table ReliefPkgItem} {pkgId : Nat} (hne : x ≠ pkgId) (k : BatchKey) :
    (rows.deleteWhere fun i => i.reliefpkgId = pkgId).get? (x, k) = rows.get? (x, k) := by
  rw [Table.get?_deleteWhere]
  cases hg : rows.get? (x, k) with
  | none => rfl
  | some i =>
    have hi : i.reliefpkgId = x := congrArg Prod.fst (Table.key_of_get? hg)
    simp [hi, hne]

theorem id_ne_of_rqst_ne (hq : q ∈ t.reliefpkg.rows) (hne : q.reliefrqstId ≠ rqstId)
    (hp : p ∈ t.reliefpkg.rows) (hr : p.reliefrqstId = rqstId) : q.reliefpkgId ≠ p.reliefpkgId := fun e =>
  hne (by rw [List.inj_on_of_nodup_map t.reliefpkg.nodup hq hp e, hr])

theorem rounded_pkgItem (t : Tables) (k : Nat × BatchKey) :
    t.rounded.reliefpkgItem.get? k = (t.reliefpkgItem.get? k).map ReliefPkgItem.rounded := by
  simp only [Tables.rounded, Table.get?_mapRows]

/-- **The rows of other requests' packages are stored as they were.** -/
theorem route_rows (h : op.route t = .ok t') (hT : op.Targets t rqstId)
    (hq : q ∈ t.reliefpkg.rows) (hne : q.reliefrqstId ≠ rqstId) (k : BatchKey) :
    t'.rounded.reliefpkgItem.get? (q.reliefpkgId, k) = t.rounded.reliefpkgItem.get? (q.reliefpkgId, k) := by
  -- only the forms touch the row at all, and they round it
  have hkeeps : t'.reliefpkgItem.get? (q.reliefpkgId, k) = t.reliefpkgItem.get? (q.reliefpkgId, k) →
      t'.rounded.reliefpkgItem.get? (q.reliefpkgId, k) = t.rounded.reliefpkgItem.get? (q.reliefpkgId, k) := fun he => by
    rw [rounded_pkgItem, rounded_pkgItem, he]
  cases op with
  | createDraftRequest | editItems | deleteItem | submitRequest | submitEligibilityDecision =>
    exact hkeeps (by rw [route_onRequest h trivial])
  | preparePackage | approvePackage =>
    obtain ⟨vc, r, t₁, t₂, new, old, rfl, hproc, hf⟩ := route_form h rfl
    cases hT
    have hrows : t'.rounded.reliefpkgItem = t₁.rounded.reliefpkgItem := by
      rw [← hf.rows_rounded]
      simp only [Tables.rounded, hf.frame.2.1]
    rw [hrows, rounded_pkgItem, rounded_pkgItem, processAllocations_rows hproc hq hne k]
  | reviewApproval =>
    exact hkeeps (by rw [(reviewApproval_frame h).1])
  | submitForDispatch ctx pkgId version field =>
    obtain ⟨p, hp, hr⟩ := hT
    have hid : q.reliefpkgId ≠ pkgId := by
      rw [← Table.key_of_get? hp]
      exact id_ne_of_rqst_ne hq hne (Table.mem_of_get? hp) hr
    obtain ⟨p, r, plan, batches, totals, -, -, -, rfl⟩ := submitForDispatch_frame h
    exact hkeeps (overwritePackageItems_get? plan hid k)
  | cancelPackage ctx pkgId =>
    obtain ⟨p, hp, hr⟩ := hT
    simp only [Op.route, cancelPackage, bind_ok] at h
    obtain ⟨_, _, hcancel⟩ := h
    obtain ⟨_, -, -, hf, -⟩ := cancelReliefPackage_ok hcancel
    have hid : q.reliefpkgId ≠ pkgId := by
      rw [← Table.key_of_get? hp]
      exact id_ne_of_rqst_ne hq hne (Table.mem_of_get? hp) hr
    refine hkeeps ?_
    rw [hf]
    exact get?_deleteWhere_of_ne hid k
  | cancelPreparation rid =>
    cases hT
    simp only [Op.route, cancelPreparation, releaseAllReservations, bind_ok, pure_ok] at h
    obtain ⟨_, _, _, _, rfl⟩ := h
    refine hkeeps ?_
    cases hf : t.firstPkg rqstId with
    | none => rfl
    | some p =>
      obtain ⟨hm, hr⟩ := mem_of_firstPkg hf
      exact get?_deleteWhere_of_ne (id_ne_of_rqst_ne hq hne hm hr) k
  | markHandover =>
    simp only [Op.route, markHandover, bind_ok, pure_ok] at h
    obtain ⟨_, _, _, _, _, _, _, _, _, _, _, _, rfl⟩ := h
    exact hkeeps rfl

/-! ## Usable stock -/

/-- The usable quantity of a batch, if there is such a batch. -/
def Tables.usable (t : Tables) (k : BatchKey) : Option ℚ := (t.itembatch.get? k).map ItemBatch.usableQty

theorem usable_congr (h : t'.itembatch = t.itembatch) (k : BatchKey) : t'.usable k = t.usable k := by
  simp only [Tables.usable, h]

theorem reserveInventory_usable {new : List Alloc} {old : Allocations} (h : reserveInventory new old t = .ok t')
    (k : BatchKey) : t'.usable k = t.usable k := by
  rw [Tables.usable, (reserveInventory_ok h).2.1 k, Option.map_map]
  rfl

theorem releaseAllReservations_usable (h : releaseAllReservations rqstId t = .ok t') (k : BatchKey) :
    t'.usable k = t.usable k := by
  simp only [releaseAllReservations, bind_ok, pure_ok] at h
  obtain ⟨batches, hb, _, _, rfl⟩ := h
  refine Table.forRows_map releaseBatch_writesOwn (fun i o b hb x hx => ?_) hb k
  cases hx
  cases hb
  rfl

/-- **Only a dispatch takes usable stock.** -/
theorem route_usable (h : op.route t = .ok t') (hn : ¬ op.Dispatches) (k : BatchKey) :
    t'.usable k = t.usable k := by
  cases op with
  | createDraftRequest | editItems | deleteItem | submitRequest | submitEligibilityDecision =>
    rw [route_onRequest h trivial]
    rfl
  | preparePackage | approvePackage =>
    obtain ⟨vc, r, t₁, t₂, new, old, -, hproc, hf⟩ := route_form h rfl
    obtain ⟨_, _, _, hp⟩ := processAllocations_ok hproc
    obtain ⟨-, hres⟩ := hf.stock.resolve_right fun hd => hn hd.1
    rw [reserveInventory_usable hres, ← usable_congr hp.itembatch_eq, hf.rest]
    rfl
  | reviewApproval ctx rid action post =>
    cases action with
    | approveAndDispatch => exact absurd trivial hn
    | reject => exact usable_congr ((reviewApproval_frame h).2.2 rfl) k
  | submitForDispatch => exact absurd trivial hn
  | cancelPackage ctx pkgId =>
    simp only [Op.route, cancelPackage, bind_ok] at h
    obtain ⟨_, _, hcancel⟩ := h
    obtain ⟨_, -, -, -, hb⟩ := cancelReliefPackage_ok hcancel
    obtain ⟨f, hf⟩ := hb k
    rw [Tables.usable, hf, Option.map_map]
    rfl
  | cancelPreparation rid =>
    simp only [Op.route, cancelPreparation] at h
    rw [releaseAllReservations_usable h]
    split <;> rfl
  | markHandover =>
    simp only [Op.route, markHandover, bind_ok, pure_ok] at h
    obtain ⟨_, _, _, _, _, _, _, _, _, _, _, _, rfl⟩ := h
    rfl

/-! ## Package ids -/

/-- A package id comes from the sequence, and the sequence moves on. -/
def FreshIds (t t' : Tables) : Prop :=
  t.nextReliefpkgId ≤ t'.nextReliefpkgId ∧ ∀ id ∈ t'.reliefpkg.keys,
    id ∈ t.reliefpkg.keys ∨ id = t.nextReliefpkgId ∧ t.nextReliefpkgId < t'.nextReliefpkgId

theorem FreshIds.of_subset (hn : t'.nextReliefpkgId = t.nextReliefpkgId)
    (hk : ∀ id ∈ t'.reliefpkg.keys, id ∈ t.reliefpkg.keys) : FreshIds t t' :=
  ⟨hn.ge, fun id h => .inl (hk id h)⟩

/-- What follows the processing of a form only rewrites package rows. -/
theorem processAllocations_freshIds {form : Form} {vc : Bool} {new : List Alloc} {old : Allocations}
    {t₁ : Tables} (h : processAllocations ctx form vc r t = .ok (t₁, new, old))
    (hn : t'.nextReliefpkgId = t₁.nextReliefpkgId) (hk : t'.reliefpkg.keys = t₁.reliefpkg.keys) :
    FreshIds t t' := by
  obtain ⟨p, t₂, plans, hp⟩ := processAllocations_ok h
  have hk₁ : t₁.reliefpkg = t₂.reliefpkg := hp.reliefpkg_eq
  have hn₁ : t₁.nextReliefpkgId = t₂.nextReliefpkgId := by rw [hp.frame]
  unfold FreshIds
  rw [hn, hk, hk₁, hn₁]
  rcases getOrCreatePkg_cases hp.pkg with ⟨-, he⟩ | ⟨-, rfl, pkgs, hi, he⟩
  · rw [he]
    exact FreshIds.of_subset rfl fun _ h => h
  · rw [he]
    refine ⟨Nat.le_succ _, fun id hid => ?_⟩
    simp only [Table.keys, (Table.insert_eq_some.1 hi).2, List.map_append, List.mem_append] at hid
    refine hid.imp_right fun hid => ⟨?_, Nat.lt_succ_self _⟩
    simpa [key, newPkg] using hid

/-- **A package id is never used twice.** -/
theorem route_freshIds (h : op.route t = .ok t') : FreshIds t t' := by
  cases op with
  | createDraftRequest | editItems | deleteItem | submitRequest | submitEligibilityDecision =>
    rw [route_onRequest h trivial]
    exact .of_subset rfl fun _ h => h
  | preparePackage | approvePackage =>
    obtain ⟨vc, r, t₁, t₂, new, old, -, hproc, hf⟩ := route_form h rfl
    obtain ⟨hpkgs, -, -, hids⟩ := hf.frame
    have hnext : t₂.nextReliefpkgId = t₁.nextReliefpkgId := by rw [hf.rest]
    exact processAllocations_freshIds hproc (hids.trans hnext) ((congrArg Table.keys hpkgs).trans hf.keys)
  | reviewApproval =>
    obtain ⟨hf, hkeys, -⟩ := reviewApproval_frame h
    exact .of_subset (by rw [hf]) fun id hid => hkeys ▸ hid
  | submitForDispatch ctx pkgId version field =>
    obtain ⟨p, r, plan, batches, totals, -, -, -, rfl⟩ := submitForDispatch_frame h
    refine .of_subset rfl fun id hid => ?_
    rw [← Table.keys_set t.reliefpkg (p.dispatch ctx)]
    exact hid
  | cancelPackage ctx pkgId =>
    simp only [Op.route, cancelPackage, bind_ok] at h
    obtain ⟨_, _, hcancel⟩ := h
    obtain ⟨_, -, -, hf, -⟩ := cancelReliefPackage_ok hcancel
    rw [hf]
    refine .of_subset rfl fun id hid => ?_
    obtain ⟨q, hq, rfl⟩ := List.mem_map.1 hid
    exact List.mem_map.2 ⟨q, (List.mem_filter.1 hq).1, rfl⟩
  | cancelPreparation rid =>
    simp only [Op.route, cancelPreparation, releaseAllReservations, bind_ok, pure_ok] at h
    obtain ⟨_, _, _, _, rfl⟩ := h
    refine .of_subset ?_ fun id hid => ?_
    · split <;> rfl
    · revert hid; split <;> exact fun h => h
  | markHandover =>
    simp only [Op.route, markHandover, bind_ok, pure_ok] at h
    obtain ⟨_, _, _, _, p, _, _, _, _, _, _, _, rfl⟩ := h
    exact .of_subset rfl fun id hid => by rwa [← Table.keys_set t.reliefpkg (p.handedOver _)]

/-! ## Committed states -/

theorem rounded_itembatch (t : Tables) (k : BatchKey) :
    t.rounded.itembatch.get? k = (t.itembatch.get? k).map ItemBatch.rounded := by
  simp only [Tables.rounded, Table.get?_mapRows]

theorem stored_pkgItem (hc : t.Consistent) (k : Nat × BatchKey) :
    (t.reliefpkgItem.get? k).map ReliefPkgItem.rounded = t.reliefpkgItem.get? k := by
  rw [← rounded_pkgItem, hc.stored]

theorem stored_itembatch (hc : t.Consistent) (k : BatchKey) :
    (t.itembatch.get? k).map ItemBatch.rounded = t.itembatch.get? k := by
  rw [← rounded_itembatch, hc.stored]

theorem rounded_batch (hc : t.Consistent) {b : ItemBatch} (hb : b ∈ t.itembatch.rows) : b.rounded = b :=
  Table.eq_of_mapRows key_rounded_itembatch (congrArg Tables.itembatch hc.stored) b hb

theorem rounded_total (hc : t.Consistent) {v : Inventory} (hv : v ∈ t.inventory.rows) : v.rounded = v :=
  Table.eq_of_mapRows key_rounded_inventory (congrArg Tables.inventory hc.stored) v hv

theorem batch_atScale (hc : t.Consistent) {b : ItemBatch} (hb : b ∈ t.itembatch.rows) :
    AtScale 4 b.usableQty ∧ AtScale 4 b.reservedQty :=
  ⟨congrArg ItemBatch.usableQty (rounded_batch hc hb), congrArg ItemBatch.reservedQty (rounded_batch hc hb)⟩

/-- A batch whose quantities are written at the scale of their columns is stored as it is. -/
theorem rounded_batch_with (hc : t.Consistent) {b : ItemBatch} (hb : b ∈ t.itembatch.rows) {u q : ℚ}
    (hu : AtScale 4 u) (hq : AtScale 4 q) :
    ({ b with usableQty := u, reservedQty := q } : ItemBatch).rounded = { b with usableQty := u, reservedQty := q } := by
  have hu : numeric 4 u = u := hu
  have hq : numeric 4 q = q := hq
  calc ({ b with usableQty := u, reservedQty := q } : ItemBatch).rounded
      = { b.rounded with usableQty := numeric 4 u, reservedQty := numeric 4 q } := rfl
    _ = { b with usableQty := u, reservedQty := q } := by rw [rounded_batch hc hb, hu, hq]

theorem rounded_total_with (hc : t.Consistent) {v : Inventory} (hv : v ∈ t.inventory.rows) {u q : ℚ}
    (hu : AtScale 2 u) (hq : AtScale 2 q) :
    ({ v with usableQty := u, reservedQty := q } : Inventory).rounded = { v with usableQty := u, reservedQty := q } := by
  have hu : numeric 2 u = u := hu
  have hq : numeric 2 q = q := hq
  calc ({ v with usableQty := u, reservedQty := q } : Inventory).rounded
      = { v.rounded with usableQty := numeric 2 u, reservedQty := numeric 2 q } := rfl
    _ = { v with usableQty := u, reservedQty := q } := by rw [rounded_total hc hv, hu, hq]

theorem total_atScale (hc : t.Consistent) {v : Inventory} (hv : v ∈ t.inventory.rows) :
    AtScale 2 v.usableQty ∧ AtScale 2 v.reservedQty :=
  ⟨congrArg Inventory.usableQty (rounded_total hc hv), congrArg Inventory.reservedQty (rounded_total hc hv)⟩

theorem rounded_row (hc : t.Consistent) {i : ReliefPkgItem} (hi : i ∈ t.reliefpkgItem.rows) : i.rounded = i :=
  Table.eq_of_mapRows key_rounded_pkgItem (congrArg Tables.reliefpkgItem hc.stored) i hi

theorem rounded_rounded (t : Tables) : t.rounded.rounded = t.rounded := by
  have hn : ∀ s q, numeric s (numeric s q) = numeric s q := numeric_atScale
  simp only [Tables.rounded, Table.mapRows, List.map_map, Tables.mk.injEq, Table.mk.injEq, true_and, and_true]
  refine ⟨?_, ?_, ?_, ?_⟩ <;> refine List.map_congr_left fun x _ => ?_
  · simp [ItemBatch.rounded, hn]
  · simp [Inventory.rounded, hn]
  · simp [ReliefRqstItem.rounded, hn]
  · simp [ReliefPkgItem.rounded, hn]

/-- Nothing rounds when no row does. -/
theorem rounded_eq (hb : ∀ b ∈ t.itembatch.rows, b.rounded = b) (hv : ∀ v ∈ t.inventory.rows, v.rounded = v)
    (hi : ∀ i ∈ t.reliefrqstItem.rows, i.rounded = i) (hr : ∀ i ∈ t.reliefpkgItem.rows, i.rounded = i) :
    t.rounded = t := by
  have hsame : ∀ {ρ κ : Type} [Keyed ρ κ] (u : Table ρ) (f : ρ → ρ) (hf : ∀ r, key (f r) = key r),
      (∀ r ∈ u.rows, f r = r) → u.mapRows f hf = u := fun u f hf h =>
    Table.ext ((List.map_congr_left h).trans (List.map_id _))
  simp only [Tables.rounded, hsame _ _ _ hb, hsame _ _ _ hv, hsame _ _ _ hi, hsame _ _ _ hr]

theorem rounded_rqstItem (hc : t.Consistent) {i : ReliefRqstItem} (hi : i ∈ t.reliefrqstItem.rows) : i.rounded = i :=
  Table.eq_of_mapRows key_rounded_rqstItem (congrArg Tables.reliefrqstItem hc.stored) i hi

/-- When only the stock tables were written, and no batch was added or removed, their checks are what remains. -/
theorem stock_consistent (hc : t.Consistent) {batches : Table ItemBatch} {totals : Table Inventory}
    (hk : batches.keys = t.itembatch.keys) (hb : ∀ b ∈ batches.rows, b.rounded.Check)
    (hv : ∀ v ∈ totals.rows, v.rounded.Check) :
    ({ t with itembatch := batches, inventory := totals } : Tables).rounded.Consistent := by
  have hitems : t.rounded.reliefpkgItem = t.reliefpkgItem := by rw [hc.stored]
  have hrqst : t.rounded.reliefrqstItem = t.reliefrqstItem := by rw [hc.stored]
  have hkeys : (batches.mapRows ItemBatch.rounded key_rounded_itembatch).keys = t.itembatch.keys := by
    rw [← hk]
    simp only [Table.keys, Table.mapRows, List.map_map]
    rfl
  have hids : ∀ b : Table ItemBatch, b.rows.map (·.batchId) = b.keys.map BatchKey.batchId := fun b => by
    simp only [Table.keys, List.map_map]
    rfl
  refine
    { stored := rounded_rounded _
      pkItembatch := ?_
      batch := fun b hm => ?_
      inventory := fun v hm => ?_
      rqst := hc.rqst
      rqstItem := fun i hi => hc.rqstItem i (hrqst ▸ hi)
      pkg := hc.pkg
      pkgItem := fun i hi => hc.pkgItem i (hitems ▸ hi)
      fkRqstItem := fun i hi => hc.fkRqstItem i (hrqst ▸ hi)
      fkPkg := hc.fkPkg
      fkPkgItem := fun i hi => hc.fkPkgItem i (hitems ▸ hi)
      fkBatch := fun i hi => ?_ }
  · have hpk := hc.pkItembatch
    rw [hids, ← hkeys, ← hids] at hpk
    exact hpk
  · obtain ⟨b₀, hb₀, rfl⟩ := List.mem_map.1 hm
    exact hb b₀ hb₀
  · obtain ⟨v₀, hv₀, rfl⟩ := List.mem_map.1 hm
    exact hv v₀ hv₀
  · have hfk := hc.fkBatch i (hitems ▸ hi)
    rw [← hkeys] at hfk
    exact hfk

/-- A step leaves the rows of the other requests' packages alone. -/
theorem step_rows {db : Database} (hT : op.Targets db.tables rqstId)
    (hq : q ∈ db.tables.reliefpkg.rows) (hne : q.reliefrqstId ≠ rqstId) (k : BatchKey) :
    (step db op).tables.reliefpkgItem.get? (q.reliefpkgId, k) =
      db.tables.reliefpkgItem.get? (q.reliefpkgId, k) := by
  refine step_cases (P := fun d => d.tables.reliefpkgItem.get? (q.reliefpkgId, k) =
    db.tables.reliefpkgItem.get? (q.reliefpkgId, k)) rfl fun db' t ht _ he => ?_
  rw [he, route_rows ht hT hq hne k, db.consistent.stored]

/-- A step that is no dispatch takes no usable stock. -/
theorem step_usable {db : Database} (hn : ¬ op.Dispatches) (k : BatchKey) :
    (step db op).tables.usable k = db.tables.usable k := by
  refine step_cases (P := fun d => d.tables.usable k = db.tables.usable k) rfl fun db' t ht _ he => ?_
  have hb := route_usable ht hn k
  have hs := stored_itembatch db.consistent k
  simp only [Tables.usable] at hb ⊢
  rw [he, rounded_itembatch, Option.map_map]
  have hcomp : ItemBatch.usableQty ∘ ItemBatch.rounded = numeric 4 ∘ ItemBatch.usableQty := rfl
  rw [hcomp, ← Option.map_map, hb, Option.map_map, ← hcomp, ← Option.map_map, hs]

end

end Dmis
