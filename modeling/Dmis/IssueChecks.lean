import Dmis.RequestItems
import Dmis.Lib.DecimalContext

/-!
# What a dispatch issues

A batch is looked at when a quantity of it is posted: `validate_batch_allocation` wants it active and not
expired that day. The review page dispatches the saved rows, on whatever day, without a second look
(`packaging.py:170-277`), and Workflow C takes the client's plan as it comes
(`dispatch_service.py:341-429`, `:486-550`): of any item, from any batch. `issues_checked_stock`: apart from
this, and from totals that only pass their check before they are rounded, what is issued is what was
requested, from batches that may be issued. Totals are rounded where they are stored, and before that where they need
more than 28 digits; quantities of twelve decimals do not.
-/

namespace Dmis

open Relational Keyed

/-! ## What an issued quantity has to satisfy -/

/-- The batch may be issued on this day. -/
def Tables.Issuable (t : Tables) (today : Day) (k : BatchKey) : Prop :=
  ∃ b ∈ t.itembatch.get? k, b.statusCode = .active ∧ ¬ b.Expired today

/-- The package takes only what its request asks for. -/
structure WithinRequest (t : Tables) (p : ReliefPkg) : Prop where
  requested : ∀ i ∈ t.positiveItems p.reliefpkgId, t.requested p.reliefrqstId i.itemId ≠ none
  total : ∀ itemId, ∀ q ∈ t.requested p.reliefrqstId itemId, itemTotal (t.pkgItems p.reliefpkgId) itemId ≤ q

structure IssuedWell (today : Day) (t : Tables) (p : ReliefPkg) : Prop extends WithinRequest t p where
  batch : ∀ i ∈ t.positiveItems p.reliefpkgId, t.Issuable today i.batch

/-- A post, or a change of the stock tables by the rest of the system: receipts, adjustments, a batch taken
out of use. -/
inductive Event where
  | post (op : Op)
  | stock (batches : Table ItemBatch) (totals : Table Inventory)

def next (db : Database) : Event → Database
  | .post op => step db op
  | .stock batches totals => db.after fun t => .ok { t with itembatch := batches, inventory := totals }

/-- The dispatch operations, with the day of the dispatch. -/
def Op.dispatchDay : Op → Option Day
  | .preparePackage ctx _ .sendForDispatch _ | .approvePackage ctx _ .approveAndDispatch _
  | .reviewApproval ctx _ .approveAndDispatch _ | .submitForDispatch ctx _ _ _ => some ctx.today
  | _ => none

/-- A dispatch that goes through issues what it should. -/
def IssuesWell (db : Database) : Event → Prop
  | .post op => Commits db op → ∀ day ∈ op.dispatchDay, ∀ rqstId, op.Targets db.tables rqstId →
    ∀ p ∈ (step db op).tables.firstPkg rqstId, IssuedWell day (step db op).tables p
  | .stock .. => True

/-! ## When it holds -/

/-- The quantities a form posts for an item. -/
def Form.typed (f : Form) (itemId : Nat) : List ℚ :=
  ((f.allocations.filter AllocField.named).filter fun a => a.itemId = itemId).filterMap fun a =>
    (safeQuantity a.value).toOption

def planned (plan : List PlanEntry) (itemId : Nat) : List ℚ :=
  (plan.filter fun e => e.itemId = itemId).map PlanEntry.lmQty

theorem planned_eq_nil {plan : List PlanEntry} {itemId : Nat} (h : itemId ∉ plan.map PlanEntry.itemId) :
    planned plan itemId = [] := by
  rw [planned, filter_key_eq_nil h, List.map_nil]

/-- If `checked`, which the code compares with the limit, is within it, so are the quantities once stored. -/
def StoredWithin (limit checked : ℚ) (qtys : List ℚ) : Prop :=
  checked ≤ limit → (qtys.map (numeric 4)).sum ≤ limit

/-- What a post must meet. Saved rows are issued from batches that may be issued on the day of the dispatch; so
is a plan, and it names items of the request. A form's totals are checked as typed, a plan's, by
`c_reliefrqst_item_2a`, in cents. -/
def Op.Checked (t : Tables) : Op → Prop
  | .preparePackage _ rqstId _ post | .approvePackage _ rqstId _ post =>
    ∀ itemId, ∀ q ∈ t.requested rqstId itemId, StoredWithin q (post.form.typed itemId).sum (post.form.typed itemId)
  | .reviewApproval ctx rqstId .approveAndDispatch _ =>
    ∀ p ∈ t.firstPkg rqstId, ∀ i ∈ t.positiveItems p.reliefpkgId, t.Issuable ctx.today i.batch
  | .submitForDispatch ctx pkgId _ .absent => ∀ i ∈ t.positiveItems pkgId, t.Issuable ctx.today i.batch
  | .submitForDispatch ctx pkgId _ (.entries es) =>
    ∀ p ∈ t.reliefpkg.get? pkgId, ∀ plan, buildLmPlanFromForm es = .ok plan →
      (∀ e ∈ plan, t.requested p.reliefrqstId e.itemId ≠ none ∧ t.Issuable ctx.today e.batch) ∧
      ∀ itemId, ∀ q ∈ t.requested p.reliefrqstId itemId,
        StoredWithin q (numeric 2 (planned plan itemId).sum) (planned plan itemId)
  | _ => True

/-- The quantities that are posted have at most `s` decimals. -/
def Op.Decimals (s : ℕ) : Op → Prop
  | .preparePackage _ _ _ post | .approvePackage _ _ _ post => post.form.Decimals s
  | .submitForDispatch _ _ _ (.entries es) => ∀ e ∈ es, ∀ q, e.quantity = some (.finite q) → AtScale s q
  | _ => True

/-- What a post asks for is added up exactly, and a post that goes through meets its condition. -/
def Checked (db : Database) : Event → Prop
  | .post op => op.Decimals 12 ∧ (Commits db op → op.Checked db.tables)
  | .stock .. => True

/-! ## Rows of a package -/

section
variable {t t' t₁ : Tables} {ctx : Ctx} {form : Form} {vc : Bool} {r : ReliefRqst} {p q : ReliefPkg}
  {new : List Alloc} {old : Allocations} {t₀ : Tables} {plans : List ItemPlan} {pkgId rqstId itemId : Nat}
  {op : Op} {db : Database} {day : Day} {k : BatchKey}

theorem mem_pkgItems_iff {i : ReliefPkgItem} :
    i ∈ t.pkgItems pkgId ↔ t.reliefpkgItem.get? (pkgId, i.batch) = some i := by
  rw [mem_pkgItems, Table.get?_eq_some]
  refine and_congr_right fun _ => ?_
  exact ⟨fun h => Prod.ext h rfl, fun h => congrArg Prod.fst h⟩

theorem pkgItems_perm (h : ∀ k, t'.reliefpkgItem.get? (pkgId, k) = t.reliefpkgItem.get? (pkgId, k)) :
    (t'.pkgItems pkgId).Perm (t.pkgItems pkgId) := by
  rw [List.perm_ext_iff_of_nodup (nodup_pkgItems t' pkgId).of_map (nodup_pkgItems t pkgId).of_map]
  intro i
  rw [mem_pkgItems_iff, mem_pkgItems_iff, h]

theorem mem_positiveItems_congr (h : ∀ k, t'.reliefpkgItem.get? (pkgId, k) = t.reliefpkgItem.get? (pkgId, k))
    {i : ReliefPkgItem} : i ∈ t'.positiveItems pkgId ↔ i ∈ t.positiveItems pkgId := by
  rw [mem_positiveItems, mem_positiveItems, (pkgItems_perm h).mem_iff]

/-- Only the package's rows and the requested quantities count. -/
theorem WithinRequest.congr (h : WithinRequest t p) (hid : q.reliefpkgId = p.reliefpkgId)
    (hr : q.reliefrqstId = p.reliefrqstId)
    (hrows : ∀ k, t'.reliefpkgItem.get? (p.reliefpkgId, k) = t.reliefpkgItem.get? (p.reliefpkgId, k))
    (hreq : ∀ itemId, t'.requested p.reliefrqstId itemId = t.requested p.reliefrqstId itemId) :
    WithinRequest t' q := by
  refine ⟨fun i hi => ?_, fun x lim hq => ?_⟩
  · rw [hid, mem_positiveItems_congr hrows] at hi
    rw [hr, hreq]
    exact h.requested i hi
  · rw [hr, hreq] at hq
    have hsum : itemTotal (t'.pkgItems p.reliefpkgId) x = itemTotal (t.pkgItems p.reliefpkgId) x :=
      (((pkgItems_perm hrows).filter _).map _).sum_eq
    rw [hid, hsum]
    exact h.total x lim hq

/-- A total over rows of distinct batches, each of which some entry accounts for. -/
theorem itemTotal_le {α : Type} {rows : List ReliefPkgItem} {as : List α} {batch : α → BatchKey} {qty : α → ℚ}
    (hn : (rows.map ReliefPkgItem.batch).Nodup) (hq : ∀ a ∈ as, 0 ≤ qty a)
    (h : ∀ i ∈ rows, 0 < i.itemQty → ∃ a ∈ as, batch a = i.batch ∧ i.itemQty ≤ numeric 4 (qty a)) (itemId : Nat) :
    itemTotal rows itemId ≤
      (((as.filter fun a => (batch a).itemId = itemId).map qty).map (numeric 4)).sum := by
  rw [List.map_map]
  refine sum_le_of_entries (hn.sublist (List.filter_sublist.map _)) (g := batch)
    (fun a ha => numeric_nonneg (hq a (List.mem_filter.1 ha).1)) fun i hi hpos => ?_
  obtain ⟨hi, hid⟩ := List.mem_filter.1 hi
  obtain ⟨a, ha, hk, hle⟩ := h i hi hpos
  refine ⟨a, List.mem_filter.2 ⟨ha, ?_⟩, hk, hle⟩
  rw [hk]
  exact hid

/-- A stored row is a rounded row. -/
theorem mem_pkgItems_rounded {i : ReliefPkgItem} :
    i ∈ t.rounded.pkgItems pkgId ↔ ∃ j ∈ t.pkgItems pkgId, i = j.rounded := by
  simp only [mem_pkgItems, Tables.rounded, Table.mapRows, List.mem_map]
  constructor
  · rintro ⟨⟨j, hj, rfl⟩, hid⟩
    exact ⟨j, ⟨hj, hid⟩, rfl⟩
  · rintro ⟨j, ⟨hj, hid⟩, rfl⟩
    exact ⟨⟨j, hj, rfl⟩, hid⟩

/-! ## Posted forms -/

/-- The quantities of a plan are the typed ones. -/
theorem PlanOk.typed {batches : Table ItemBatch} {totals : Table Inventory} {item : ReliefRqstItem}
    {plan : ItemPlan} (h : PlanOk ctx form vc batches totals old item plan) :
    plan.1.map (fun a => a.1.allocatedQty) = form.typed item.itemId := by
  unfold Form.typed
  have hreads := h.reads
  generalize (form.allocations.filter AllocField.named).filter (fun f => f.itemId = item.itemId) = fs at hreads ⊢
  generalize plan.1 = as at hreads ⊢
  induction hreads with
  | nil => rfl
  | cons hr _ ih => simp [hr.qty, Except.toOption, ih]

/-- The allocations of an item are those of its plan. -/
theorem filter_entries {batches : Table ItemBatch} {totals : Table Inventory} {items : List ReliefRqstItem}
    (h : List.Forall₂ (PlanOk ctx form vc batches totals old) items plans)
    (hn : (items.map ReliefRqstItem.itemId).Nodup) : ∀ item ∈ items, ∃ plan,
      PlanOk ctx form vc batches totals old item plan ∧
      (plans.flatMap Prod.fst).filter (fun a => a.1.itemId = item.itemId) = plan.1 := by
  have hown : ∀ {item : ReliefRqstItem} {plan : ItemPlan}, PlanOk ctx form vc batches totals old item plan →
      ∀ a ∈ plan.1, a.1.itemId = item.itemId := fun hok a ha => by
    obtain ⟨_, _, hr⟩ := exists_of_forall₂_right hok.reads a ha
    exact hr.item
  induction h with
  | nil => simp
  | @cons item plan items plans hok hrest ih =>
    simp only [List.map_cons, List.nodup_cons] at hn
    intro x hx
    rw [List.flatMap_cons]
    rcases List.mem_cons.1 hx with rfl | hx
    · refine ⟨plan, hok, ?_⟩
      have hself : plan.1.filter (fun a => a.1.itemId = x.itemId) = plan.1 :=
        List.filter_eq_self.2 fun a ha => decide_eq_true (hown hok a ha)
      have hnil : (plans.flatMap Prod.fst).filter (fun a => a.1.itemId = x.itemId) = [] := by
        rw [List.filter_eq_nil_iff]
        intro a ha he
        obtain ⟨plan', hp', ha⟩ := List.mem_flatMap.1 ha
        obtain ⟨y, hy, hok'⟩ := exists_of_forall₂_right hrest plan' hp'
        exact hn.1 (List.mem_map.2 ⟨y, hy, (hown hok' a ha).symm.trans (of_decide_eq_true he)⟩)
      rw [List.filter_append, hself, hnil, List.append_nil]
    · obtain ⟨plan', hok', he⟩ := ih hn.2 x hx
      refine ⟨plan', hok', ?_⟩
      have hne : item.itemId ≠ x.itemId := fun e => hn.1 (e ▸ List.mem_map_of_mem hx)
      have hnil : plan.1.filter (fun a => a.1.itemId = x.itemId) = [] := by
        rw [List.filter_eq_nil_iff]
        intro a ha he
        exact hne ((hown hok a ha).symm.trans (of_decide_eq_true he))
      rw [List.filter_append, hnil, List.nil_append, he]

/-- Every row of the package was posted. -/
theorem Processed.row (h : Processed ctx form vc r t t₁ new old p t₀ plans) {i : ReliefPkgItem}
    (hi : i ∈ t₁.pkgItems p.reliefpkgId) :
    ∃ a ∈ plans.flatMap Prod.fst, i = allocRow p.reliefpkgId a := by
  rw [mem_pkgItems_iff, h.rows] at hi
  obtain ⟨a, ha, he⟩ := Option.map_eq_some_iff.1 hi
  exact ⟨a, (List.mem_filter.1 (List.mem_of_getLast? ha)).1, he.symm⟩

theorem requested_of_mem {item : ReliefRqstItem} (h : item ∈ t.rqstItems rqstId) :
    t.requested rqstId item.itemId = some item.requestQty := by
  obtain ⟨hm, rfl⟩ := Tables.mem_rqstItems.1 h
  have hg : t.reliefrqstItem.get? (item.reliefrqstId, item.itemId) = some item := Table.get?_key hm
  rw [Tables.requested, hg]
  rfl

theorem exists_of_requested {x : ℚ} (h : t.requested rqstId itemId = some x) :
    ∃ item ∈ t.rqstItems rqstId, item.itemId = itemId ∧ item.requestQty = x := by
  obtain ⟨item, hg, hx⟩ := Option.map_eq_some_iff.1 h
  have hk : key item = (rqstId, itemId) := Table.key_of_get? hg
  exact ⟨item, Tables.mem_rqstItems.2 ⟨Table.mem_of_get? hg, congrArg Prod.fst hk⟩, congrArg Prod.snd hk, hx⟩

/-- **A posted form stays within the request.** -/
theorem Processed.within (h : Processed ctx form vc r t t₁ new old p t₀ plans) (hq : q.reliefpkgId = p.reliefpkgId)
    (hr : q.reliefrqstId = r.reliefrqstId) (hrows : t'.reliefpkgItem = t₁.rounded.reliefpkgItem)
    (hreq : ∀ itemId, t'.requested r.reliefrqstId itemId = t.requested r.reliefrqstId itemId)
    (hst : ∀ itemId, ∀ x ∈ t.requested r.reliefrqstId itemId,
      StoredWithin x (form.typed itemId).sum (form.typed itemId)) : WithinRequest t' q := by
  have hitems : t'.pkgItems q.reliefpkgId = t₁.rounded.pkgItems p.reliefpkgId := by
    rw [hq, Tables.pkgItems, hrows]
    rfl
  have hrow : ∀ i ∈ t'.pkgItems q.reliefpkgId, ∃ a ∈ plans.flatMap Prod.fst,
      a.1.key = i.batch ∧ i.itemQty ≤ numeric 4 a.1.allocatedQty := fun i hi => by
    rw [hitems, mem_pkgItems_rounded] at hi
    obtain ⟨j, hj, rfl⟩ := hi
    obtain ⟨a, ha, rfl⟩ := h.row hj
    exact ⟨a, ha, rfl, le_rfl⟩
  refine ⟨fun i hi => ?_, fun x lim hx => ?_⟩
  · obtain ⟨a, ha, hk, -⟩ := hrow i (mem_positiveItems.1 hi).1
    obtain ⟨item, hitem, _, _, -, hread⟩ := h.exists_field ha
    have hid : i.itemId = item.itemId := (congrArg BatchKey.itemId hk).symm.trans hread.item
    rw [hr, hreq, hid, requested_of_mem hitem]
    exact Option.some_ne_none _
  · rw [hr, hreq] at hx
    obtain ⟨item, hitem, rfl, rfl⟩ := exists_of_requested hx
    obtain ⟨plan, hok, he⟩ := filter_entries h.planOk (nodup_rqstItems t r.reliefrqstId) item hitem
    have htyped := hok.typed
    have hle := itemTotal_le (nodup_pkgItems t' q.reliefpkgId) (fun a ha => h.qty_nonneg ha) (fun i hi _ => hrow i hi) item.itemId
    have hkey : ∀ a : Alloc × String, a.1.key.itemId = a.1.itemId := fun _ => rfl
    simp only [hkey, he, htyped] at hle
    refine hle.trans (hst item.itemId _ hx ?_)
    rw [← htyped]
    exact hok.limit

/-- Status and expiry: no route writes them. -/
def ItemBatch.label (b : ItemBatch) : StockStatus × Option Day := (b.statusCode, b.expiryDate)

def SameLabels (t t' : Tables) : Prop :=
  ∀ k, (t'.itembatch.get? k).map ItemBatch.label = (t.itembatch.get? k).map ItemBatch.label

theorem SameLabels.issuable (h : SameLabels t t') (hi : t.Issuable day k) : t'.Issuable day k := by
  obtain ⟨b, hb, hs, he⟩ := hi
  have hk := h k
  rw [hb, Option.map_some] at hk
  obtain ⟨b', hb', hl⟩ := Option.map_eq_some_iff.1 hk
  obtain ⟨hs', he'⟩ := Prod.ext_iff.1 hl
  refine ⟨b', hb', hs'.trans hs, ?_⟩
  rw [ItemBatch.Expired, show b'.expiryDate = b.expiryDate from he']
  exact he

theorem SameLabels.rounded (h : SameLabels t t') : SameLabels t t'.rounded := fun k => by
  rw [rounded_itembatch, Option.map_map]
  exact h k

theorem reserveInventory_labels {new : List Alloc} {old : Allocations} (h : reserveInventory new old t = .ok t') :
    SameLabels t t' := fun k => by
  rw [(reserveInventory_ok h).2.1, Option.map_map]
  rfl

theorem commitInventory_labels (h : commitInventory rqstId t = .ok t') : SameLabels t t' := by
  simp only [commitInventory, bind_ok, pure_ok] at h
  obtain ⟨_, _, _, hb, _, _, rfl⟩ := h
  refine Table.forRows_map commitBatch_writesOwn (fun i o b hb x hx => ?_) hb
  obtain ⟨b₀, rfl, -, he⟩ := commitBatch_ok hb
  cases hx
  cases he
  rfl

/-- What a posted form did: the package of the request has the posted rows, of batches that keep their labels. -/
structure Posted (ctx : Ctx) (rqstId : Nat) (form : Form) (t t' : Tables) : Prop where
  processed : ∃ vc r new old p t₀ t₁ plans, Processed ctx form vc r t t₁ new old p t₀ plans ∧
    r.reliefrqstId = rqstId ∧ t'.rounded.reliefpkgItem = t₁.rounded.reliefpkgItem ∧
    ∀ id, (t'.reliefpkg.get? id).map ReliefPkg.reliefrqstId = (t₁.reliefpkg.get? id).map ReliefPkg.reliefrqstId
  labels : SameLabels t t'

theorem route_posted (h : op.route t = .ok t') (hop : op.posts = some (ctx, rqstId, form)) :
    Posted ctx rqstId form t t' := by
  obtain ⟨vc, r, t₁, t₂, new, old, hr, hproc, hf⟩ := route_form h hop
  obtain ⟨p, t₀, plans, hp⟩ := processAllocations_ok hproc
  obtain ⟨hpkgs, hrows, -, -⟩ := hf.frame
  have hrows₂ : t'.rounded.reliefpkgItem = t₁.rounded.reliefpkgItem := by
    rw [← hf.rows_rounded]
    simp only [Tables.rounded, hrows]
  have hbatch : t₂.itembatch = t.itembatch := by rw [hf.rest, hp.itembatch_eq]
  refine ⟨⟨vc, r, new, old, p, t₀, t₁, plans, hp, hr, hrows₂, fun id => hpkgs ▸ hf.rqst id⟩, fun k => ?_⟩
  rw [← hbatch]
  rcases hf.stock with ⟨-, hres⟩ | ⟨-, t₃, hcommit, he⟩
  · exact reserveInventory_labels hres k
  · rw [he]
    exact commitInventory_labels hcommit k

/-! ## Workflow C -/

theorem buildLmPlanFromForm_pos : ∀ {es : List JsonEntry} {plan : List PlanEntry},
    buildLmPlanFromForm es = .ok plan → ∀ e ∈ plan, 0 < e.lmQty
  | [], plan, h => by cases h; simp
  | j :: es, plan, h => by
    unfold buildLmPlanFromForm at h
    split at h
    · exact buildLmPlanFromForm_pos h
    · cases h
    · cases h
    · exact buildLmPlanFromForm_pos h
    · split_ifs at h with hpos
      · simp only [bind_ok, pure_ok] at h
        obtain ⟨_, _, _, _, _, _, plan', hplan, rfl⟩ := h
        intro e he
        rcases List.mem_cons.1 he with rfl | he
        · exact hpos
        · exact buildLmPlanFromForm_pos hplan e he
      · exact buildLmPlanFromForm_pos h

/-- A row of the package after the upserts: the plan's, or an old one the plan does not name. -/
theorem upsertPlan_cases {i : ReliefPkgItem} : ∀ {plan : List PlanEntry} {rows : Table ReliefPkgItem},
    (plan.foldl (fun rows e => rows.upsert (planRow pkgId e)) rows).get? (pkgId, k) = some i →
    (∃ e ∈ plan, i = planRow pkgId e) ∨ (k ∉ plan.map PlanEntry.batch ∧ rows.get? (pkgId, k) = some i)
  | [], _, h => .inr ⟨List.not_mem_nil, h⟩
  | e :: plan, rows, h => by
    rw [List.foldl_cons] at h
    rcases upsertPlan_cases h with ⟨e', he', hi⟩ | ⟨hk, hg⟩
    · exact .inl ⟨e', by simp [he'], hi⟩
    · rw [Table.get?_upsert] at hg
      split_ifs at hg with hkey
      · cases hg
        exact .inl ⟨e, by simp, rfl⟩
      · have hne : k ≠ e.batch := fun he => hkey (congrArg (Prod.mk pkgId) he.symm)
        exact .inr ⟨by simp [hne, hk], hg⟩

/-- A positive row of an overwritten package is the plan's. -/
theorem overwritePackageItems_row {plan : List PlanEntry} {i : ReliefPkgItem}
    (hi : i ∈ (overwritePackageItems pkgId plan t).pkgItems pkgId) (hpos : 0 < i.itemQty) :
    ∃ e ∈ plan, i = planRow pkgId e := by
  rw [mem_pkgItems_iff, overwritePackageItems, Table.get?_mapRows] at hi
  obtain ⟨j, hj, he⟩ := Option.map_eq_some_iff.1 hi
  obtain ⟨hid, hbatch⟩ := Prod.ext_iff.1 (Table.key_of_get? hj)
  rcases upsertPlan_cases hj with ⟨e, hem, rfl⟩ | ⟨hk, -⟩
  · refine ⟨e, hem, ?_⟩
    rw [if_neg] at he
    · exact he.symm
    · rintro ⟨-, hn, -⟩
      exact hn (List.mem_map.2 ⟨e, hem, rfl⟩)
  · split_ifs at he with hz
    · rw [← he] at hpos
      exact absurd hpos (lt_irrefl 0)
    · refine absurd ⟨hid, ?_, he ▸ hpos⟩ hz
      rw [show j.batch = i.batch from hbatch]
      exact hk

theorem undoLoReservations_labels {lo : List ReliefPkgItem} (h : undoLoReservations lo t = .ok t') :
    SameLabels t t' := by
  simp only [undoLoReservations, bind_ok, pure_ok] at h
  obtain ⟨_, hb, _, _, rfl⟩ := h
  refine Table.forRows_map undoBatch_takes.writesOwn (fun i o b hb x hx => ?_) hb
  obtain ⟨b₀, rfl, -, he⟩ := (undoBatch_takes.ok_iff i o _).1 hb
  cases hx
  cases he
  rfl

theorem depleteUsableStock_labels {plan : List PlanEntry} (h : depleteUsableStock plan t = .ok t') :
    SameLabels t t' := by
  simp only [depleteUsableStock, bind_ok, pure_ok] at h
  obtain ⟨_, hb, _, _, rfl⟩ := h
  refine Table.forRows_map depleteBatch_takes.writesOwn (fun e o b hb x hx => ?_) hb
  obtain ⟨b₀, rfl, -, he⟩ := (depleteBatch_takes.ok_iff e o _).1 hb
  cases hx
  cases he
  rfl

theorem submitForDispatch_labels {version : VersionField} {field : PlanField}
    (h : submitForDispatch ctx pkgId version field t = .ok t') : SameLabels t t' := by
  simp only [submitForDispatch, workflowC, bind_ok, pure_ok] at h
  obtain ⟨_, _, _, _, _, _, plan, _, _, _, p, _, _, _, _, _, _, _, r, _, t₁, hundo, t₂, hdep, rfl⟩ := h
  exact fun k => (depleteUsableStock_labels hdep k).trans (undoLoReservations_labels hundo k)

/-- `c_reliefrqst_item_2a`: no more is issued than was requested. -/
theorem ReliefRqstItem.Check.issue_le {i : ReliefRqstItem} (h : i.Check) : i.issueQty ≤ i.requestQty := by
  obtain ⟨hpos, h2a, -⟩ := h
  unfold ReliefRqstItem.C2a at h2a
  split at h2a <;> linarith

/-- What a plan dispatches of an item is, in cents, within what was requested. -/
theorem planned_le {plan : List PlanEntry} {x : ℚ} (hn : IssuedNonneg t) (hc : t.Consistent)
    (hc' : t'.rounded.Consistent) (hitems : t'.reliefrqstItem = issueDispatched r plan t.reliefrqstItem)
    (hpos : ∀ e ∈ plan, 0 < e.lmQty) (hx : t.requested r.reliefrqstId itemId = some x) :
    numeric 2 (planned plan itemId).sum ≤ x := by
  obtain ⟨i, hi, rfl, rfl⟩ := exists_of_requested hx
  obtain ⟨hm, hid⟩ := Tables.mem_rqstItems.1 hi
  obtain ⟨hreq, hissue⟩ := stored_requestQty hc hm
  have hnn : 0 ≤ (planned plan i.itemId).sum := List.sum_nonneg fun q hq => by
    obtain ⟨e, he, rfl⟩ := List.mem_map.1 hq
    exact (hpos e (List.mem_filter.1 he).1).le
  by_cases hmem : i.itemId ∈ plan.map PlanEntry.itemId
  · have hrow : { i with issueQty := i.issueQty + (planned plan i.itemId).sum, versionNbr := i.versionNbr + 1 }.rounded ∈
        t'.rounded.reliefrqstItem.rows := by
      refine List.mem_map_of_mem ?_
      rw [hitems]
      refine List.mem_map.2 ⟨i, hm, ?_⟩
      rw [filter_positive hpos, if_pos ⟨hid, hmem⟩]
      rfl
    have hle := (hc'.rqstItem _ hrow).issue_le
    simp only [ReliefRqstItem.rounded, show numeric 2 i.requestQty = i.requestQty from hreq] at hle
    rw [numeric_add hissue (hn i hm) hnn] at hle
    linarith [hn i hm]
  · rw [planned_eq_nil hmem, List.sum_nil, numeric_zero]
    exact (hc.rqstItem i hm).1.le

/-! ## Steps -/

theorem mem_typed {q : ℚ} (hq : q ∈ form.typed itemId) : ∃ a ∈ form.allocations, safeQuantity a.value = .ok q := by
  obtain ⟨a, ha, hq⟩ := List.mem_filterMap.1 hq
  refine ⟨a, (List.mem_filter.1 (List.mem_filter.1 ha).1).1, ?_⟩
  cases hs : safeQuantity a.value with
  | error e => rw [hs] at hq; cases hq
  | ok q' => rw [hs] at hq; cases hq; rfl

theorem typed_atScale {s : ℕ} (hs : 2 ≤ s) (hf : form.Decimals s) {q : ℚ} (hq : q ∈ form.typed itemId) :
    AtScale s q := by
  obtain ⟨a, ha, hq⟩ := mem_typed hq
  exact safeQuantity_atScale hs (fun r hr => hf a ha r hr) hq

/-- With at most four decimals nothing rounds. -/
theorem storedWithin_of_decimals (hf : form.Decimals 4) (itemId : Nat) (x : ℚ) :
    StoredWithin x (form.typed itemId).sum (form.typed itemId) := by
  intro h
  have hid : (form.typed itemId).map (numeric 4) = form.typed itemId :=
    (List.map_congr_left fun q hq => typed_atScale (by norm_num) hf hq).trans (List.map_id _)
  rw [hid]
  exact h

/-- **With at most twelve decimals Python's total of an item is the exact one**, for a million fields. -/
theorem typed_total (hf : form.Decimals 12) (hn : form.allocations.length ≤ 10 ^ 6) (itemId : Nat) :
    contextSum (form.typed itemId) = (form.typed itemId).sum := by
  refine contextSum_eq (s := 12) (fun q hq => typed_atScale (by norm_num) hf hq) (fun q hq => ?_) ?_
  · obtain ⟨a, -, hq⟩ := mem_typed hq
    exact safeQuantity_nonneg hq
  · have hle : (form.typed itemId).sum ≤ (form.typed itemId).length • maxQty :=
      List.sum_le_card_nsmul _ _ fun q hq => by
        obtain ⟨a, -, hq⟩ := mem_typed hq
        exact safeQuantity_le hq
    have hlen : (form.typed itemId).length ≤ 10 ^ 6 :=
      (((List.length_filterMap_le _ _).trans (List.length_filter_le _ _)).trans (List.length_filter_le _ _)).trans hn
    have hlen' : ((form.typed itemId).length : ℚ) ≤ 10 ^ 6 := by exact_mod_cast hlen
    have hmax : (0 : ℚ) ≤ maxQty := by unfold maxQty; norm_num
    calc (form.typed itemId).sum * 10 ^ 12 ≤ (10 ^ 6 * maxQty) * 10 ^ 12 := by
          rw [nsmul_eq_mul] at hle
          exact mul_le_mul_of_nonneg_right (hle.trans (mul_le_mul_of_nonneg_right hlen' hmax)) (by positivity)
      _ < 10 ^ 28 := by unfold maxQty; norm_num

/-- The invariant of a run. -/
structure Sound (db : Database) : Prop where
  headers : Headers Queued db
  issued : IssuedNonneg db.tables
  saved : ∀ p ∈ db.tables.reliefpkg.rows, p.statusCode ≠ .dispatched → WithinRequest db.tables p

/-- A step that leaves a request with a package did not start from a draft. -/
theorem HeaderStep.not_draft {x : Nat} {r' : ReliefRqst} {o : Option ReliefPkg}
    (h : HeaderStep op x (some ⟨r, o⟩) (some ⟨r', some q⟩)) (hq : Queued ⟨r, o⟩) : r.statusCode ≠ .draft := by
  have hpkg : ∀ p, o = some p → r.statusCode ≠ .draft := fun p hp hd => by
    have hs := (hq p hp).1
    simp [hd] at hs
  cases h with
  | saveDraft ok | submitForApproval ok | sendForDispatch ok =>
    rcases ok.packable with hs | hs <;> simp [hs]
  | _ => exact hpkg _ rfl

/-- A step changes nothing that is requested of a request with a package. -/
theorem requested_kept (hs : Headers Queued db) (hq : q ∈ (step db op).tables.reliefpkg.rows) (itemId : Nat) :
    (step db op).tables.requested q.reliefrqstId itemId = db.tables.requested q.reliefrqstId itemId := by
  refine (step_itemsKept db op).requested _ (fun r hr => ?_) itemId
  obtain ⟨hu, hstep⟩ := step_header hs.1 op
  obtain ⟨r', hb⟩ := header_of_pkg hu (step db op).consistent hq
  have ha : db.tables.header q.reliefrqstId = some ⟨r, db.tables.firstPkg q.reliefrqstId⟩ :=
    header_eq_some.2 ⟨hr, rfl⟩
  have hsame : db.tables.header q.reliefrqstId = some ⟨r', some q⟩ → r.statusCode ≠ .draft := fun h hd => by
    rw [ha, Option.some.injEq, Header.mk.injEq] at h
    have hst := (hs.2 _ _ ha q h.2).1
    simp [hd] at hst
  rcases hstep with he | ⟨x, hst, hother⟩
  · rw [he] at hb
    exact hsame hb
  · by_cases hx : q.reliefrqstId = x
    · subst hx
      rw [ha, hb] at hst
      exact hst.not_draft (hs.2 _ _ ha)
    · rw [hother _ hx] at hb
      exact hsame hb

/-- **A committed form leaves the package within its request**, on batches that may be issued that day. -/
theorem posted_step (hs : Headers Queued db) (hcom : Commits db op) (hop : op.posts = some (ctx, rqstId, form))
    (hq : (step db op).tables.firstPkg rqstId = some q)
    (hst : ∀ itemId, ∀ x ∈ db.tables.requested rqstId itemId,
      StoredWithin x (form.typed itemId).sum (form.typed itemId)) : IssuedWell ctx.today (step db op).tables q := by
  obtain ⟨t, ht, -, he⟩ := step_of_commits hcom
  obtain ⟨⟨vc, r, new, old, p, t₀, t₁, plans, hp, rfl, hi, hrq⟩, hl⟩ := route_posted ht hop
  obtain ⟨hqm, hqr⟩ := mem_of_firstPkg hq
  -- the package the form was processed for is the one that is there now
  have hid : q.reliefpkgId = p.reliefpkgId := by
    have hpm := get?_of_firstPkg hp.firstPkg
    have hg := hrq p.reliefpkgId
    rw [hpm, Option.map_some] at hg
    obtain ⟨p', hp', hpr⟩ := Option.map_eq_some_iff.1 hg
    have hm : p' ∈ (step db op).tables.reliefpkg.rows := by
      rw [he]
      exact Table.mem_of_get? hp'
    have hqp : q = p' := List.inj_on_of_nodup_map (step_header hs.1 op).1 hqm hm
      (hqr.trans ((hpr.trans (mem_of_firstPkg hp.firstPkg).2).symm))
    rw [hqp]
    exact Table.key_of_get? hp'
  have hrows : (step db op).tables.reliefpkgItem = t₁.rounded.reliefpkgItem := by
    rw [he]
    exact hi
  refine ⟨hp.within hid hqr hrows (fun x => hqr ▸ requested_kept hs hqm x) hst, fun i hi' => ?_⟩
  obtain ⟨hmem, hpos⟩ := mem_positiveItems.1 hi'
  have hitems : (step db op).tables.pkgItems q.reliefpkgId = t₁.rounded.pkgItems p.reliefpkgId := by
    rw [hid, Tables.pkgItems, hrows]
    rfl
  rw [hitems, mem_pkgItems_rounded] at hmem
  obtain ⟨j, hj, rfl⟩ := hmem
  have hjpos : 0 < t₁.pkgQty p.reliefpkgId j.batch := by
    rw [pkgQty_of_mem hj]
    exact pos_of_numeric_pos hpos
  obtain ⟨b, hb, hal⟩ := hp.row_pos hjpos
  rw [he]
  exact hl.rounded.issuable ⟨b, hb, hal.active, hal.fresh⟩

/-- What a route does not touch, its step does not touch. -/
theorem step_pkgItem (h : ∀ t, op.route db.tables = .ok t → t.reliefpkgItem = db.tables.reliefpkgItem) :
    (step db op).tables.reliefpkgItem = db.tables.reliefpkgItem := by
  refine step_cases (P := fun d => d.tables.reliefpkgItem = db.tables.reliefpkgItem) rfl fun db' t ht _ he => ?_
  rw [he]
  conv_rhs => rw [← db.consistent.stored]
  simp only [Tables.rounded, h t ht]

theorem step_review_pkgItem (db : Database) (ctx : Ctx) (rqstId : Nat) (action : ReviewAction) (post : Post) :
    (step db (.reviewApproval ctx rqstId action post)).tables.reliefpkgItem = db.tables.reliefpkgItem :=
  step_pkgItem fun t ht => by rw [(reviewApproval_frame ht).1]

/-- A package without rows is within its request. -/
theorem within_of_empty (hc : t.Consistent) (h : t.pkgItems p.reliefpkgId = []) : WithinRequest t p := by
  refine ⟨fun i hi => ?_, fun x lim hx => ?_⟩
  · rw [Tables.positiveItems, h] at hi
    cases hi
  · obtain ⟨item, hitem, -, rfl⟩ := exists_of_requested hx
    rw [h]
    exact (hc.rqstItem item (Tables.mem_rqstItems.1 hitem).1).1.le

theorem cancelPreparation_rows (h : cancelPreparation rqstId t = .ok t') (hp : t.firstPkg rqstId = some p) :
    t'.pkgItems p.reliefpkgId = [] := by
  simp only [cancelPreparation, releaseAllReservations, bind_ok, pure_ok, hp] at h
  obtain ⟨_, _, _, _, rfl⟩ := h
  simp only [Tables.pkgItems, Table.select, Table.deleteWhere, List.filter_filter, List.filter_eq_nil_iff]
  intro i _
  by_cases hi : i.reliefpkgId = p.reliefpkgId <;> simp [hi]

theorem Op.posts_targets (hop : op.posts = some (ctx, rqstId, form)) {x : Nat} (hT : op.Targets t x) : x = rqstId := by
  cases op with
  | preparePackage | approvePackage => cases hop; exact hT.symm
  | _ => cases hop

theorem Op.posts_checked (hop : op.posts = some (ctx, rqstId, form)) (h : op.Checked t) :
    ∀ itemId, ∀ x ∈ t.requested rqstId itemId, StoredWithin x (form.typed itemId).sum (form.typed itemId) := by
  cases op with
  | preparePackage | approvePackage => cases hop; exact h
  | _ => cases hop

/-- **Saved rows stay within the request.** -/
theorem saved_step (hs : Sound db) (hck : Commits db op → op.Checked db.tables)
    (hq : q ∈ (step db op).tables.reliefpkg.rows) (hund : q.statusCode ≠ .dispatched) :
    WithinRequest (step db op).tables q := by
  by_cases hcom : Commits db op
  swap
  · rw [step_of_not_commits hcom] at hq ⊢
    exact hs.saved q hq hund
  have hu := hs.headers.1
  obtain ⟨hu', x, hst, hother⟩ := commits_header hu hcom
  obtain ⟨r', hb⟩ := header_of_pkg hu' (step db op).consistent hq
  have hreq := requested_kept hs.headers hq
  have hT := hst.targets rfl
  by_cases hx : q.reliefrqstId = x
  swap
  · rw [hother _ hx] at hb
    have hm := (mem_of_header hb).1
    exact (hs.saved q hm hund).congr rfl rfl (step_rows hT hm hx) hreq
  subst hx
  cases hpost : op.posts with
  | some y =>
    obtain ⟨ctx, rqstId, form⟩ := y
    have hfirst := (header_eq_some.1 hb).2
    rw [Op.posts_targets hpost hT] at hfirst
    exact (posted_step hs.headers hcom hpost hfirst (Op.posts_checked hpost (hck hcom))).toWithinRequest
  | none =>
    -- a package that was there, of the same id, with the same rows
    have hsame : ∀ p, db.tables.firstPkg q.reliefrqstId = some p → p.statusCode ≠ .dispatched →
        q.reliefpkgId = p.reliefpkgId → (step db op).tables.reliefpkgItem = db.tables.reliefpkgItem →
        WithinRequest (step db op).tables q := fun p hp hpu hid hrows => by
      obtain ⟨hm, hr⟩ := mem_of_firstPkg hp
      exact (hs.saved p hm hpu).congr hid hr.symm (fun k => by rw [hrows]) (fun y => hr ▸ hreq y)
    rw [hb] at hst
    generalize ha : db.tables.header q.reliefrqstId = a at hst
    generalize q.reliefrqstId = x at hst ha hsame hT
    cases hst with
    | editItems | deleteItem | submitRequest | decide =>
      exact hsame q (header_eq_some.1 ha).2 hund rfl (step_quiet db id).2
    | saveDraft | submitForApproval | sendForDispatch | saveDraftApproval | approveAndDispatch => cases hpost
    | reviewApproveAndDispatch | submitForDispatch => exact absurd rfl hund
    | @reviewReject ctx rid post r p ok =>
      refine hsame p (header_eq_some.1 ha).2 ?_ rfl (step_review_pkgItem db ctx _ _ post)
      simp [ok.pending]
    | cancelPreparation =>
      obtain ⟨t, ht, -, he⟩ := step_of_commits hcom
      have hrows := cancelPreparation_rows ht (header_eq_some.1 ha).2
      refine within_of_empty (step db _).consistent (List.eq_nil_iff_forall_not_mem.2 fun i hi => ?_)
      rw [he, mem_pkgItems_rounded, hrows] at hi
      obtain ⟨_, hj, -⟩ := hi
      cases hj
    | markHandover role status => exact absurd status hund

/-- The review page issues the saved rows. -/
theorem review_issues {post : Post} (hs : Sound db)
    (hcom : Commits db (.reviewApproval ctx rqstId .approveAndDispatch post))
    (hck : ∀ p ∈ db.tables.firstPkg rqstId, ∀ i ∈ db.tables.positiveItems p.reliefpkgId,
      db.tables.Issuable ctx.today i.batch)
    (hq : (step db (.reviewApproval ctx rqstId .approveAndDispatch post)).tables.firstPkg rqstId = some q) :
    IssuedWell ctx.today (step db (.reviewApproval ctx rqstId .approveAndDispatch post)).tables q := by
  have hst := commits_target hs.headers.1 hcom trivial rfl
  obtain ⟨r', hb⟩ : ∃ r', (step db _).tables.header rqstId = some ⟨r', some q⟩ := by
    obtain ⟨hm, hr⟩ := mem_of_firstPkg hq
    obtain ⟨r', hb⟩ := header_of_pkg (step_header hs.headers.1 _).1 (step db _).consistent hm
    exact ⟨r', hr ▸ hb⟩
  have hreq := requested_kept hs.headers (mem_of_firstPkg hq).1
  have hrows := step_review_pkgItem db ctx rqstId .approveAndDispatch post
  obtain ⟨t, ht, -, he⟩ := step_of_commits hcom
  have hl : SameLabels db.tables t := by
    simp only [Op.route, reviewApproval, bind_ok, reviewApproveAndDispatch, pure_ok] at ht
    obtain ⟨_, _, _, _, _, _, _, _, _, _, t₂, hcommit, rfl⟩ := ht
    have hl := commitInventory_labels hcommit
    exact hl
  rw [hb] at hst
  generalize ha : db.tables.header rqstId = a at hst
  cases hst with
  | @reviewApproveAndDispatch _ _ _ r p ok =>
    have hp := (header_eq_some.1 ha).2
    obtain ⟨hm, hr⟩ := mem_of_firstPkg hp
    have hgot : ∀ k, (step db (.reviewApproval ctx rqstId .approveAndDispatch post)).tables.reliefpkgItem.get?
        (p.reliefpkgId, k) = db.tables.reliefpkgItem.get? (p.reliefpkgId, k) := fun k => by rw [hrows]
    refine ⟨(hs.saved p hm (by simp [ok.pending])).congr rfl rfl hgot hreq, fun i hi => ?_⟩
    have hi' := (mem_positiveItems_congr hgot).1 hi
    rw [he]
    exact hl.rounded.issuable (hck p hp i hi')

/-- Rows overwritten with themselves, once stored. -/
theorem overwritten_self (hc : t.Consistent)
    (h : t'.reliefpkgItem = (overwritePackageItems pkgId (buildLmPlanFromPkgItems pkgId t) t).reliefpkgItem)
    (k : Nat × BatchKey) : t'.rounded.reliefpkgItem.get? k = t.reliefpkgItem.get? k := by
  rw [rounded_pkgItem, h, overwritePackageItems_self t rfl, stored_pkgItem hc]

/-- Rows overwritten with a plan: positive ones are the plan's. -/
theorem overwritten_row {plan : List PlanEntry} {i : ReliefPkgItem}
    (h : t'.reliefpkgItem = (overwritePackageItems pkgId plan t₁).reliefpkgItem)
    (hi : i ∈ t'.rounded.pkgItems pkgId) (hpos : 0 < i.itemQty) :
    ∃ e ∈ plan, i = (planRow pkgId e).rounded := by
  obtain ⟨j, hj, rfl⟩ := mem_pkgItems_rounded.1 hi
  rw [Tables.pkgItems, h] at hj
  obtain ⟨e, he, rfl⟩ := overwritePackageItems_row hj (pos_of_numeric_pos hpos)
  exact ⟨e, he, rfl⟩

/-- Workflow C issues the saved rows, or the posted plan. -/
theorem workflowC_issues {version : VersionField} {field : PlanField} (hs : Sound db)
    (hcom : Commits db (.submitForDispatch ctx pkgId version field))
    (hck : (Op.submitForDispatch ctx pkgId version field).Checked db.tables)
    (hT : (Op.submitForDispatch ctx pkgId version field).Targets db.tables rqstId)
    (hq : (step db (.submitForDispatch ctx pkgId version field)).tables.firstPkg rqstId = some q) :
    IssuedWell ctx.today (step db (.submitForDispatch ctx pkgId version field)).tables q := by
  have hst := commits_target hs.headers.1 hcom trivial hT
  obtain ⟨hqm, hqr⟩ := mem_of_firstPkg hq
  obtain ⟨r', hb⟩ := header_of_pkg (step_header hs.headers.1 _).1 (step db _).consistent hqm
  have hreq := requested_kept hs.headers hqm
  obtain ⟨t, ht, hc, he⟩ := step_of_commits hcom
  have hl := submitForDispatch_labels ht
  obtain ⟨p', r, plan, batches, totals, hp', hr, hplan, ht⟩ := submitForDispatch_frame ht
  have hr : r.reliefrqstId = p'.reliefrqstId := Table.key_of_get? hr
  have hrows : t.reliefpkgItem = (overwritePackageItems pkgId plan db.tables).reliefpkgItem := by rw [ht]; rfl
  have hitems : t.reliefrqstItem = issueDispatched r plan db.tables.reliefrqstItem := by rw [ht]; rfl
  rw [hqr] at hb hreq
  rw [hb] at hst
  generalize ha : db.tables.header rqstId = a at hst
  cases hst with
  | @submitForDispatch _ _ _ _ r₀ p role status fresh =>
    obtain ⟨hm, hpr⟩ := mem_of_firstPkg (header_eq_some.1 ha).2
    rw [show db.tables.reliefpkg.get? p.reliefpkgId = some p from Table.get?_key hm, Option.some.injEq] at hp'
    subst hp'
    cases field with
    | malformed => cases hplan
    | absent =>
      cases hplan
      have hgot : ∀ k, (step db (.submitForDispatch ctx p.reliefpkgId version .absent)).tables.reliefpkgItem.get?
          (p.reliefpkgId, k) = db.tables.reliefpkgItem.get? (p.reliefpkgId, k) := fun k => by
        rw [he]
        exact overwritten_self db.consistent hrows _
      have hund : p.statusCode ≠ .dispatched := by rcases status with hs | hs <;> simp [hs]
      refine ⟨(hs.saved p hm hund).congr rfl rfl hgot (fun x => hpr ▸ hreq x), fun i hi' => ?_⟩
      rw [he]
      exact hl.rounded.issuable (hck i ((mem_positiveItems_congr hgot).1 hi'))
    | entries es =>
      have hpos := buildLmPlanFromForm_pos hplan
      obtain ⟨hentries, htotal⟩ := hck p (Table.get?_key hm) plan hplan
      have hrow : ∀ i ∈ t.rounded.pkgItems p.reliefpkgId, 0 < i.itemQty → ∃ e ∈ plan,
          e.batch = i.batch ∧ i.itemQty ≤ numeric 4 e.lmQty := fun i hi hpos => by
        obtain ⟨e, hem, rfl⟩ := overwritten_row hrows hi hpos
        exact ⟨e, hem, rfl, le_rfl⟩
      refine ⟨⟨fun i hi' => ?_, fun x lim hx => ?_⟩, fun i hi' => ?_⟩
      · rw [he] at hi'
        obtain ⟨hmem, hq⟩ := mem_positiveItems.1 hi'
        obtain ⟨e, hem, rfl⟩ := overwritten_row hrows hmem hq
        rw [show (p.dispatch ctx).reliefrqstId = rqstId from hpr, hreq, ← hpr]
        exact (hentries e hem).1
      · rw [show (p.dispatch ctx).reliefrqstId = rqstId from hpr, hreq, ← hpr] at hx
        have hle := itemTotal_le (nodup_pkgItems t.rounded p.reliefpkgId) (fun e he => (hpos e he).le) hrow x
        have hcents := planned_le hs.issued db.consistent hc hitems hpos (hr ▸ hx)
        rw [he]
        exact hle.trans (htotal x lim hx hcents)
      · rw [he] at hi'
        obtain ⟨hmem, hq⟩ := mem_positiveItems.1 hi'
        obtain ⟨e, hem, rfl⟩ := overwritten_row hrows hmem hq
        rw [he]
        exact hl.rounded.issuable (hentries e hem).2

/-- **A dispatch that meets the condition issues what it should.** -/
theorem step_issuesWell (hs : Sound db) (hck : Checked db (.post op)) : IssuesWell db (.post op) := by
  intro hcom day hday rqstId hT q hq
  have hc := hck.2 hcom
  cases op with
  | preparePackage ctx rid action post =>
    cases hT
    cases action with
    | sendForDispatch =>
      cases hday
      exact posted_step hs.headers hcom rfl hq hc
    | saveDraft | submitForApproval => cases hday
  | approvePackage ctx rid action post =>
    cases hT
    cases action with
    | approveAndDispatch =>
      cases hday
      exact posted_step hs.headers hcom rfl hq hc
    | saveDraft => cases hday
  | reviewApproval ctx rid action post =>
    cases hT
    cases action with
    | approveAndDispatch =>
      cases hday
      exact review_issues hs hcom hc hq
    | reject => cases hday
  | submitForDispatch ctx pkgId version field =>
    cases hday
    exact workflowC_issues hs hcom hc hT hq
  | _ => cases hday

/-- Writing the stock tables touches nothing else. -/
theorem stock_frame (db : Database) (batches : Table ItemBatch) (totals : Table Inventory) :
    (next db (.stock batches totals)).tables = { db.tables with
      itembatch := (next db (.stock batches totals)).tables.itembatch
      inventory := (next db (.stock batches totals)).tables.inventory } := by
  cases he : db.exec fun t => .ok { t with itembatch := batches, inventory := totals } with
  | error e => simp only [next, Database.after, he]
  | ok db' =>
    obtain ⟨t, ht, -, htables⟩ := exec_ok.1 he
    cases ht
    simp only [next, Database.after, he, htables]
    conv_rhs => rw [← db.consistent.stored]
    rfl

theorem next_sound (hs : Sound db) {e : Event} (hck : Checked db e) : Sound (next db e) := by
  cases e with
  | post op =>
    exact ⟨step_headers headerStep_queued hs.headers op, (step_itemsKept db op).issued hs.issued,
      fun q hq hund => saved_step hs hck.2 hq hund⟩
  | stock batches totals =>
    have hf := stock_frame db batches totals
    refine ⟨⟨?_, fun x h hx => hs.headers.2 x h ?_⟩, ?_, fun p hp hund => ?_⟩
    · rw [hf]; exact hs.headers.1
    · rw [hf] at hx; exact hx
    · rw [hf]; exact hs.issued
    · rw [hf] at hp ⊢
      exact (hs.saved p hp hund).congr rfl rfl (fun _ => rfl) fun _ => rfl

end

/-- **What is issued was requested and may be issued**, in every run from an empty request table, whatever
happens to the stock in between, as long as every post that goes through meets `Op.Checked` and none types more than
twelve decimals. -/
theorem issues_checked_stock (db : Database) (h0 : db.tables.reliefrqst.rows = []) (events : List Event)
    (hc : Along next Checked db events) : Along next IssuesWell db events := by
  have hpkg : db.tables.reliefpkg.rows = [] := by
    refine List.eq_nil_iff_forall_not_mem.2 fun p hp => ?_
    have := db.consistent.fkPkg p hp
    simp [Table.keys, h0] at this
  have hitem : db.tables.reliefrqstItem.rows = [] := by
    refine List.eq_nil_iff_forall_not_mem.2 fun i hi => ?_
    have := db.consistent.fkRqstItem i hi
    simp [Table.keys, h0] at this
  have hinit : Sound db := by
    refine ⟨headers_of_no_packages (fun r p hp => by cases hp) hpkg, fun i hi => ?_, fun p hp => ?_⟩
    · rw [hitem] at hi; cases hi
    · rw [hpkg] at hp; cases hp
  refine Along.imp (I := Sound) (fun _ _ hs hck => next_sound hs hck) (fun s e hs hck => ?_) hinit hc
  cases e with
  | post op => exact step_issuesWell hs hck
  | stock => exact trivial

/-- The blank site with a batch that expires on day 150, and a second item. -/
def Site.stocked : Database :=
  ⟨{ blank.tables with
      itembatch := ⟨[{ batch with expiryDate := some 150 }, { batch with batchId := 2, itemId := 2, batchNo := "B2" }],
        by decide⟩
      inventory := ⟨[stock, { stock with itemId := 2 }], by decide⟩ }, by decide +kernel⟩

/-- A request, and its package up to the submission. -/
def Site.submitting : List Op := life ++ [.preparePackage officer 1 .submitForApproval (post 4 (.num 1) 2)]

/-- The manager's approval on a later day. -/
def Site.review (today : Day) : Op :=
  .reviewApproval { manager with today := today } 1 .approveAndDispatch (post 5 (.num 2) 2)

theorem Site.form_decimals {s : ℕ} {q : ℚ} (hq : AtScale s q) : (form q).Decimals s := fun a ha q' hv => by
  cases List.mem_singleton.1 ha
  cases hv
  exact hq

theorem issues_checked_stock_site :
    Along next IssuesWell Site.stocked ((Site.submitting ++ [Site.review 120]).map .post) ∧
    Commits (run next Site.stocked (Site.submitting.map .post)) (Site.review 120) := by
  refine ⟨issues_checked_stock Site.stocked rfl _ ?_, by decide +kernel⟩
  have hform : AtScale 4 2 := by decide +kernel
  have hdec : (Site.form 2).Decimals 12 := Site.form_decimals (hform.mono (by norm_num))
  refine ⟨⟨trivial, fun _ => trivial⟩, ⟨trivial, fun _ => trivial⟩, ⟨trivial, fun _ => trivial⟩,
    ⟨trivial, fun _ => trivial⟩, ⟨hdec, fun _ x q _ => ?_⟩, ⟨hdec, fun _ x q _ => ?_⟩, ⟨trivial, fun _ => ?_⟩, trivial⟩
  · exact storedWithin_of_decimals (Site.form_decimals hform) x q
  · exact storedWithin_of_decimals (Site.form_decimals hform) x q
  · simp only [Site.review, Op.Checked, Tables.Issuable]
    decide +kernel

/-- The same package reviewed after its batch expired, and dispatched with a plan of the item nobody asked
for. -/
theorem issues_unchecked_stock :
    ¬ IssuesWell (run next Site.stocked (Site.submitting.map .post)) (.post (Site.review 200)) ∧
    ¬ IssuesWell (run next Site.stocked (Site.submitting.map .post)) (.post (.submitForDispatch Site.manager 1 (.num 2)
      (.entries [⟨some 1, some 2, some 2, some (.finite 1), "EA"⟩]))) := by
  constructor
  · intro h
    have hw := h (by decide +kernel) 200 rfl 1 rfl
      ({ newPkg Site.officer Site.rqst 1 with versionNbr := 2 }.dispatch Site.manager) (by decide +kernel)
    have hb := hw.batch ⟨1, 1, 1, 1, 2, "EA"⟩ (by decide +kernel)
    revert hb
    unfold Tables.Issuable
    decide +kernel
  · intro h
    have hw := h (by decide +kernel) 100 rfl 1 (by decide +kernel)
      ({ newPkg Site.officer Site.rqst 1 with versionNbr := 2 }.dispatch Site.manager) (by decide +kernel)
    have hr := hw.requested ⟨1, 1, 2, 2, 1, "EA"⟩ (by decide +kernel)
    revert hr
    decide +kernel

end Dmis
