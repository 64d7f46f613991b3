import Dmis.Lib.Holdings
import Dmis.IssueChecks
import Dmis.OneStepDispatch
import Dmis.PendingCancel
import Dmis.PlannedStock

/-!
# Nothing gets lost

All operations together, over whole runs. `Tables.books` reads the tables as books: what is usable in every batch,
what the undispatched package of a request takes, and what its dispatched one took out. Where no operation runs into
one of the places above where the reservations come apart (`Careful`), every step is one step of the books
(`step_books`), so that what is reserved stays covered and what is usable and what went out add up to the same
(`stock_conserved`).
-/

namespace Dmis

open Relational Keyed

section
variable {t t' t₁ t₂ t₃ : Tables} {p q : ReliefPkg} {r : ReliefRqst} {k : BatchKey} {ctx : Ctx} {rqstId pkgId x : Nat}
  {take held : BatchKey → ℚ} {post : Post} {form : Form} {plan : List PlanEntry} {op : Op} {db : Database}

/-! ## The ledger after a dispatch -/

/-- A dispatched package pledges nothing any more. -/
theorem pledged_dispatched (hp : p ∈ t.reliefpkg.rows) (hs : p.statusCode ≠ .dispatched)
    (hid : q.reliefpkgId = p.reliefpkgId) (hq : q.statusCode = .dispatched)
    (hpkgs : t'.reliefpkg = t.reliefpkg.set q)
    (hrows : ∀ x k, x ≠ p.reliefpkgId → t'.pkgQty x k = t.pkgQty x k) (k : BatchKey) :
    t'.pledged k = t.pledged k - t.pkgQty p.reliefpkgId k := by
  have hkey : key q = key p := hid
  have hsame : t.reliefpkg.sum (fun p => p.statusCode ≠ .dispatched) (fun p => t'.pkgQty p.reliefpkgId k) =
      t.pledged k + (t'.pkgQty p.reliefpkgId k - t.pkgQty p.reliefpkgId k) :=
    Table.sum_of_single hp (by simpa using hs) fun y _ hne => hrows y.reliefpkgId k hne
  unfold Tables.pledged at hsame ⊢
  rw [hpkgs, Table.sum_set hp hkey, hsame]
  simp [hq, hs]
  ring

/-- What `commit_inventory` takes from the batches keeps the ledger where the package's reservation is what goes. -/
theorem Ledger.taken (hl : Ledger t) (hkeys : t'.itembatch.keys = t.itembatch.keys)
    (hbatch : ∀ k, t'.itembatch.get? k = (t.itembatch.get? k).map (ItemBatch.committed (take k)))
    (htotal : ∀ s, (∃ k, 0 < take k ∧ k.stock = s) → t'.inventory.get? s = (t.inventory.get? s).map fun v =>
      { v with usableQty := sumUsable t'.itembatch s, reservedQty := sumReserved t'.itembatch s })
    (hother : ∀ s, (¬ ∃ k, 0 < take k ∧ k.stock = s) → t'.inventory.get? s = t.inventory.get? s)
    (hpledged : ∀ k, t'.pledged k = t.pledged k - held k) (hnonneg : ∀ k, 0 ≤ take k) (hscale : ∀ k, AtScale 2 (take k))
    (hheld : ∀ b ∈ t.itembatch.rows, held b.key ≤ b.reservedQty)
    (hfits : ∀ b ∈ t.itembatch.rows, take b.key ≤ b.usableQty)
    (hnet : ∀ b ∈ t.itembatch.rows, take b.key = held b.key ∨ b.reservedQty = held b.key ∧ held b.key ≤ take b.key)
    (hrows : ∀ i ∈ t'.reliefpkgItem.rows, AtScale 2 i.itemQty) : Ledger t' := by
  -- every batch of `t'` is one of `t` with both columns reduced
  have hrow : ∀ b ∈ t'.itembatch.rows, ∃ b₀ ∈ t.itembatch.rows, b₀.key = b.key ∧
      b.usableQty = b₀.usableQty - take b.key ∧ b.reservedQty = b₀.reservedQty - held b.key ∧
      b.reservedQty = max 0 (b₀.reservedQty - take b.key) := fun b hb => by
    obtain ⟨b₀, hb₀, he⟩ := Table.exists_of_map (k := b.key) hbatch hb rfl
    have hk : b₀.key = b.key := Table.key_of_get? hb₀
    have hm := Table.mem_of_get? hb₀
    have hmax : b.reservedQty = max 0 (b₀.reservedQty - take b.key) := (congrArg ItemBatch.reservedQty he).symm
    have hle := hheld b₀ hm
    have hn := hnet b₀ hm
    rw [hk] at hle hn
    exact ⟨b₀, hm, hk, (congrArg ItemBatch.usableQty he).symm, hmax.trans ((max_sub_eq_iff hle).2 hn), hmax⟩
  have hscales : ∀ b ∈ t'.itembatch.rows, AtScale 2 b.usableQty ∧ AtScale 2 b.reservedQty := fun b hb => by
    obtain ⟨b₀, hm, -, hu, -, hr⟩ := hrow b hb
    rw [hu, hr]
    exact ⟨(hl.batchScale b₀ hm).1.sub (hscale _), AtScale.zero.max ((hl.batchScale b₀ hm).2.sub (hscale _))⟩
  -- where nothing is taken, the batches are as they were
  have hquiet : ∀ s (col : ItemBatch → ℚ), (¬ ∃ k, 0 < take k ∧ k.stock = s) →
      batchSum t'.itembatch s col = batchSum t.itembatch s col := fun s col hs => by
    refine Table.sum_congr hkeys fun k b b' hb hb' => ?_
    rw [hbatch, hb, Option.map_some, Option.some.injEq] at hb'
    subst hb'
    have hk : b.key = k := Table.key_of_get? hb
    refine ⟨rfl, fun hst => ?_⟩
    have hz : take k = 0 := le_antisymm (not_lt.1 fun hpos => hs ⟨k, hpos, by simpa [hk] using hst⟩) (hnonneg k)
    rw [hz, committed_zero (hl.bounds b (Table.mem_of_get? hb)).1]
  refine ⟨fun b hb => ?_, fun b hb => ?_, fun v hv => ?_, fun v hv => ?_, hscales, hrows⟩
  · obtain ⟨b₀, hm, hk, -, hr, -⟩ := hrow b hb
    rw [hr, hpledged, hl.reserved b₀ hm, hk]
  · obtain ⟨b₀, hm, hk, hu, hr, hmax⟩ := hrow b hb
    refine ⟨hmax ▸ le_max_left _ _, ?_⟩
    have hbound := (hl.bounds b₀ hm).2
    have hfit := hfits b₀ hm
    have hn := hnet b₀ hm
    rw [hk] at hfit hn
    rw [hr, hu]
    rcases hn with hn | ⟨hn, -⟩ <;> linarith
  · have hg : t'.inventory.get? v.key = some v := Table.get?_key hv
    by_cases hs : ∃ k, 0 < take k ∧ k.stock = v.key
    · rw [htotal _ hs] at hg
      obtain ⟨v₀, -, he⟩ := Option.map_eq_some_iff.1 hg
      rw [← sumReserved_eq (fun b hb => (hscales b hb).2)]
      exact (congrArg Inventory.reservedQty he).symm
    · rw [hother _ hs] at hg
      rw [hquiet _ _ hs]
      exact hl.reservedTotal v (Table.mem_of_get? hg)
  · have hg : t'.inventory.get? v.key = some v := Table.get?_key hv
    by_cases hs : ∃ k, 0 < take k ∧ k.stock = v.key
    · rw [htotal _ hs] at hg
      obtain ⟨v₀, -, he⟩ := Option.map_eq_some_iff.1 hg
      rw [← sumUsable_eq (fun b hb => (hscales b hb).1)]
      exact (congrArg Inventory.usableQty he).symm
    · rw [hother _ hs] at hg
      rw [hquiet _ _ hs]
      exact hl.usableTotal v (Table.mem_of_get? hg)

theorem setPkg_pkgQty (t : Tables) (q : ReliefPkg) (x : Nat) (k : BatchKey) : (t.setPkg q).pkgQty x k = t.pkgQty x k :=
  rfl

/-- `commit_inventory` on the saved rows of a package takes them, batch by batch. -/
theorem commitInventory_batch (hl : Ledger t) (hc : t.Consistent) (hp : t.firstPkg rqstId = some p)
    (hid : q.reliefpkgId = p.reliefpkgId) (hr : q.reliefrqstId = p.reliefrqstId)
    (h : commitInventory rqstId (t.setPkg q) = .ok t') (k : BatchKey) :
    t'.itembatch.get? k = (t.itembatch.get? k).map (ItemBatch.committed (t.pkgQty p.reliefpkgId k)) := by
  obtain ⟨x, hx, -, hpos, hzero, -⟩ := commitInventory_ok h
  cases Option.mem_unique hx (firstPkg_setPkg hp hid hr)
  have hqty : (t.setPkg q).pkgQty q.reliefpkgId k = t.pkgQty p.reliefpkgId k := by rw [setPkg_pkgQty, hid]
  by_cases hk : 0 < t.pkgQty p.reliefpkgId k
  · obtain ⟨b, hb, -, hg⟩ := hpos k (hqty.symm ▸ hk)
    have hb : t.itembatch.get? k = some b := hb
    rw [hg, hb, hqty, Option.map_some]
  · rw [hzero k (hqty.symm ▸ hk), le_antisymm (not_lt.1 hk) (pkgQty_nonneg hc.pkgItem p.reliefpkgId k)]
    show t.itembatch.get? k = _
    cases hb : t.itembatch.get? k with
    | none => rfl
    | some b => rw [Option.map_some, committed_zero (hl.bounds b (Table.mem_of_get? hb)).1]

theorem commitInventory_ledger (hl : Ledger t) (hc : t.Consistent) (hp : t.firstPkg rqstId = some p)
    (hs : p.statusCode ≠ .dispatched) (hid : q.reliefpkgId = p.reliefpkgId) (hr : q.reliefrqstId = p.reliefrqstId)
    (hq : q.statusCode = .dispatched) (h : commitInventory rqstId (t.setPkg q) = .ok t') : Ledger t' := by
  have hbatch := commitInventory_batch hl hc hp hid hr h
  obtain ⟨hm, -⟩ := mem_of_firstPkg hp
  obtain ⟨x, hx, hf, -, -, htotal, hother⟩ := commitInventory_ok h
  cases Option.mem_unique hx (firstPkg_setPkg hp hid hr)
  have hqty : ∀ k, (t.setPkg q).pkgQty q.reliefpkgId k = t.pkgQty p.reliefpkgId k := fun k => by
    rw [setPkg_pkgQty, hid]
  have hitems : t'.reliefpkgItem = t.reliefpkgItem := by rw [hf]; rfl
  have hle : ∀ b ∈ t.itembatch.rows, t.pkgQty p.reliefpkgId b.key ≤ b.reservedQty := fun b hb => by
    rw [hl.reserved b hb]
    exact pkgQty_le_pledged hc.pkgItem hm hs b.key
  have hpledged : ∀ k, t'.pledged k = t.pledged k - t.pkgQty p.reliefpkgId k :=
    pledged_dispatched hm hs hid hq (by rw [hf]; rfl) fun x k _ => by simp only [Tables.pkgQty, hitems]
  have hkeys : t'.itembatch.keys = t.itembatch.keys := by
    simp only [commitInventory, bind_ok, pure_ok] at h
    obtain ⟨_, _, _, hloop, _, _, rfl⟩ := h
    exact Table.forRows_keys hloop
  simp only [hqty] at htotal hother
  exact hl.taken hkeys hbatch htotal hother hpledged (pkgQty_nonneg hc.pkgItem p.reliefpkgId)
    (pkgQty_atScale hl.rowScale p.reliefpkgId) hle (fun b hb => (hle b hb).trans (hl.bounds b hb).2)
    (fun b _ => .inl rfl) (hitems ▸ hl.rowScale)

theorem reviewApproval_ledger {action : ReviewAction} (hl : Ledger t) (hc : t.Consistent) (hu : UniquePkg t)
    (h : reviewApproval ctx rqstId action post t = .ok t') : Ledger t' := by
  simp only [reviewApproval, bind_ok] at h
  obtain ⟨⟨r, p⟩, hg, h⟩ := h
  obtain ⟨hrid, hm, hpend⟩ := approveGate_mem hg
  obtain ⟨-, -, -, hfirst, -, -⟩ := approveGate_ok hu hg
  subst hrid
  cases action with
  | reject => exact reviewReject_ledger hl hm hpend h
  | approveAndDispatch =>
    simp only [reviewApproveAndDispatch, bind_ok, pure_ok] at h
    obtain ⟨_, -, _, -, _, -, _, -, t₂, hcommit, rfl⟩ := h
    have h₂ := commitInventory_ledger hl hc hfirst (by rw [hpend]; decide) (q := p.dispatch ctx) rfl rfl rfl hcommit
    exact h₂.of_same (.of_eq rfl) rfl rfl rfl

/-! ## The one-step dispatches -/

/-- With at most two decimals the rows are pledged as they are written. -/
theorem pledged_rounded (h : ∀ i ∈ t.reliefpkgItem.rows, AtScale 2 i.itemQty) (k : BatchKey) :
    t.rounded.pledged k = t.pledged k := by
  refine Table.sum_congr rfl fun id p p' hp hp' => ?_
  cases Option.mem_unique hp hp'
  refine ⟨rfl, fun _ => ?_⟩
  rw [pkgQty_rounded]
  exact (pkgQty_atScale h p.reliefpkgId k).mono (by norm_num : 2 ≤ 4)

/-- Cents are read back as they were written. -/
theorem readBack_atScale (h : ∀ i ∈ t.reliefpkgItem.rows, AtScale 2 i.itemQty) :
    ∀ i ∈ t.readBack.reliefpkgItem.rows, AtScale 2 i.itemQty := by
  intro i hi
  obtain ⟨j, hj, rfl⟩ := List.mem_map.1 hi
  have hst : numeric 4 j.itemQty = j.itemQty := (h j hj).mono (by norm_num)
  show AtScale 2 (numeric 4 j.itemQty)
  rw [hst]
  exact h j hj

/-- The totals a one-step dispatch rewrites are those of the warehouses it takes from. -/
theorem oneStep_totals (hop : op.oneStep = some (rqstId, form)) (hs : Sent t t' rqstId form p)
    (hexact : form.Exact) (hl : Ledger t) (h : op.route t = .ok t') :
    (∀ s, (∃ k, 0 < numeric 4 (t.posted rqstId form k) ∧ k.stock = s) → t'.inventory.get? s = (t.inventory.get? s).map fun v =>
      { v with usableQty := sumUsable t'.itembatch s, reservedQty := sumReserved t'.itembatch s }) ∧
    (∀ s, (¬ ∃ k, 0 < numeric 4 (t.posted rqstId form k) ∧ k.stock = s) →
      t'.inventory.get? s = t.inventory.get? s) ∧
    ∀ i ∈ t'.reliefpkgItem.rows, AtScale 2 i.itemQty := by
  have hposts : op.Dispatches ∧ ∃ ctx, op.posts = some (ctx, rqstId, form) := by
    cases op with
    | preparePackage ctx rid action post => cases action <;> cases hop; exact ⟨trivial, ctx, rfl⟩
    | approvePackage ctx rid action post => cases action <;> cases hop; exact ⟨trivial, ctx, rfl⟩
    | _ => cases hop
  obtain ⟨hd, ctx, hposts⟩ := hposts
  obtain ⟨vc, r, t₁, t₂, new, old, rfl, hproc, hf⟩ := route_form h hposts
  obtain ⟨p', t₀, plans, hp⟩ := processAllocations_ok hproc
  obtain ⟨-, t₃, hcommit, he⟩ := hf.stock.resolve_left fun hn => hn.1 hd
  obtain ⟨x, hx, hf₃, -, -, htotal, hother⟩ := commitInventory_ok hcommit
  have hitems : t'.reliefpkgItem = t₂.reliefpkgItem := hf.frame.2.1
  have hqty : ∀ k, t₂.pkgQty x.reliefpkgId k = numeric 4 (t.posted r.reliefrqstId form k) := fun k => by
    obtain ⟨q, hq, hid⟩ := hs.firstPkg
    have hfirst : t'.firstPkg r.reliefrqstId = some x := by
      simp only [Tables.firstPkg, Tables.packages, hf.frame.1] at hx ⊢
      exact hx
    cases Option.mem_unique hq hfirst
    rw [← hs.posted k, ← hid]
    simp only [Tables.pkgQty, hitems]
  have hinv : t₂.inventory = t.inventory := by
    rw [hf.rest]
    exact hp.inventory_eq
  have hv : t'.inventory = t₃.inventory := by rw [he]
  have hb : t'.itembatch = t₃.itembatch := by rw [he]
  simp only [hqty, hinv] at htotal hother
  have hrows : ∀ i ∈ t₁.reliefpkgItem.rows, AtScale 2 i.itemQty := fun i hi => by
    rcases hp.row_cases hi with hm | ⟨a, ha, hq⟩
    · exact hl.rowScale i hm
    · exact hq ▸ hp.qty_atScale le_rfl hexact.decimals ha
  refine ⟨hv ▸ hb ▸ htotal, hv ▸ hother, fun i hi => ?_⟩
  rw [hitems] at hi
  rcases hf.rows with he' | he' <;> rw [he'] at hi
  · exact hrows i hi
  · exact readBack_atScale hrows i hi

theorem oneStep_ledger (hl : Ledger t) (hc : t.Consistent) (hop : op.oneStep = some (rqstId, form))
    (hexact : form.Exact) (hone : (t.packages rqstId).length ≤ 1)
    (hopen : ∀ p ∈ t.packages rqstId, p.statusCode ≠ .dispatched)
    (hnet : ∀ b ∈ t.itembatch.rows, NetsOut t rqstId form b) (h : op.route t = .ok t') : Ledger t' := by
  obtain ⟨p, hp, hs⟩ := sent_of_route hc hop hone hopen h
  obtain ⟨htotal, hother, hrows⟩ := oneStep_totals hop hs hexact hl h
  have hpledged : ∀ k, t'.pledged k = t.pledged k - t.held rqstId k := fun k => by
    rw [← pledged_rounded hrows, hs.pledged hp]
  have hscale : ∀ k, AtScale 2 (numeric 4 (t.posted rqstId form k)) := fun k => by
    rw [← hs.posted k]
    exact pkgQty_atScale hrows p.reliefpkgId k
  have hbatch : ∀ k, t'.itembatch.get? k =
      (t.itembatch.get? k).map (ItemBatch.committed (numeric 4 (t.posted rqstId form k))) := fun k => by
    cases hb : t.itembatch.get? k with
    | some b => rw [(hs.batch k b hb).2, Option.map_some]
    | none =>
      rw [Option.map_none, Table.get?_eq_none, hs.keys]
      exact Table.get?_eq_none.1 hb
  have hheld : ∀ b ∈ t.itembatch.rows, t.held rqstId b.key ≤ b.reservedQty := fun b hb => by
    rw [hl.reserved b hb, Tables.held]
    cases hf : t.firstPkg rqstId with
    | none => exact pledged_nonneg hc.pkgItem b.key
    | some q =>
      obtain ⟨hm, hr⟩ := mem_of_firstPkg hf
      have hmem : q ∈ t.packages rqstId := List.mem_filter.2 ⟨hm, decide_eq_true hr⟩
      exact pkgQty_le_pledged hc.pkgItem hm (hopen q hmem) b.key
  exact hl.taken hs.keys hbatch htotal hother hpledged hs.nonneg hscale hheld
    (fun b hb => (hs.batch b.key b (Table.get?_key hb)).1) hnet hrows

/-! ## Workflow C -/

/-- Over distinct batches with no negative quantity the rows of an overwritten package are what the plan takes. -/
theorem PlanDispatched.pkgQty_eq (h : PlanDispatched ctx t t' p r plan) (hl : Ledger t) (hc : t.Consistent)
    (hn : (plan.map PlanEntry.batch).Nodup) (hnn : ∀ e ∈ plan, 0 ≤ e.lmQty) (k : BatchKey) :
    t'.pkgQty p.reliefpkgId k = drawn plan k := by
  have hx := h.exact hl hc hn hnn
  rw [drawn_eq_lmQtyOf hn hnn, lmQtyOf, Tables.pkgQty]
  cases he : plan.find? fun e => e.batch = k with
  | some e =>
    have hm := List.mem_of_find?_eq_some he
    obtain rfl : e.batch = k := by simpa using List.find?_some he
    rw [hx.planned e hm]
    rfl
  | none =>
    have hnot : k ∉ plan.map PlanEntry.batch := fun hmem => by
      obtain ⟨e, hm, hk⟩ := List.mem_map.1 hmem
      simpa [hk] using List.find?_eq_none.1 he e hm
    rw [hx.dropped k hnot]
    cases t.reliefpkgItem.get? (p.reliefpkgId, k) <;> rfl

theorem PlanDispatched.ledger (h : PlanDispatched ctx t t' p r plan) (hl : Ledger t) (hc : t.Consistent)
    (hp : p ∈ t.reliefpkg.rows) (hs : p.statusCode ≠ .dispatched) (hn : (plan.map PlanEntry.batch).Nodup)
    (hnn : ∀ e ∈ plan, 0 ≤ e.lmQty) (hd : ∀ e ∈ plan, AtScale 2 e.lmQty) (hsuf : PlanSufficient t p.reliefpkgId plan) :
    Ledger t' := by
  have hx := h.exact hl hc hn hnn
  have hitems : t'.reliefpkgItem = (overwritePackageItems p.reliefpkgId plan t).reliefpkgItem := by rw [h.rest]
  have hpkgs : t'.reliefpkg = t.reliefpkg.set (p.dispatch ctx) := by rw [h.rest]
  have hpledged : ∀ k, t'.pledged k = t.pledged k - t.pkgQty p.reliefpkgId k :=
    pledged_dispatched (q := p.dispatch ctx) hp hs rfl rfl hpkgs fun x k hne => by simp only [Tables.pkgQty, hx.otherRows x k hne]
  have hrow : ∀ b ∈ t'.itembatch.rows, ∃ b₀ ∈ t.itembatch.rows, b₀.key = b.key ∧
      b.usableQty = b₀.usableQty - drawn plan b.key ∧
      b.reservedQty = b₀.reservedQty - t.pkgQty p.reliefpkgId b.key := fun b hb => by
    obtain ⟨b₀, hb₀, he⟩ := Table.exists_of_map (k := b.key) h.batch hb rfl
    exact ⟨b₀, Table.mem_of_get? hb₀, Table.key_of_get? hb₀, (congrArg ItemBatch.usableQty he).symm,
      (congrArg ItemBatch.reservedQty he).symm⟩
  have hcov := (h.covered hl hp hs hsuf).1
  refine ⟨fun b hb => ?_, fun b hb => ⟨?_, hcov b hb⟩, fun v hv => ?_, fun v hv => ?_, fun b hb => ?_, fun i hi => ?_⟩
  · obtain ⟨b₀, hm, hk, -, hr⟩ := hrow b hb
    rw [hr, hpledged, hl.reserved b₀ hm, hk]
  · obtain ⟨b₀, hm, hk, -, hr⟩ := hrow b hb
    rw [hr, ← hk, hl.reserved b₀ hm]
    exact sub_nonneg.2 (pkgQty_le_pledged hc.pkgItem hp hs b₀.key)
  · obtain ⟨v₀, -, he⟩ := Table.exists_of_map (k := v.key) (h.sums hl) hv rfl
    exact (congrArg Inventory.reservedQty he).symm
  · obtain ⟨v₀, -, he⟩ := Table.exists_of_map (k := v.key) (h.sums hl) hv rfl
    exact (congrArg Inventory.usableQty he).symm
  · obtain ⟨b₀, hm, -, hu, hr⟩ := hrow b hb
    rw [hu, hr]
    exact ⟨(hl.batchScale b₀ hm).1.sub (drawn_atScale hd b.key),
      (hl.batchScale b₀ hm).2.sub (pkgQty_atScale hl.rowScale p.reliefpkgId b.key)⟩
  · rw [hitems] at hi
    rcases mem_overwritePackageItems hi with hi | hz | ⟨e, he, rfl⟩
    · exact hl.rowScale i hi
    · rw [hz]; exact .zero
    · exact hd e he

/-- The saved rows as a plan: distinct batches, in two decimals, and no more than the package has reserved. -/
theorem savedPlan_sufficient (hl : Ledger t) (hp : p ∈ t.reliefpkg.rows) (hs : p.statusCode ≠ .dispatched) :
    ((buildLmPlanFromPkgItems p.reliefpkgId t).map PlanEntry.batch).Nodup ∧
    (∀ e ∈ buildLmPlanFromPkgItems p.reliefpkgId t, 0 < e.lmQty ∧ AtScale 2 e.lmQty) ∧
    (t.Consistent → PlanSufficient t p.reliefpkgId (buildLmPlanFromPkgItems p.reliefpkgId t)) := by
  have hkeys : (buildLmPlanFromPkgItems p.reliefpkgId t).map PlanEntry.batch =
      (t.positiveItems p.reliefpkgId).map ReliefPkgItem.batch := List.map_map
  have hnodup : ((buildLmPlanFromPkgItems p.reliefpkgId t).map PlanEntry.batch).Nodup := by
    rw [hkeys]
    exact nodup_positiveItems t p.reliefpkgId
  have hrow : ∀ e ∈ buildLmPlanFromPkgItems p.reliefpkgId t, 0 < e.lmQty ∧ AtScale 2 e.lmQty := fun e he => by
    obtain ⟨i, hi, rfl⟩ := List.mem_map.1 he
    obtain ⟨hi, hpos⟩ := mem_positiveItems.1 hi
    exact ⟨hpos, hl.rowScale i (mem_pkgItems.1 hi).1⟩
  refine ⟨hnodup, hrow, fun hc b hb => ?_⟩
  have hle : drawn (buildLmPlanFromPkgItems p.reliefpkgId t) b.key ≤ t.pkgQty p.reliefpkgId b.key := by
    rw [drawn_eq_lmQtyOf hnodup fun e he => (hrow e he).1.le, lmQtyOf]
    cases he : (buildLmPlanFromPkgItems p.reliefpkgId t).find? fun e => e.batch = b.key with
    | none => exact pkgQty_nonneg hc.pkgItem p.reliefpkgId b.key
    | some e =>
      obtain ⟨i, hi, rfl⟩ := List.mem_map.1 (List.mem_of_find?_eq_some he)
      have hfound := List.find?_some he
      have hk : i.batch = b.key := of_decide_eq_true hfound
      rw [← hk, pkgQty_of_mem (mem_positiveItems.1 hi).1]
      exact le_rfl
  have hsplit := hl.reserved_split hp hs hb
  have hbound := (hl.bounds b hb).2
  linarith

/-! ## Cancelling -/

theorem CancelledExactly.ledger (h : CancelledExactly t t' p.reliefpkgId)
    (hkeys : t'.itembatch.keys = t.itembatch.keys) (hl : Ledger t) (hc : t.Consistent) (hp : p ∈ t.reliefpkg.rows)
    (hs : p.statusCode ≠ .dispatched) : Ledger t' := by
  have hrow : ∀ b ∈ t'.itembatch.rows, ∃ b₀ ∈ t.itembatch.rows, b₀.key = b.key ∧ b.usableQty = b₀.usableQty ∧
      b.reservedQty = b₀.reservedQty - t.pkgQty p.reliefpkgId b.key := fun b hb => by
    obtain ⟨b₀, hb₀, he⟩ := Table.exists_of_map (k := b.key) h.batch hb rfl
    exact ⟨b₀, Table.mem_of_get? hb₀, Table.key_of_get? hb₀, (congrArg ItemBatch.usableQty he).symm,
      (congrArg ItemBatch.reservedQty he).symm⟩
  refine ⟨h.reservations.batch, fun b hb => ?_, h.reservations.total, fun v hv => ?_, h.reservations.batchScale,
    h.reservations.rowScale⟩
  · obtain ⟨b₀, hm, hk, hu, hr⟩ := hrow b hb
    have hle := pkgQty_le_pledged hc.pkgItem hp hs b₀.key
    have hnn := pkgQty_nonneg hc.pkgItem p.reliefpkgId b₀.key
    obtain ⟨h0, hbound⟩ := hl.bounds b₀ hm
    rw [← hl.reserved b₀ hm] at hle
    rw [hu, hr, ← hk]
    exact ⟨sub_nonneg.2 hle, by linarith⟩
  · obtain ⟨v₀, hv₀, he⟩ := Table.exists_of_map (k := v.key) h.total hv rfl
    have hk : v₀.key = v.key := Table.key_of_get? hv₀
    have hu : v.usableQty = v₀.usableQty := (congrArg Inventory.usableQty he).symm
    rw [hu, hl.usableTotal v₀ (Table.mem_of_get? hv₀), hk]
    refine (batchSum_congr hkeys (fun k b b' hb hb' => ?_) v.key).symm
    rw [h.batch, hb, Option.map_some, Option.some.injEq] at hb'
    rw [← hb']

/-- Deleting rows that take nothing. -/
theorem emptied_ledger (hl : Ledger t) (hz : ∀ i ∈ t.pkgItems pkgId, i.itemQty = 0) : Ledger (t.emptied pkgId) := by
  have hqty : ∀ x k, (t.emptied pkgId).pkgQty x k = t.pkgQty x k := fun x k => by
    by_cases hx : x = pkgId
    · rw [hx, pkgQty_emptied_self, pkgQty_eq_zero hz]
    · exact pkgQty_emptied_of_ne hx k
  refine ⟨fun b hb => ?_, hl.bounds, hl.reservedTotal, hl.usableTotal, hl.batchScale,
    fun i hi => hl.rowScale i (List.mem_filter.1 hi).1⟩
  rw [hl.reserved b hb]
  simp only [Tables.pledged, hqty]
  rfl

theorem cancelPreparation_ledger (hl : Ledger t)
    (hz : ∀ p ∈ t.firstPkg rqstId, ∀ i ∈ t.pkgItems p.reliefpkgId, i.itemQty = 0)
    (h : cancelPreparation rqstId t = .ok t') : Ledger t' := by
  cases hp : t.firstPkg rqstId with
  | some p =>
    rw [cancelPreparation_eq hp] at h
    cases h
    exact emptied_ledger hl (hz p hp)
  | none =>
    simp only [cancelPreparation, hp] at h
    rw [releaseAllReservations_of_empty fun p hp' => by rw [hp] at hp'; cases hp'] at h
    cases h
    exact hl

end

/-! ## Careful operations -/

/-- The operation keeps out of what breaks the ledger: it does not prepare for a request whose package has gone out,
posts each batch once and in two decimals, takes with a one-step dispatch what was reserved or where nobody else
reserves, plans only what the others leave, cancels no package that has gone out, and discards no rows that
reserve something. -/
def Careful (db : Database) : Op → Prop
  | .preparePackage _ rqstId .saveDraft post | .preparePackage _ rqstId .submitForApproval post =>
    post.form.Exact ∧ ∀ p ∈ db.tables.packages rqstId, p.statusCode ≠ .dispatched
  | .preparePackage _ rqstId .sendForDispatch post =>
    post.form.Exact ∧ (∀ p ∈ db.tables.packages rqstId, p.statusCode ≠ .dispatched) ∧
      ∀ b ∈ db.tables.itembatch.rows, NetsOut db.tables rqstId post.form b
  | .approvePackage _ _ .saveDraft post => post.form.Exact
  | .approvePackage _ rqstId .approveAndDispatch post =>
    post.form.Exact ∧ ∀ b ∈ db.tables.itembatch.rows, NetsOut db.tables rqstId post.form b
  | .submitForDispatch _ pkgId _ (.entries es) => ∀ plan, buildLmPlanFromForm es = .ok plan →
    (plan.map PlanEntry.batch).Nodup ∧ (∀ e ∈ plan, AtScale 2 e.lmQty) ∧ PlanSufficient db.tables pkgId plan
  | .cancelPackage _ pkgId => ∀ p ∈ db.tables.reliefpkg.get? pkgId, p.statusCode = .pending
  | .cancelPreparation rqstId =>
    ∀ p ∈ db.tables.firstPkg rqstId, ∀ i ∈ db.tables.pkgItems p.reliefpkgId, i.itemQty = 0
  | _ => True

section
variable {t t' : Tables} {p : ReliefPkg} {r : ReliefRqst} {ctx : Ctx} {rqstId pkgId : Nat} {post : Post}
  {plan : List PlanEntry} {op : Op} {db : Database}

/-- The one package of a request that the approval pages find is the only one. -/
theorem packages_of_gate (hu : UniquePkg t) (h : approveGate ctx rqstId t = .ok (r, p)) :
    t.packages rqstId = [p] := by
  obtain ⟨rfl, hm, -⟩ := approveGate_mem h
  have hlist := packages_eq hu r.reliefrqstId
  cases hf : t.firstPkg r.reliefrqstId with
  | none =>
    rw [hlist, hf] at hm
    cases hm
  | some q =>
    rw [hf] at hlist
    rw [hlist] at hm ⊢
    obtain rfl : p = q := by simpa using hm
    rfl

theorem packages_length (hu : UniquePkg t) (rqstId : Nat) : (t.packages rqstId).length ≤ 1 := by
  rw [packages_eq hu]
  cases t.firstPkg rqstId <;> simp

theorem submitForDispatch_ledger {version : VersionField} {field : PlanField} (hl : Ledger db.tables)
    (hd : Careful db (.submitForDispatch ctx pkgId version field))
    (h : submitForDispatch ctx pkgId version field db.tables = .ok t') :
    ∃ p r plan, db.tables.reliefpkg.get? pkgId = some p ∧ p.statusCode ≠ .dispatched ∧
      PlanDispatched ctx db.tables t' p r plan ∧ (plan.map PlanEntry.batch).Nodup ∧ (∀ e ∈ plan, 0 ≤ e.lmQty) ∧
      Ledger t' := by
  have hc := db.consistent
  simp only [submitForDispatch, bind_ok, check_ok, require_ok, exists_const] at h
  obtain ⟨-, -, -, n, -, plan, hplan, -, hwork⟩ := h
  obtain ⟨p, r, hp, -, hs, -, hdisp⟩ := workflowC_ok hc hwork
  obtain rfl : p.reliefpkgId = pkgId := Table.key_of_get? hp
  have hm := Table.mem_of_get? hp
  have hne : p.statusCode ≠ .dispatched := by rcases hs with hs | hs <;> rw [hs] <;> decide
  cases field with
  | absent =>
    cases hplan
    obtain ⟨hn, hrow, hsuf⟩ := savedPlan_sufficient hl hm hne
    exact ⟨p, r, _, hp, hne, hdisp, hn, fun e he => (hrow e he).1.le,
      hdisp.ledger hl hc hm hne hn (fun e he => (hrow e he).1.le) (fun e he => (hrow e he).2) (hsuf hc)⟩
  | malformed => cases hplan
  | entries es =>
    obtain ⟨hn, hscale, hsuf⟩ := hd plan hplan
    have hnn : ∀ e ∈ plan, 0 ≤ e.lmQty := fun e he => (buildLmPlanFromForm_pos hplan e he).le
    exact ⟨p, r, plan, hp, hne, hdisp, hn, hnn, hdisp.ledger hl hc hm hne hn hnn hscale hsuf⟩

theorem cancelPackage_ledger (hl : Ledger db.tables) (hd : Careful db (.cancelPackage ctx pkgId))
    (h : cancelPackage ctx pkgId db.tables = .ok t') : Ledger t' := by
  simp only [cancelPackage, bind_ok, check_ok, exists_const] at h
  obtain ⟨-, hcancel⟩ := h
  obtain ⟨p, hp, -⟩ := cancelReliefPackage_ok hcancel
  have hne : p.statusCode ≠ .dispatched := by rw [hd p hp]; decide
  obtain rfl : p.reliefpkgId = pkgId := Table.key_of_get? hp
  exact (cancelledExactly_of_ok hl.reservations db.consistent hp hne hcancel).ledger (cancelReliefPackage_keys hcancel)
    hl db.consistent (Table.mem_of_get? hp) hne

theorem markHandover_ledger (hl : Ledger t) (h : markHandover ctx pkgId t = .ok t') : Ledger t' := by
  simp only [markHandover, bind_ok, check_ok, require_ok, pure_ok, exists_const] at h
  obtain ⟨-, -, p, hp, -, -, -, rfl⟩ := h
  obtain rfl : p.reliefpkgId = pkgId := Table.key_of_get? hp
  exact hl.of_same (SameOpen.setPkg (q := p.handedOver ctx) hp rfl Iff.rfl) rfl rfl rfl

/-- **What a careful operation hands to the commit keeps the ledger.** -/
theorem route_careful (hl : Ledger db.tables) (hu : UniquePkg db.tables) (hd : Careful db op)
    (h : op.route db.tables = .ok t') : Ledger t' := by
  have hc := db.consistent
  cases op with
  | createDraftRequest | editItems | deleteItem | submitRequest | submitEligibilityDecision =>
    rw [route_onRequest h trivial]
    exact hl.of_same (.of_eq rfl) rfl rfl rfl
  | preparePackage ctx rqstId action post =>
    cases action with
    | saveDraft =>
      have hop : Drafting db (.preparePackage ctx rqstId .saveDraft post) := hd
      exact route_ledger hl hop h
    | submitForApproval =>
      have hop : Drafting db (.preparePackage ctx rqstId .submitForApproval post) := hd
      exact route_ledger hl hop h
    | sendForDispatch =>
      have hop : (Op.preparePackage ctx rqstId .sendForDispatch post).oneStep = some (rqstId, post.form) := rfl
      exact oneStep_ledger hl hc hop hd.1 (packages_length hu rqstId) hd.2.1 hd.2.2 h
  | approvePackage ctx rqstId action post =>
    -- the gate found a pending package, and there is no other
    have hopen : ∀ p ∈ db.tables.packages rqstId, p.statusCode ≠ .dispatched := by
      have hroute := h
      simp only [Op.route, approvePackage, bind_ok] at hroute
      obtain ⟨⟨r, p⟩, hg, -⟩ := hroute
      obtain ⟨-, -, hpend⟩ := approveGate_mem hg
      rw [packages_of_gate hu hg]
      intro q hq
      rw [List.mem_singleton.1 hq, hpend]
      decide
    cases action with
    | saveDraft =>
      have hop : Drafting db (.approvePackage ctx rqstId .saveDraft post) := ⟨hd, hopen⟩
      exact route_ledger hl hop h
    | approveAndDispatch =>
      have hop : (Op.approvePackage ctx rqstId .approveAndDispatch post).oneStep = some (rqstId, post.form) := rfl
      exact oneStep_ledger hl hc hop hd.1 (packages_length hu rqstId) hopen hd.2 h
  | reviewApproval => exact reviewApproval_ledger hl hc hu h
  | submitForDispatch =>
    obtain ⟨_, _, _, -, -, -, -, -, hl'⟩ := submitForDispatch_ledger hl hd h
    exact hl'
  | cancelPackage => exact cancelPackage_ledger hl hd h
  | cancelPreparation => exact cancelPreparation_ledger hl hd h
  | markHandover => exact markHandover_ledger hl h

theorem step_careful (hl : Ledger db.tables) (hu : UniquePkg db.tables) (hd : Careful db op) :
    Ledger (step db op).tables := by
  refine step_cases (P := fun d => Ledger d.tables) hl fun db' t ht _ he => ?_
  rw [he]
  exact (route_careful hl hu hd ht).rounded

end

/-! ## The books -/

/-- What the packages that pass `f` take, by request. -/
noncomputable def Tables.byRequest (t : Tables) (f : ReliefPkg → Bool) : Nat →₀ (BatchKey → ℚ) :=
  ((t.reliefpkg.select f).map fun p => Finsupp.single p.reliefrqstId (t.pkgQty p.reliefpkgId)).sum

/-- What is usable, what the undispatched packages take, and what the dispatched ones took. -/
noncomputable def Tables.books (t : Tables) : Books Nat BatchKey ℚ :=
  { stock := fun k => (t.usable k).getD 0
    claims := t.byRequest fun p => p.statusCode ≠ .dispatched
    sent := t.byRequest fun p => p.statusCode = .dispatched }

/-- What has gone out of a batch. -/
def Tables.dispatched (t : Tables) (k : BatchKey) : ℚ :=
  t.reliefpkg.sum (fun p => p.statusCode = .dispatched) fun p => t.pkgQty p.reliefpkgId k

section
variable {t t' : Tables} {p : ReliefPkg} {k : BatchKey} {x : Nat} {f : ReliefPkg → Bool} {op : Op} {db : Database}

theorem total_byRequest (t : Tables) (f : ReliefPkg → Bool) (k : BatchKey) :
    total (t.byRequest f) k = t.reliefpkg.sum f fun p => t.pkgQty p.reliefpkgId k :=
  total_sum_apply ..

theorem total_claims (t : Tables) (k : BatchKey) : total t.books.claims k = t.pledged k := total_byRequest t _ k

theorem total_sent (t : Tables) (k : BatchKey) : total t.books.sent k = t.dispatched k := total_byRequest t _ k

/-- A request has at most one package, and takes what that one takes. -/
theorem byRequest_apply (hu : UniquePkg t) (f : ReliefPkg → Bool) (x : Nat) :
    t.byRequest f x = ((t.firstPkg x).filter f).elim 0 fun p => t.pkgQty p.reliefpkgId := by
  have hlist : (t.reliefpkg.select f).filter (fun p => decide (p.reliefrqstId = x)) =
      ((t.firstPkg x).toList).filter f := by
    rw [← packages_eq hu]
    exact List.filter_comm ..
  rw [Tables.byRequest, sum_singles_apply, hlist]
  cases t.firstPkg x with
  | none => rfl
  | some p => cases hf : f p <;> simp [Option.filter, hf]

theorem firstPkg_of_header (hc : t.Consistent) (hc' : t'.Consistent) (h : t'.header x = t.header x) :
    t'.firstPkg x = t.firstPkg x := by
  -- without the request there is no package
  have hnone : ∀ {u : Tables}, u.Consistent → u.header x = none → u.firstPkg x = none := fun {u} hu hh => by
    rw [Tables.header, Option.map_eq_none_iff, Table.get?_eq_none] at hh
    refine Option.eq_none_iff_forall_not_mem.2 fun p hp => hh ?_
    obtain ⟨hm, hr⟩ := mem_of_firstPkg hp
    exact hr ▸ hu.fkPkg p hm
  cases hh : t.header x with
  | none => rw [hnone hc hh, hnone hc' (h.trans hh)]
  | some a => rw [(header_eq_some.1 hh).2, (header_eq_some.1 (h.trans hh)).2]

/-- A ledger in two decimals takes from the committed batches what it takes in the session. -/
theorem Ledger.rounded_usable (hl : Ledger t) (k : BatchKey) : t.rounded.usable k = t.usable k := by
  rw [Tables.usable, rounded_itembatch, Option.map_map, Tables.usable]
  cases hb : t.itembatch.get? k with
  | none => rfl
  | some b =>
    have hu : numeric 4 b.usableQty = b.usableQty :=
      (hl.batchScale b (Table.mem_of_get? hb)).1.mono (by norm_num : 2 ≤ 4)
    exact congrArg some hu

theorem Ledger.rounded_pkgQty (hl : Ledger t) (x : Nat) (k : BatchKey) : t.rounded.pkgQty x k = t.pkgQty x k := by
  rw [Dmis.pkgQty_rounded]
  exact (pkgQty_atScale hl.rowScale x k).mono (by norm_num : 2 ≤ 4)

/-- A row is on a batch that exists. -/
theorem pkgQty_of_no_batch (hc : t.Consistent) (hb : t.usable k = none) (x : Nat) : t.pkgQty x k = 0 := by
  rw [Tables.usable, Option.map_eq_none_iff] at hb
  by_contra hne
  obtain ⟨i, hi, hk, -⟩ := exists_of_pkgQty_ne_zero hne
  exact Table.get?_eq_none.1 hb (hk ▸ hc.fkBatch i (mem_pkgItems.1 hi).1)

/-- What is claimed is covered. -/
theorem Ledger.solvent (hl : Ledger t) (hc : t.Consistent) (hu : UniquePkg t) : t.books.Solvent := by
  refine ⟨fun x k => ?_, fun k => ?_⟩
  · show 0 ≤ t.byRequest _ x k
    rw [byRequest_apply hu]
    cases (t.firstPkg x).filter _ with
    | none => exact le_rfl
    | some p => exact pkgQty_nonneg hc.pkgItem p.reliefpkgId k
  · rw [total_claims]
    show t.pledged k ≤ (t.usable k).getD 0
    cases hb : t.usable k with
    | some u =>
      rw [Tables.usable, Option.map_eq_some_iff] at hb
      obtain ⟨b, hb, rfl⟩ := hb
      have hk : b.key = k := Table.key_of_get? hb
      have hm := Table.mem_of_get? hb
      rw [← hk, ← hl.reserved b hm]
      exact (hl.bounds b hm).2
    | none =>
      simp only [Tables.pledged, pkgQty_of_no_batch hc hb]
      simp [Table.sum]

/-! ## A step of the books -/

/-- A careful dispatch takes from every batch what the package it leaves has in its rows. -/
theorem route_takes (hl : Ledger db.tables) (hu : UniquePkg db.tables) (hd : Careful db op) (hop : op.Dispatches)
    (h : op.route db.tables = .ok t') : ∃ x q, op.Targets db.tables x ∧ t'.firstPkg x = some q ∧
      (∀ p ∈ db.tables.firstPkg x, p.statusCode ≠ .dispatched) ∧
      ∀ k, t'.usable k = (db.tables.usable k).map (· - t'.pkgQty q.reliefpkgId k) := by
  have hc := db.consistent
  -- the columns of a committed batch
  have hcolumn : ∀ {take : ℚ} {k}, t'.itembatch.get? k =
      (db.tables.itembatch.get? k).map (ItemBatch.committed take) →
      t'.usable k = (db.tables.usable k).map (· - take) := fun {take k} hb => by
    rw [Tables.usable, hb, Tables.usable]
    cases db.tables.itembatch.get? k <;> rfl
  have hsent : ∀ {rqstId form}, op.oneStep = some (rqstId, form) → op.Targets db.tables rqstId →
      (∀ p ∈ db.tables.packages rqstId, p.statusCode ≠ .dispatched) → ∃ x q, op.Targets db.tables x ∧
        t'.firstPkg x = some q ∧ (∀ p ∈ db.tables.firstPkg x, p.statusCode ≠ .dispatched) ∧
        ∀ k, t'.usable k = (db.tables.usable k).map (· - t'.pkgQty q.reliefpkgId k) := by
    intro rqstId form hone hT hopen
    obtain ⟨p, hp, hs⟩ := sent_of_route hc hone (packages_length hu rqstId) hopen h
    obtain ⟨q, hq, hid⟩ := hs.firstPkg
    refine ⟨rqstId, q, hT, hq, fun y hy => hopen y (List.mem_of_mem_head? hy), fun k => ?_⟩
    rw [hid, hs.posted]
    refine hcolumn ?_
    cases hb : db.tables.itembatch.get? k with
    | some b => rw [(hs.batch k b hb).2, Option.map_some]
    | none =>
      rw [Option.map_none, Table.get?_eq_none, hs.keys]
      exact Table.get?_eq_none.1 hb
  cases op with
  | preparePackage ctx rqstId action post =>
    cases action with
    | sendForDispatch => exact hsent rfl rfl hd.2.1
    | _ => exact hop.elim
  | approvePackage ctx rqstId action post =>
    cases action with
    | saveDraft => exact hop.elim
    | approveAndDispatch =>
      have hroute := h
      simp only [Op.route, approvePackage, bind_ok] at hroute
      obtain ⟨⟨r, p⟩, hg, -⟩ := hroute
      refine hsent rfl rfl fun q hq => ?_
      rw [packages_of_gate hu hg, List.mem_singleton] at hq
      rw [hq, (approveGate_mem hg).2.2]
      decide
  | reviewApproval ctx rqstId action post =>
    cases action with
    | reject => exact hop.elim
    | approveAndDispatch =>
      simp only [Op.route, reviewApproval, bind_ok] at h
      obtain ⟨⟨r, p⟩, hg, h⟩ := h
      obtain ⟨-, -, hrid, hfirst, hpend, -⟩ := approveGate_ok hu hg
      subst hrid
      simp only [reviewApproveAndDispatch, bind_ok, pure_ok] at h
      obtain ⟨_, -, _, -, _, -, _, -, t₂, hcommit, rfl⟩ := h
      obtain ⟨_, _, hf, -⟩ := commitInventory_ok hcommit
      have hnew : (t₂.setRqst (r.actedOn ctx)).firstPkg r.reliefrqstId = some (p.dispatch ctx) := by
        have hset := firstPkg_setPkg (q := p.dispatch ctx) hfirst rfl rfl
        rw [hf]
        exact hset
      have hqty : ∀ k, (t₂.setRqst (r.actedOn ctx)).pkgQty p.reliefpkgId k = db.tables.pkgQty p.reliefpkgId k := by
        rw [hf]
        exact fun _ => rfl
      refine ⟨r.reliefrqstId, p.dispatch ctx, rfl, hnew, fun y hy => ?_, fun k => ?_⟩
      · cases Option.mem_unique hfirst hy
        rw [hpend]
        decide
      · rw [show (p.dispatch ctx).reliefpkgId = p.reliefpkgId from rfl, hqty]
        exact hcolumn (commitInventory_batch (q := p.dispatch ctx) hl hc hfirst rfl rfl hcommit k)
  | submitForDispatch ctx pkgId version field =>
    obtain ⟨p, r, plan, hp, hne, hdisp, hn, hnn, -⟩ := submitForDispatch_ledger hl hd h
    obtain ⟨hfirst, rfl⟩ := firstPkg_of_get? hu hp
    have hpkgs : t'.reliefpkg = db.tables.reliefpkg.set (p.dispatch ctx) := by rw [hdisp.rest]
    have hnew : t'.firstPkg p.reliefrqstId = some (p.dispatch ctx) := by
      have hset := firstPkg_setPkg (q := p.dispatch ctx) hfirst rfl rfl
      simp only [Tables.firstPkg, Tables.packages, Tables.setPkg, hpkgs] at hset ⊢
      exact hset
    refine ⟨p.reliefrqstId, p.dispatch ctx, ⟨p, hp, rfl⟩, hnew, fun y hy => ?_, fun k => ?_⟩
    · cases Option.mem_unique hfirst hy
      exact hne
    · rw [show (p.dispatch ctx).reliefpkgId = p.reliefpkgId from rfl, hdisp.pkgQty_eq hl hc hn hnn, Tables.usable,
        hdisp.batch, Tables.usable]
      cases db.tables.itembatch.get? k <;> rfl
  | _ => exact hop.elim

/-- The package rows of a request as the session leaves them are those that are committed. -/
theorem step_pkgQty (he : (step db op).tables = t'.rounded)
    (hrows : ∀ k, t'.pkgQty x k = db.tables.pkgQty x k) (k : BatchKey) :
    (step db op).tables.pkgQty x k = db.tables.pkgQty x k := by
  rw [he, pkgQty_rounded, hrows, stored_pkgQty db.consistent]

/-- The books of the requests a step is not about stay. -/
theorem step_byRequest_other (hu : UniquePkg db.tables) (hT : op.Targets db.tables x)
    (hh : ∀ y, y ≠ x → (step db op).tables.header y = db.tables.header y) (f : ReliefPkg → Bool) {y : Nat} (hy : y ≠ x) :
    (step db op).tables.byRequest f y = db.tables.byRequest f y := by
  have hfirst := firstPkg_of_header db.consistent (step db op).consistent (hh y hy)
  rw [byRequest_apply (step_header hu op).1, byRequest_apply hu, hfirst]
  cases hp : (db.tables.firstPkg y).filter f with
  | none => rfl
  | some p =>
    obtain ⟨hp, -⟩ := Option.filter_eq_some_iff.1 hp
    obtain ⟨hm, hr⟩ := mem_of_firstPkg hp
    funext k
    simp only [Option.elim_some, Tables.pkgQty, step_rows hT hm (hr ▸ hy) k]

/-- What is dispatched of a request is the same when its package and the rows of it are. -/
theorem sent_of_same (hu : UniquePkg t) (hu' : UniquePkg t')
    (hid : (t'.firstPkg x).map ReliefPkg.reliefpkgId = (t.firstPkg x).map ReliefPkg.reliefpkgId)
    (hs : ∀ p ∈ t.firstPkg x, ∀ q ∈ t'.firstPkg x, q.statusCode = .dispatched ↔ p.statusCode = .dispatched)
    (hrows : ∀ p ∈ t.firstPkg x, ∀ k, t'.pkgQty p.reliefpkgId k = t.pkgQty p.reliefpkgId k) :
    t'.books.sent x = t.books.sent x := by
  show t'.byRequest _ x = t.byRequest _ x
  rw [byRequest_apply hu, byRequest_apply hu']
  cases hp : t.firstPkg x with
  | none =>
    rw [hp, Option.map_none, Option.map_eq_none_iff] at hid
    rw [hid]
    rfl
  | some p =>
    rw [hp, Option.map_some, Option.map_eq_some_iff] at hid
    obtain ⟨q, hq, hqp⟩ := hid
    have hiff := hs p hp q hq
    have hqty := funext (hrows p hp)
    rw [hq]
    by_cases hd : p.statusCode = .dispatched
    · simp [Option.filter, hd, hiff.2 hd, hqp, hqty]
    · simp [Option.filter, hd, mt hiff.1 hd]

/-- A request has nothing in packages of a kind its own is not. -/
theorem byRequest_eq_zero (hu : UniquePkg t) {f : ReliefPkg → Bool} (h : ∀ p ∈ t.firstPkg x, f p = false) :
    t.byRequest f x = 0 := by
  rw [byRequest_apply hu]
  cases hp : t.firstPkg x with
  | none => rfl
  | some p => simp [Option.filter, h p hp]

theorem sent_of_open (hu : UniquePkg t) (h : ∀ p ∈ t.firstPkg x, p.statusCode ≠ .dispatched) :
    t.books.sent x = 0 := byRequest_eq_zero hu fun p hp => decide_eq_false (h p hp)

theorem claims_of_dispatched (hu : UniquePkg t) (h : ∀ p ∈ t.firstPkg x, p.statusCode = .dispatched) :
    t.books.claims x = 0 := byRequest_eq_zero hu fun p hp => by simp [h p hp]

theorem sent_of_dispatched (hu : UniquePkg t) (hp : t.firstPkg x = some p) (hs : p.statusCode = .dispatched) :
    t.books.sent x = t.pkgQty p.reliefpkgId := by
  show t.byRequest _ x = _
  rw [byRequest_apply hu, hp]
  simp [Option.filter, hs]

theorem getD_undispatched {o : Option ReliefPkg} {r : ReliefRqst} {ctx : Ctx} {id : Nat}
    (h : ∀ p ∈ o, p.statusCode ≠ .dispatched) : (o.getD (newPkg ctx r id)).statusCode ≠ .dispatched := by
  cases o with
  | none => simp [newPkg]
  | some p => exact h p rfl

/-- A careful step that is no dispatch leaves what the request's dispatched package took. -/
theorem step_sent_self (hu : UniquePkg db.tables) (hd : Careful db op) (hn : ¬ op.Dispatches) (hc : Commits db op)
    (hs : HeaderStep op x (db.tables.header x) ((step db op).tables.header x)) :
    (step db op).tables.books.sent x = db.tables.books.sent x := by
  have hu' := (step_header hu op).1
  obtain ⟨t', ht', -, he⟩ := step_of_commits hc
  have hclosed : (∀ p ∈ db.tables.firstPkg x, p.statusCode ≠ .dispatched) →
      (∀ p ∈ (step db op).tables.firstPkg x, p.statusCode ≠ .dispatched) →
      (step db op).tables.books.sent x = db.tables.books.sent x := fun h h' => by
    rw [sent_of_open hu h, sent_of_open hu' h']
  have hquiet : op.OnRequest → (step db op).tables.firstPkg x = db.tables.firstPkg x →
      (step db op).tables.books.sent x = db.tables.books.sent x := fun hop hf => by
    refine sent_of_same hu hu' (by rw [hf]) (fun p hp q hq => ?_) fun p _ k => step_pkgQty he (fun k => ?_) k
    · rw [hf] at hq
      cases Option.mem_unique hp hq
      exact Iff.rfl
    · rw [route_onRequest ht' hop]
      rfl
  generalize ha : db.tables.header x = a at hs
  generalize hb : (step db op).tables.header x = b at hs
  cases hs with
  | @createDraftRequest _ _ _ _ _ r =>
    have hf : db.tables.firstPkg r.reliefrqstId = none := Option.eq_none_iff_forall_not_mem.2 fun p hp => by
      obtain ⟨hm, hr⟩ := mem_of_firstPkg hp
      have hfk := db.consistent.fkPkg p hm
      rw [Tables.header, Option.map_eq_none_iff, Table.get?_eq_none] at ha
      exact ha (hr ▸ hfk)
    exact hquiet trivial ((header_eq_some.1 hb).2.trans hf.symm)
  | editItems | deleteItem | submitRequest | decide =>
    exact hquiet trivial ((header_eq_some.1 hb).2.trans (header_eq_some.1 ha).2.symm)
  | saveDraft =>
    have hf := (header_eq_some.1 ha).2
    have hopen : ∀ p ∈ db.tables.firstPkg x, p.statusCode ≠ .dispatched := fun p hp =>
      hd.2 p (List.mem_of_mem_head? hp)
    refine hclosed hopen fun q hq => ?_
    cases Option.mem_unique (header_eq_some.1 hb).2 hq
    have hst : ∀ p : ReliefPkg, p.unmarked.statusCode = p.statusCode := fun p => by
      unfold ReliefPkg.unmarked; split <;> rfl
    rw [hst]
    exact getD_undispatched fun p hp => hopen p (hf.trans hp)
  | submitForApproval =>
    refine hclosed (fun p hp => hd.2 p (List.mem_of_mem_head? hp)) fun q hq => ?_
    cases Option.mem_unique (header_eq_some.1 hb).2 hq
    exact PkgStatus.noConfusion
  | sendForDispatch | approveAndDispatch | reviewApproveAndDispatch | submitForDispatch => exact absurd trivial hn
  | saveDraftApproval ok | reviewReject ok =>
    refine hclosed (fun p hp => ?_) fun q hq => ?_
    · cases Option.mem_unique (header_eq_some.1 ha).2 hp
      rw [ok.pending]
      decide
    · cases Option.mem_unique (header_eq_some.1 hb).2 hq
      exact PkgStatus.noConfusion
  | cancelPackage =>
    refine hclosed (fun p hp => ?_) fun q hq => ?_
    · cases Option.mem_unique (header_eq_some.1 ha).2 hp
      rw [hd _ (get?_of_firstPkg hp)]
      decide
    · rw [(header_eq_some.1 hb).2] at hq
      cases hq
  | cancelPreparation =>
    have hf := firstPkg_of_header db.consistent (step db (.cancelPreparation x)).consistent (hb.trans ha.symm)
    refine sent_of_same hu hu' (by rw [hf]) (fun p hp q hq => ?_) fun p hp k => ?_
    · rw [hf] at hq
      cases Option.mem_unique hp hq
      exact Iff.rfl
    · obtain ⟨-, he⟩ := step_cancelPreparation hp
      rw [he, pkgQty_emptied_self, pkgQty_eq_zero (hd p hp)]
  | markHandover =>
    have hf := (header_eq_some.1 ha).2
    have hf' := (header_eq_some.1 hb).2
    refine sent_of_same hu hu' (by rw [hf, hf']; rfl) (fun p hp q hq => ?_) fun p _ k =>
      step_pkgQty he (fun k => ?_) k
    · cases Option.mem_unique hf hp
      cases Option.mem_unique hf' hq
      exact Iff.rfl
    · simp only [Op.route, markHandover, bind_ok, pure_ok] at ht'
      obtain ⟨_, _, _, _, _, _, _, _, _, _, _, _, rfl⟩ := ht'
      rfl

/-- A dispatch leaves a dispatched package. -/
theorem HeaderStep.dispatched {a b : Option Header} (h : HeaderStep op x a b) (hop : op.Dispatches) :
    ∃ r q, b = some ⟨r, some q⟩ ∧ q.statusCode = .dispatched := by
  cases h with
  | sendForDispatch | approveAndDispatch | reviewApproveAndDispatch | submitForDispatch => exact ⟨_, _, rfl, rfl⟩
  | _ => exact hop.elim

theorem Op.Dispatches.packaging (h : op.Dispatches) : op.Packaging := by
  cases op with
  | preparePackage | approvePackage | reviewApproval | submitForDispatch => trivial
  | _ => exact h.elim

/-- **A careful step is a step of the books.** -/
theorem step_books (hl : Ledger db.tables) (hu : UniquePkg db.tables) (hd : Careful db op) :
    Books.Reaches db.tables.books (step db op).tables.books := by
  by_cases hc : Commits db op
  · have hl' := step_careful hl hu hd
    obtain ⟨t', ht', -, he⟩ := step_of_commits hc
    obtain ⟨hu', x, hs, hh⟩ := commits_header hu hc
    have hT := hs.targets rfl
    have hcovered := (hl'.solvent (step db op).consistent hu').covered
    have hnonneg := fun y => (hl'.solvent (step db op).consistent hu').nonneg y
    refine .single ?_
    by_cases hop : op.Dispatches
    · obtain ⟨y, q, hTy, hq, hopen, htakes⟩ := route_takes hl hu hd hop ht'
      have hlt := route_careful hl hu hd ht'
      obtain rfl : y = x := Op.Targets.unique hop.packaging hTy hT
      obtain ⟨r, q', hb, hq'⟩ := hs.dispatched hop
      have hnew : (step db op).tables.firstPkg y = some q := by rw [he]; exact hq
      cases Option.mem_unique (header_eq_some.1 hb).2 hnew
      have hqty : ∀ k, (step db op).tables.pkgQty q.reliefpkgId k = t'.pkgQty q.reliefpkgId k := fun k => by
        rw [he, hlt.rounded_pkgQty]
      have husable : ∀ k, (step db op).tables.usable k =
          (db.tables.usable k).map (· - (step db op).tables.pkgQty q.reliefpkgId k) := fun k => by
        rw [hqty, ← htakes, he, hlt.rounded_usable]
      refine Books.Step.of_send (p := y) (c := (step db op).tables.pkgQty q.reliefpkgId) (funext fun k => ?_)
        (fun z hz => step_byRequest_other hu hT hh _ hz) (fun z hz => step_byRequest_other hu hT hh _ hz)
        (claims_of_dispatched hu' fun p hp => ?_) ?_ (fun k => pkgQty_nonneg (step db op).consistent.pkgItem _ k) hcovered
      · show ((step db op).tables.usable k).getD 0 = (db.tables.usable k).getD 0 - _
        cases hk : db.tables.usable k with
        | some u => rw [husable, hk]; rfl
        | none =>
          have hnone : (step db op).tables.usable k = none := by rw [husable, hk, Option.map_none]
          rw [hnone, pkgQty_of_no_batch (step db op).consistent hnone]
          exact (sub_zero 0).symm
      · cases Option.mem_unique hnew hp
        exact hq'
      · rw [sent_of_dispatched hu' hnew hq', sent_of_open hu hopen, zero_add]
    · refine Books.Step.of_claim (p := x) (funext fun k => ?_) (fun y hy => step_byRequest_other hu hT hh _ hy)
        (fun y => ?_) (hnonneg x) hcovered
      · exact congrArg (Option.getD · 0) (step_usable hop k)
      · by_cases hy : y = x
        · rw [hy]
          exact step_sent_self hu hd hop hc hs
        · exact step_byRequest_other hu hT hh _ hy
  · rw [step_of_not_commits hc]

end

/-! ## Runs -/

/-- **Nothing gets lost.** In a careful run every step is one of the books, the ledger stays exact, what is usable in
a batch and what has gone out of it add up to the same, and what has gone out for a request stays out. -/
theorem stock_conserved (db : Database) (hl : Ledger db.tables) (hu : UniquePkg db.tables) (ops : List Op)
    (hd : Along step Careful db ops) :
    let s := run step db ops
    Books.Reaches db.tables.books s.tables.books ∧ Ledger s.tables ∧
    (∀ k, (s.tables.usable k).getD 0 + s.tables.dispatched k =
      (db.tables.usable k).getD 0 + db.tables.dispatched k) ∧
    ∀ rqstId, db.tables.books.sent rqstId ≤ s.tables.books.sent rqstId := by
  intro s
  have hrun : (Ledger s.tables ∧ UniquePkg s.tables) ∧ Books.Reaches db.tables.books s.tables.books := by
    refine Along.invariant (P := Careful) (I := fun d : Database =>
      (Ledger d.tables ∧ UniquePkg d.tables) ∧ Books.Reaches db.tables.books d.tables.books)
      (fun d op h hop => ⟨⟨step_careful h.1.1 h.1.2 hop, (step_header h.1.2 op).1⟩,
        h.2.trans (step_books h.1.1 h.1.2 hop)⟩) ⟨⟨hl, hu⟩, .refl⟩ hd
  obtain ⟨⟨hl', -⟩, hreach⟩ := hrun
  refine ⟨hreach, hl', fun k => ?_, hreach.sent_le⟩
  have hbalance := congrFun hreach.balance k
  simp only [Pi.add_apply, total_sent] at hbalance
  exact hbalance

/-- Two packages of one batch: the first is submitted and dispatched, the second drafted and cancelled. -/
def Site.shipping : List Op :=
  [.preparePackage officer 1 .submitForApproval (post 3 .absent 2),
    .preparePackage officer 2 .saveDraft (post 3 .absent 5),
    .reviewApproval manager 1 .approveAndDispatch (post 4 (.num 2) 2),
    .cancelPackage manager 2]

theorem stock_conserved_site :
    Ledger (run step Site.twoRequests Site.shipping).tables ∧
    ((run step Site.twoRequests Site.shipping).tables.usable ⟨1, 1, 1⟩).getD 0 +
      (run step Site.twoRequests Site.shipping).tables.dispatched ⟨1, 1, 1⟩ = 10 ∧
    (run step Site.twoRequests Site.shipping).tables.dispatched ⟨1, 1, 1⟩ = 2 := by
  have hl : Ledger Site.twoRequests.tables :=
    ⟨by decide +kernel, by decide +kernel, by decide +kernel, by decide +kernel, by decide +kernel, by decide +kernel⟩
  have h := stock_conserved Site.twoRequests hl (by decide +kernel) Site.shipping
    ⟨⟨Site.form_exact (by decide +kernel), by decide +kernel⟩, ⟨Site.form_exact (by decide +kernel), by decide +kernel⟩,
      trivial, by simp only [Careful]; decide +kernel, trivial⟩
  refine ⟨h.2.1, (h.2.2.1 ⟨1, 1, 1⟩).trans (by decide +kernel), by decide +kernel⟩

end Dmis
