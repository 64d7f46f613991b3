import Dmis.Operations
import Dmis.Lib.Greedy

/-!
# The hand-over queue

`awaiting_dispatch` (`packaging.py:2323-2419`) shows an inventory clerk the dispatched packages with rows from the
clerk's warehouses, and of each package those rows. A clerk with such a row marks the hand-over (`mark_handover`,
`:2482-2582`), which is one timestamp on the package, for the rows of all its warehouses.

`handover_queue`: nothing drops out of the queue exactly when every accepted mark is a clerk's of all the warehouses the
package takes goods from.
-/

namespace Dmis

open Relational Keyed

/-! ## The page -/

/-- `request.args.get('filter', 'awaiting')`. -/
inductive DispatchFilter where
  | awaiting | completed | all
  deriving DecidableEq, Repr

/-- An element of `package_data`. -/
structure DispatchEntry where
  package : ReliefPkg
  itemCount : Nat
  totalQty : ℚ
  warehouseItems : List ReliefPkgItem
  deriving DecidableEq

structure DispatchPage where
  packages : List DispatchEntry
  awaiting : Nat
  completed : Nat
  deriving DecidableEq

/-- `base_query`: a row of any quantity is enough. -/
def dispatchedTo (warehouseIds : List Nat) (t : Tables) : List ReliefPkg :=
  t.reliefpkg.select fun p =>
    p.statusCode = .dispatched ∧ ∃ i ∈ t.pkgItems p.reliefpkgId, i.frInventoryId ∈ warehouseIds

def dispatchEntry (warehouseIds : List Nat) (t : Tables) (p : ReliefPkg) : DispatchEntry :=
  let warehouseItems := (t.pkgItems p.reliefpkgId).filter fun i => i.frInventoryId ∈ warehouseIds
  ⟨p, warehouseItems.length, (warehouseItems.map ReliefPkgItem.itemQty).sum, warehouseItems⟩

/-- `order_by(….desc())`; no listed package is without the time. -/
def newestFirst (time : ReliefPkg → Option Instant) (ps : List ReliefPkg) : List ReliefPkg :=
  sortOn (fun p => OrderDual.toDual ((time p).getD 0)) ps

def DispatchFilter.packages (base : List ReliefPkg) : DispatchFilter → List ReliefPkg
  | .awaiting => newestFirst ReliefPkg.dispatchDtime (base.filter fun p => p.receivedDtime = none)
  | .completed => newestFirst ReliefPkg.receivedDtime (base.filter fun p => p.receivedDtime ≠ none)
  | .all => newestFirst ReliefPkg.dispatchDtime base

def awaitingDispatch (ctx : Ctx) (filter : DispatchFilter) (t : Tables) : Except Err DispatchPage := do
  check (ctx.inventoryClerk = true) .accessDenied
  if ctx.warehouseIds = [] then pure ⟨[], 0, 0⟩ else
    let base := dispatchedTo ctx.warehouseIds t
    pure
      { packages := (filter.packages base).map (dispatchEntry ctx.warehouseIds t)
        awaiting := (base.filter fun p => p.receivedDtime = none).length
        completed := (base.filter fun p => p.receivedDtime ≠ none).length }

/-! ## The rule -/

/-- A clerk's call of `mark_handover` for a package. -/
structure Mark where
  ctx : Ctx
  pkgId : Nat

def Mark.op (m : Mark) : Op := .markHandover m.ctx m.pkgId

def markStep (db : Database) (m : Mark) : Database := step db m.op

/-- The clerk sees the package under `filter`. -/
def Lists (ctx : Ctx) (filter : DispatchFilter) (pkgId : Nat) (t : Tables) : Prop :=
  ∃ page, awaitingDispatch ctx filter t = .ok page ∧ ∃ e ∈ page.packages, e.package.reliefpkgId = pkgId

/-- The clerk sees the row under `filter`. -/
def ListsRow (ctx : Ctx) (filter : DispatchFilter) (i : ReliefPkgItem) (t : Tables) : Prop :=
  ∃ page, awaitingDispatch ctx filter t = .ok page ∧
    ∃ e ∈ page.packages, e.package.reliefpkgId = i.reliefpkgId ∧ i ∈ e.warehouseItems

/-- Some clerk of the warehouse has marked the hand-over of the package. -/
def HandedOver (pkgId warehouseId : Nat) (db : Database) (ms : List Mark) : Prop :=
  Happens markStep (fun s m => m.pkgId = pkgId ∧ Commits s m.op ∧ warehouseId ∈ m.ctx.warehouseIds) db ms

/-- After the marks `ms`, all goods of the package that nobody of their warehouse handed over are in the clerks' queue,
and the package is no completed one as long as there are any. -/
structure NothingDropsOut (pkgId : Nat) (db : Database) (ms : List Mark) : Prop where
  awaiting : ∀ i ∈ (run markStep db ms).tables.positiveItems pkgId, ¬ HandedOver pkgId i.frInventoryId db ms →
    ∀ ctx : Ctx, ctx.inventoryClerk = true → i.frInventoryId ∈ ctx.warehouseIds →
      ListsRow ctx .awaiting i (run markStep db ms).tables
  completed : ∀ ctx, Lists ctx .completed pkgId (run markStep db ms).tables →
    ∀ i ∈ (run markStep db ms).tables.positiveItems pkgId, HandedOver pkgId i.frInventoryId db ms

/-- Who marks the package is a clerk of every warehouse it takes goods from. -/
def MarkedByAll (pkgId : Nat) (db : Database) (m : Mark) : Prop :=
  m.pkgId = pkgId → Commits db m.op → ∀ i ∈ db.tables.positiveItems pkgId, i.frInventoryId ∈ m.ctx.warehouseIds

section
variable {ctx : Ctx} {t : Tables} {p q : ReliefPkg} {i : ReliefPkgItem} {pkgId : Nat} {db : Database} {m : Mark} {ms : List Mark}

/-! ## What is listed -/

theorem mem_dispatchedTo {warehouseIds : List Nat} : p ∈ dispatchedTo warehouseIds t ↔
    p ∈ t.reliefpkg.rows ∧ p.statusCode = .dispatched ∧ ∃ i ∈ t.pkgItems p.reliefpkgId, i.frInventoryId ∈ warehouseIds := by
  simp only [dispatchedTo, Table.select, List.mem_filter, decide_eq_true_eq]

/-- What a filter keeps. -/
def DispatchFilter.Keeps (filter : DispatchFilter) (p : ReliefPkg) : Prop :=
  (filter = .awaiting → p.receivedDtime = none) ∧ (filter = .completed → p.receivedDtime ≠ none)

theorem mem_packages {filter : DispatchFilter} {base : List ReliefPkg} :
    p ∈ filter.packages base ↔ p ∈ base ∧ filter.Keeps p := by
  have hsorted : ∀ (time : ReliefPkg → Option Instant) (ps : List ReliefPkg), p ∈ newestFirst time ps ↔ p ∈ ps :=
    fun _ _ => (sortOn_perm _ _).mem_iff
  cases filter with
  | awaiting => simp [DispatchFilter.packages, DispatchFilter.Keeps, hsorted]
  | completed => simp [DispatchFilter.packages, DispatchFilter.Keeps, hsorted]
  | all => simp [DispatchFilter.packages, DispatchFilter.Keeps, hsorted]

/-- A clerk gets a page; without warehouses there is nothing on it. -/
theorem awaitingDispatch_ok (hrole : ctx.inventoryClerk = true) (filter : DispatchFilter) :
    ∃ page, awaitingDispatch ctx filter t = .ok page ∧
      page.packages = (filter.packages (dispatchedTo ctx.warehouseIds t)).map (dispatchEntry ctx.warehouseIds t) := by
  have hcheck : check (ctx.inventoryClerk = true) Err.accessDenied = .ok () := check_ok.2 hrole
  unfold awaitingDispatch
  rw [hcheck]
  by_cases hw : ctx.warehouseIds = []
  · have hnone : dispatchedTo ctx.warehouseIds t = [] := List.eq_nil_iff_forall_not_mem.2 fun p hp => by
      obtain ⟨-, -, i, -, hi⟩ := mem_dispatchedTo.1 hp
      rw [hw] at hi
      cases hi
    refine ⟨⟨[], 0, 0⟩, by rw [if_pos hw]; rfl, ?_⟩
    rw [hnone]
    cases filter <;> rfl
  · exact ⟨_, by rw [if_neg hw]; rfl, rfl⟩

/-- The entries of a clerk's page. -/
theorem listed_iff {filter : DispatchFilter} {P : DispatchEntry → Prop} :
    (∃ page, awaitingDispatch ctx filter t = .ok page ∧ ∃ e ∈ page.packages, P e) ↔
      ctx.inventoryClerk = true ∧
        ∃ p ∈ dispatchedTo ctx.warehouseIds t, filter.Keeps p ∧ P (dispatchEntry ctx.warehouseIds t p) := by
  have hlist : (∃ e ∈ (filter.packages (dispatchedTo ctx.warehouseIds t)).map (dispatchEntry ctx.warehouseIds t), P e) ↔
      ∃ p ∈ dispatchedTo ctx.warehouseIds t, filter.Keeps p ∧ P (dispatchEntry ctx.warehouseIds t p) := by
    constructor
    · rintro ⟨e, he, hP⟩
      obtain ⟨p, hp, rfl⟩ := List.mem_map.1 he
      obtain ⟨hm, hkeeps⟩ := mem_packages.1 hp
      exact ⟨p, hm, hkeeps, hP⟩
    · rintro ⟨p, hm, hkeeps, hP⟩
      exact ⟨_, List.mem_map_of_mem (mem_packages.2 ⟨hm, hkeeps⟩), hP⟩
  constructor
  · rintro ⟨page, h, hentry⟩
    have hrole : ctx.inventoryClerk = true := by
      simp only [awaitingDispatch, bind_ok, check_ok] at h
      obtain ⟨-, hrole, -⟩ := h
      exact hrole
    obtain ⟨page', h', hpage⟩ := awaitingDispatch_ok (t := t) hrole filter
    rw [h] at h'
    cases h'
    rw [hpage] at hentry
    exact ⟨hrole, hlist.1 hentry⟩
  · rintro ⟨hrole, hentry⟩
    obtain ⟨page, h, hpage⟩ := awaitingDispatch_ok (t := t) hrole filter
    exact ⟨page, h, by rw [hpage]; exact hlist.2 hentry⟩

theorem lists_iff {filter : DispatchFilter} : Lists ctx filter pkgId t ↔ ctx.inventoryClerk = true ∧
    ∃ p ∈ t.reliefpkg.get? pkgId, p.statusCode = .dispatched ∧ filter.Keeps p ∧
      ∃ i ∈ t.pkgItems pkgId, i.frInventoryId ∈ ctx.warehouseIds := by
  unfold Lists
  rw [listed_iff]
  refine and_congr_right fun _ => ⟨?_, ?_⟩
  · rintro ⟨p, hp, hkeeps, rfl⟩
    obtain ⟨hm, hd, hi⟩ := mem_dispatchedTo.1 hp
    exact ⟨p, Table.get?_key hm, hd, hkeeps, hi⟩
  · rintro ⟨p, hp, hd, hkeeps, hi⟩
    have hid : p.reliefpkgId = pkgId := Table.key_of_get? hp
    exact ⟨p, mem_dispatchedTo.2 ⟨Table.mem_of_get? hp, hd, hid ▸ hi⟩, hkeeps, hid⟩

theorem listsRow_awaiting (hp : t.reliefpkg.get? i.reliefpkgId = some p) (hd : p.statusCode = .dispatched)
    (hr : p.receivedDtime = none) (hi : i ∈ t.reliefpkgItem.rows) (hclerk : ctx.inventoryClerk = true)
    (hw : i.frInventoryId ∈ ctx.warehouseIds) : ListsRow ctx .awaiting i t := by
  have hid : p.reliefpkgId = i.reliefpkgId := Table.key_of_get? hp
  have hmem : i ∈ t.pkgItems p.reliefpkgId := mem_pkgItems.2 ⟨hi, hid.symm⟩
  unfold ListsRow
  rw [listed_iff]
  refine ⟨hclerk, p, mem_dispatchedTo.2 ⟨Table.mem_of_get? hp, hd, i, hmem, hw⟩, ⟨fun _ => hr, fun h => nomatch h⟩, hid, ?_⟩
  exact List.mem_filter.2 ⟨hmem, decide_eq_true hw⟩

/-! ## What a mark does -/

/-- The rows stay, and so do the other packages. -/
theorem markStep_frame (pkgId : Nat) (db : Database) (m : Mark) :
    (markStep db m).tables.reliefpkgItem = db.tables.reliefpkgItem ∧
    (m.pkgId ≠ pkgId → (markStep db m).tables.reliefpkg.get? pkgId = db.tables.reliefpkg.get? pkgId) := by
  refine step_cases (P := fun d => d.tables.reliefpkgItem = db.tables.reliefpkgItem ∧
    (m.pkgId ≠ pkgId → d.tables.reliefpkg.get? pkgId = db.tables.reliefpkg.get? pkgId)) ⟨rfl, fun _ => rfl⟩
    fun db' t ht _ he => ?_
  simp only [Mark.op, Op.route, markHandover, bind_ok, require_ok, check_ok, pure_ok] at ht
  obtain ⟨-, -, -, -, p, hp, -, -, -, -, -, -, rfl⟩ := ht
  rw [he]
  refine ⟨?_, fun hne => ?_⟩
  · have hstored : db.tables.rounded.reliefpkgItem = db.tables.reliefpkgItem := by rw [db.consistent.stored]
    exact hstored
  · have hkey : key (p.handedOver m.ctx) ≠ pkgId := fun h => hne ((Table.key_of_get? hp).symm.trans h)
    exact (Table.get?_set_of_ne hkey).trans rfl

/-- **An accepted mark** is a clerk's with some row of the package, which nobody marked before and which is marked now. -/
theorem commits_mark (hc : Commits db m.op) (hp : db.tables.reliefpkg.get? m.pkgId = some p) :
    p.receivedDtime = none ∧ m.ctx.inventoryClerk = true ∧
    (∃ i ∈ db.tables.pkgItems m.pkgId, i.frInventoryId ∈ m.ctx.warehouseIds) ∧
    (markStep db m).tables.reliefpkg.get? m.pkgId = some (p.handedOver m.ctx) := by
  obtain ⟨t, ht, -, he⟩ := step_of_commits hc
  simp only [Mark.op, Op.route, markHandover, bind_ok, require_ok, check_ok, pure_ok] at ht
  obtain ⟨-, hrole, -, -, p', hp', -, -, -, hr, -, hrow, rfl⟩ := ht
  obtain rfl := Option.mem_unique hp hp'
  refine ⟨hr, hrole, hrow, ?_⟩
  rw [markStep, he]
  have hid : p.reliefpkgId = m.pkgId := Table.key_of_get? hp
  exact Table.get?_set_of_get? hp hid

/-! ## Runs of marks -/

theorem run_marks_rows (db : Database) (ms : List Mark) :
    (run markStep db ms).tables.reliefpkgItem = db.tables.reliefpkgItem :=
  run_invariant (I := fun s : Database => s.tables.reliefpkgItem = db.tables.reliefpkgItem)
    (fun s m h => (markStep_frame 0 s m).1.trans h) rfl ms

/-- The package stays dispatched, and it is without the time until a mark is accepted. -/
theorem handover_state (hp : db.tables.reliefpkg.get? pkgId = some p) (hd : p.statusCode = .dispatched)
    (hr : p.receivedDtime = none) (ms : List Mark) :
    ∃ q, (run markStep db ms).tables.reliefpkg.get? pkgId = some q ∧ q.statusCode = .dispatched ∧
      (q.receivedDtime = none ↔ ¬ Happens markStep (fun s m => m.pkgId = pkgId ∧ Commits s m.op) db ms) := by
  induction ms using List.reverseRecOn with
  | nil => exact ⟨p, hp, hd, fun _ => happens_nil, fun _ => hr⟩
  | append_singleton ms m ih =>
    obtain ⟨q, hq, hqd, hqr⟩ := ih
    rw [run_snoc, happens_snoc]
    by_cases hm : m.pkgId = pkgId
    · by_cases hc : Commits (run markStep db ms) m.op
      · subst hm
        obtain ⟨-, -, -, hafter⟩ := commits_mark hc hq
        exact ⟨q.handedOver m.ctx, hafter, hqd, fun h => (nomatch h), fun h => absurd (.inr ⟨rfl, hc⟩) h⟩
      · refine ⟨q, ?_, hqd, ?_⟩
        · rw [markStep, step_of_not_commits hc]
          exact hq
        · rw [hqr, not_or]
          exact ⟨fun h => ⟨h, fun h' => hc h'.2⟩, And.left⟩
    · refine ⟨q, ((markStep_frame pkgId _ m).2 hm).trans hq, hqd, ?_⟩
      rw [hqr, not_or]
      exact ⟨fun h => ⟨h, fun h' => hm h'.1⟩, And.left⟩

end

/-- **Nothing drops out of the hand-over queue** in a run of marks exactly when whoever marks the package is a clerk of
every warehouse it takes goods from. -/
theorem handover_queue (db : Database) (pkgId : Nat) (p : ReliefPkg) (hp : db.tables.reliefpkg.get? pkgId = some p)
    (hd : p.statusCode = .dispatched) (hr : p.receivedDtime = none) (ms : List Mark) :
    (∀ pre, pre <+: ms → NothingDropsOut pkgId db pre) ↔ Along markStep (MarkedByAll pkgId) db ms := by
  have hrows : ∀ ms', (run markStep db ms').tables.positiveItems pkgId = db.tables.positiveItems pkgId := fun ms' => by
    unfold Tables.positiveItems Tables.pkgItems
    rw [run_marks_rows]
  rw [along_iff]
  constructor
  · rintro h pre m post rfl rfl hc i hi
    obtain ⟨q, hq, hqd, hqr⟩ := handover_state hp hd hr pre
    obtain ⟨hfree, hclerk, ⟨j, hj, hjw⟩, hafter⟩ := commits_mark hc hq
    -- the package is completed for the clerk who marked it
    have hdrop := h (pre ++ [m]) ⟨post, by simp⟩
    have hcompleted : Lists m.ctx .completed m.pkgId (run markStep db (pre ++ [m])).tables := by
      rw [run_snoc]
      refine lists_iff.2 ⟨hclerk, q.handedOver m.ctx, hafter, hqd, ⟨fun h => (nomatch h), fun _ h => (nomatch h)⟩, j, ?_, hjw⟩
      unfold Tables.pkgItems
      rw [(markStep_frame 0 _ m).1]
      exact hj
    have hhanded := hdrop.completed m.ctx hcompleted i (by rwa [hrows, ← hrows pre])
    rcases happens_snoc.1 hhanded with ⟨a, m', b, rfl, hm', hc', -⟩ | ⟨-, -, hw⟩
    · exact absurd ⟨a, m', b, rfl, hm', hc'⟩ (hqr.1 hfree)
    · exact hw
  · rintro h pre ⟨rest, rfl⟩
    obtain ⟨q, hq, hqd, hqr⟩ := handover_state hp hd hr pre
    -- after the one accepted mark everything is handed over
    have hall : q.receivedDtime ≠ none →
        ∀ i ∈ (run markStep db pre).tables.positiveItems pkgId, HandedOver pkgId i.frInventoryId db pre := by
      intro hne i hi
      obtain ⟨a, m, b, rfl, hm, hc⟩ := not_not.1 (mt hqr.2 hne)
      refine ⟨a, m, b, rfl, hm, hc, ?_⟩
      exact h a m (b ++ rest) (by simp) hm hc i (by rwa [hrows, ← hrows])
    refine ⟨fun i hi hno ctx hclerk hw => ?_, fun ctx hlists => ?_⟩
    · obtain ⟨hmem, hpos⟩ := mem_positiveItems.1 hi
      obtain ⟨hrow, hid⟩ := mem_pkgItems.1 hmem
      refine listsRow_awaiting (hid ▸ hq) hqd ?_ hrow hclerk hw
      by_contra hne
      exact hno (hall hne i hi)
    · obtain ⟨-, q', hq', -, hkeeps, -⟩ := lists_iff.1 hlists
      obtain rfl := Option.mem_unique hq hq'
      exact hall (hkeeps.2 rfl)

instance (pkgId : Nat) (db : Database) (m : Mark) : Decidable (MarkedByAll pkgId db m) := by
  unfold MarkedByAll
  infer_instance

namespace Site

def clerk (warehouseIds : List Nat) : Ctx :=
  { user "CLERK" false false with inventoryClerk := true, warehouseIds := warehouseIds }

def splitPkg : ReliefPkg := ⟨1, 1, 1, .dispatched, some 900, "LO", "LM", some "LM", none, none, 3⟩

/-- A dispatched package takes two units from warehouse 1 and three from warehouse 2. -/
def split : Database :=
  ⟨{ tables with
      itembatch := ⟨[batch, { batch with batchId := 2, inventoryId := 2 }], by decide⟩
      reliefrqst := ⟨[{ rqst with statusCode := .partFilled, actionById := some "LM" }], by decide⟩
      reliefpkg := ⟨[splitPkg], by decide⟩
      reliefpkgItem := ⟨[⟨1, 1, 1, 1, 2, "EA"⟩, ⟨1, 2, 2, 1, 3, "EA"⟩], by decide⟩
      nextReliefpkgId := 2 }, by decide +kernel⟩

end Site

/-- A clerk of both warehouses marks the package; a clerk of one of them comes too late. -/
theorem handover_queue_site : NothingDropsOut 1 Site.split [⟨Site.clerk [1, 2], 1⟩, ⟨Site.clerk [2], 1⟩] :=
  (handover_queue Site.split 1 Site.splitPkg (by decide) rfl rfl _).2 (by decide +kernel) _ List.prefix_rfl

/-- A clerk of warehouse 1 marks the package, and the three units of warehouse 2 are off its clerk's list. -/
theorem handover_drops_out :
    (awaitingDispatch (Site.clerk [2]) .awaiting Site.split.tables).toOption.map (fun page =>
      page.packages.map DispatchEntry.totalQty) = some [3] ∧
    (awaitingDispatch (Site.clerk [2]) .awaiting (markStep Site.split ⟨Site.clerk [1], 1⟩).tables).toOption.map (fun page =>
      (page.packages, page.completed)) = some ([], 1) ∧
    ¬ ∀ pre, pre <+: [⟨Site.clerk [1], 1⟩] → NothingDropsOut 1 Site.split pre := by
  refine ⟨by decide +kernel, by decide +kernel, fun h => ?_⟩
  have hlists : Lists (Site.clerk [2]) .completed 1 (run markStep Site.split [⟨Site.clerk [1], 1⟩]).tables :=
    lists_iff.2 ⟨rfl, Site.splitPkg.handedOver (Site.clerk [1]), by decide +kernel, rfl,
      ⟨fun h => (nomatch h), fun _ h => (nomatch h)⟩, by decide +kernel⟩
  obtain ⟨pre, m, post, he, -, -, hw⟩ := (h _ List.prefix_rfl).completed _ hlists ⟨1, 2, 2, 1, 3, "EA"⟩ (by decide +kernel)
  rcases pre with _ | ⟨m', pre⟩
  · cases he
    revert hw
    decide
  · simp at he

end Dmis
