import Dmis.Submitted

/-!
# Stock leaves once

A dispatched package is closed: the approve and review pages want a pending one, Workflow C a pending or
verified one, and a submission would violate `c_reliefpkg_2`. The prepare page only looks at the request,
which stays `PART FILLED`, and takes whatever package it has (`packaging.py:1331-1352`, `:1799`):
`_save_draft` rewrites the rows of a dispatched package and `_send_for_dispatch` dispatches it again.
`dispatched_at_most_once`: these two posts are the only way.
-/

namespace Dmis

open Relational Keyed

/-! ## What a run promises -/

/-- Some batch has less usable stock. -/
def TakesStock (t t' : Tables) : Prop :=
  ∃ b ∈ t.itembatch.rows, ∃ q ∈ t'.usable b.key, q < b.usableQty

/-- The operation takes stock for the package `pkgId` of the request. -/
def TakesFor (rqstId pkgId : Nat) (db : Database) (op : Op) : Prop :=
  Commits db op ∧ op.Targets db.tables rqstId ∧
  (∃ p ∈ (step db op).tables.firstPkg rqstId, p.reliefpkgId = pkgId) ∧ TakesStock db.tables (step db op).tables

instance (rqstId pkgId : Nat) (db : Database) (op : Op) : Decidable (TakesFor rqstId pkgId db op) := by
  unfold TakesFor TakesStock; infer_instance

/-- A dispatched package of the request stays dispatched, with its rows, and an operation on the request
moves no stock. -/
def LeavesDispatched (rqstId : Nat) (db : Database) (op : Op) : Prop :=
  ∀ p ∈ db.tables.firstPkg rqstId, p.statusCode = .dispatched →
    (∃ p' ∈ (step db op).tables.firstPkg rqstId,
      p'.reliefpkgId = p.reliefpkgId ∧ p'.statusCode = .dispatched) ∧
    (∀ k, (step db op).tables.reliefpkgItem.get? (p.reliefpkgId, k) =
      db.tables.reliefpkgItem.get? (p.reliefpkgId, k)) ∧
    (op.Targets db.tables rqstId → (step db op).tables.itembatch = db.tables.itembatch)

/-- Neither the package nor its preparation is cancelled. -/
def NoCancel (rqstId : Nat) (db : Database) (op : Op) : Prop :=
  (∀ ctx pkgId, op = .cancelPackage ctx pkgId → ¬ op.Targets db.tables rqstId) ∧ op ≠ .cancelPreparation rqstId

/-- No save or direct dispatch of the prepare page commits once the package is dispatched. -/
def NoReopen (rqstId : Nat) (db : Database) (op : Op) : Prop :=
  ∀ ctx action post, op = .preparePackage ctx rqstId action post → action ≠ .submitForApproval →
    Commits db op → ∀ p ∈ db.tables.firstPkg rqstId, p.statusCode ≠ .dispatched

/-! ## A dispatched package -/

section
variable {op : Op} {t t' : Tables} {rqstId pkgId : Nat} {r : ReliefRqst} {q : ReliefPkg} {b : Option Header}
  {db : Database}

/-- Outside the packaging operations, rows and stock are left alone. -/
theorem route_quiet (h : op.route t = .ok t') (hp : ¬ op.Packaging) :
    t'.itembatch = t.itembatch ∧ t'.reliefpkgItem = t.reliefpkgItem := by
  cases op with
  | createDraftRequest | editItems | deleteItem | submitRequest | submitEligibilityDecision =>
    rw [route_onRequest h trivial]
    exact ⟨rfl, rfl⟩
  | markHandover =>
    simp only [Op.route, markHandover, bind_ok, pure_ok] at h
    obtain ⟨_, _, _, _, _, _, _, _, _, _, _, _, rfl⟩ := h
    exact ⟨rfl, rfl⟩
  | _ => exact absurd trivial hp

theorem step_quiet (db : Database) (hp : ¬ op.Packaging) :
    (step db op).tables.itembatch = db.tables.itembatch ∧
    (step db op).tables.reliefpkgItem = db.tables.reliefpkgItem := by
  refine step_cases (P := fun d => d.tables.itembatch = db.tables.itembatch ∧
    d.tables.reliefpkgItem = db.tables.reliefpkgItem) ⟨rfl, rfl⟩ fun db' t ht _ he => ?_
  obtain ⟨hb, hi⟩ := route_quiet ht hp
  have hst := db.consistent.stored
  constructor
  · rw [he]
    conv_rhs => rw [← hst]
    simp only [Tables.rounded, hb]
  · rw [he]
    conv_rhs => rw [← hst]
    simp only [Tables.rounded, hi]

/-- The only operations that commit on a request whose package is dispatched, apart from saves, direct
dispatches and cancellations, are no packaging operations. -/
theorem HeaderStep.of_dispatched (h : HeaderStep op rqstId (some ⟨r, some q⟩) b) (hq : q.statusCode = .dispatched)
    (hchk : q.Check) (hb : ∀ g ∈ b, g.Checked) (hcp : ∀ ctx pkgId, op ≠ .cancelPackage ctx pkgId)
    (hcr : op ≠ .cancelPreparation rqstId)
    (hn : ∀ ctx action post, op = .preparePackage ctx rqstId action post → action = .submitForApproval) :
    ¬ op.Packaging ∧ ∃ r' q', b = some ⟨r', some q'⟩ ∧ q'.reliefpkgId = q.reliefpkgId ∧ q'.statusCode = .dispatched := by
  cases h with
  | editItems | deleteItem | submitRequest | decide => exact ⟨id, _, _, rfl, rfl, hq⟩
  | markHandover => exact ⟨id, _, _, rfl, rfl, hq⟩
  | saveDraft | sendForDispatch => cases hn _ _ _ rfl
  | submitForApproval =>
    -- `c_reliefpkg_2`: pending with a dispatch time
    have hp := (hb _ rfl).pkg _ rfl
    have hd : q.dispatchDtime = none := by simpa [ReliefPkg.Check, ReliefPkg.submitted] using hp
    simp [ReliefPkg.Check, hd, hq] at hchk
  | saveDraftApproval ok | approveAndDispatch ok | reviewApproveAndDispatch ok | reviewReject ok =>
    cases hq.symm.trans ok.pending
  | submitForDispatch _ status => rcases status with hs | hs <;> cases hq.symm.trans hs
  | cancelPackage => exact absurd rfl (hcp _ _)
  | cancelPreparation => exact absurd rfl hcr

/-- The package `pkgId` of the request is dispatched. -/
def Dispatched (rqstId pkgId : Nat) (db : Database) : Prop :=
  ∃ r q, db.tables.header rqstId = some ⟨r, some q⟩ ∧ q.reliefpkgId = pkgId ∧ q.statusCode = .dispatched

/-- What happens to a dispatched package in one step. -/
theorem step_dispatched (hu : UniquePkg db.tables) (hd : Dispatched rqstId pkgId db) (hc : NoCancel rqstId db op)
    (hn : NoReopen rqstId db op) :
    Dispatched rqstId pkgId (step db op) ∧
    (∀ k, (step db op).tables.reliefpkgItem.get? (pkgId, k) = db.tables.reliefpkgItem.get? (pkgId, k)) ∧
    (op.Targets db.tables rqstId → (step db op).tables.itembatch = db.tables.itembatch) := by
  obtain ⟨r, q, hh, rfl, hq⟩ := hd
  by_cases hcom : Commits db op
  · obtain ⟨-, x, hs, hother⟩ := commits_header hu hcom
    have hT := hs.targets rfl
    by_cases hx : rqstId = x
    · subst hx
      rw [hh] at hs
      have hchk := (header_checked db.consistent hh).pkg q rfl
      obtain ⟨hnp, r', q', hb, hid, hq'⟩ := hs.of_dispatched hq hchk
        (fun g hg => header_checked (step db op).consistent hg) (fun ctx p e => hc.1 ctx p e hT) hc.2
        (fun ctx action post e => by
          by_contra hne
          exact hn ctx action post e hne hcom q (header_eq_some.1 hh).2 hq)
      obtain ⟨hbatch, hitem⟩ := step_quiet db hnp
      exact ⟨⟨r', q', hb, hid, hq'⟩, fun k => by rw [hitem], fun _ => hbatch⟩
    · refine ⟨⟨r, q, by rw [hother _ hx, hh], rfl, hq⟩, fun k => ?_, fun hT' => ?_⟩
      · obtain ⟨hm, hr⟩ := mem_of_header hh
        exact step_rows hT hm (hr ▸ hx) k
      · by_cases hp : op.Packaging
        · exact absurd (Op.Targets.unique hp hT' hT) hx
        · exact (step_quiet db hp).1
  · rw [step_of_not_commits hcom]
    exact ⟨⟨r, q, hh, rfl, hq⟩, fun _ => rfl, fun _ => rfl⟩

/-- An operation that takes stock for a package dispatches it. -/
theorem dispatched_of_takesFor (hu : UniquePkg db.tables) (h : TakesFor rqstId pkgId db op) :
    Dispatched rqstId pkgId (step db op) := by
  obtain ⟨hc, hT, ⟨p, hp, rfl⟩, b, hb, u, hu', hlt⟩ := h
  have hdis : op.Dispatches := by
    by_contra hn
    rw [step_usable hn, Tables.usable, show db.tables.itembatch.get? b.key = some b from Table.get?_key hb] at hu'
    cases hu'
    exact lt_irrefl _ hlt
  have hpack : op.Packaging := by
    cases op <;> first | exact trivial | exact hdis
  have hs := commits_target hu hc hpack hT
  obtain ⟨hm, hr⟩ := mem_of_firstPkg hp
  obtain ⟨r, hb⟩ := header_of_pkg (step_header hu op).1 (step db op).consistent hm
  rw [hr] at hb
  refine ⟨r, p, hb, rfl, ?_⟩
  rw [hb] at hs
  generalize db.tables.header rqstId = a at hs
  cases hs with
  | sendForDispatch | approveAndDispatch | reviewApproveAndDispatch | submitForDispatch => rfl
  | _ => exact hdis.elim

end

/-- **Stock leaves once per package**, and a dispatched package is left alone: in every run from a reachable
state without cancellations on the request, as long as no save or direct dispatch reopens its package. -/
theorem dispatched_at_most_once (db : Database) (hreach : Reachable db) (rqstId : Nat) (ops : List Op)
    (hc : Along step (NoCancel rqstId) db ops) (hn : Along step (NoReopen rqstId) db ops) :
    (∀ pkgId, count step (TakesFor rqstId pkgId) db ops ≤ 1) ∧ Along step (LeavesDispatched rqstId) db ops := by
  have hboth := hc.and hn
  have hinv : ∀ s op, UniquePkg s.tables → NoCancel rqstId s op ∧ NoReopen rqstId s op →
      UniquePkg (step s op).tables := fun _ op hu _ => (step_header hu op).1
  refine ⟨fun pkgId => ?_, Along.imp hinv (fun s op hu hP p hp hd => ?_) hreach.unique hboth⟩
  · refine count_le_one (D := Dispatched rqstId pkgId) hinv (fun _ _ hu _ hE => dispatched_of_takesFor hu hE)
      (fun _ _ hu hd hP => (step_dispatched hu hd hP.1 hP.2).1) (fun s op hu hd hP hE => ?_) hreach.unique hboth
    obtain ⟨-, hT, -, b, hb, q, hq, hlt⟩ := hE
    rw [usable_congr ((step_dispatched hu hd hP.1 hP.2).2.2 hT), Tables.usable,
      show s.tables.itembatch.get? b.key = some b from Table.get?_key hb] at hq
    cases hq
    exact lt_irrefl _ hlt
  · obtain ⟨hm, rfl⟩ := mem_of_firstPkg hp
    obtain ⟨r, hh⟩ := header_of_pkg hu s.consistent hm
    obtain ⟨⟨r', q', hb, hid, hq'⟩, hrows, hbatch⟩ := step_dispatched hu ⟨r, p, hh, rfl, hd⟩ hP.1 hP.2
    exact ⟨⟨q', (header_eq_some.1 hb).2, hid, hq'⟩, hrows, hbatch⟩

/-- Drafted, dispatched from the review page, and posted to again. -/
def Site.dispatching : List Op :=
  [.preparePackage officer 1 .submitForApproval (post 3 .absent 2),
    .reviewApproval manager 1 .approveAndDispatch (post 4 (.num 2) 2),
    .submitForDispatch manager 1 (.num 3) .absent]

theorem dispatched_at_most_once_site :
    count step (TakesFor 1 1) Site.db Site.dispatching ≤ 1 ∧ count step (TakesFor 1 1) Site.db Site.dispatching ≠ 0 := by
  refine ⟨(dispatched_at_most_once Site.db (.initial rfl) 1 Site.dispatching ?_ ?_).1 1, by decide +kernel⟩
  · exact ⟨⟨fun _ _ h => (by cases h), fun h => (by cases h)⟩, ⟨fun _ _ h => (by cases h), fun h => (by cases h)⟩,
      ⟨fun _ _ h => (by cases h), fun h => (by cases h)⟩, trivial⟩
  · refine ⟨?_, ?_, ?_, trivial⟩
    · intro _ _ _ h hne; cases h; exact absurd rfl hne
    · intro _ _ _ h; cases h
    · intro _ _ _ h; cases h

/-- The same form sent for dispatch twice, each time from a freshly loaded page. -/
def Site.twice : List Op :=
  [.preparePackage manager 1 .sendForDispatch (post 3 .absent 5),
    .preparePackage manager 1 .sendForDispatch (post 4 (.num 2) 5)]

/-- The stock of one package leaves twice, and a draft saved over a dispatched package changes its rows. -/
theorem dispatched_twice :
    count step (TakesFor 1 1) Site.db Site.twice = 2 ∧
    ¬ LeavesDispatched 1 (step Site.db (.preparePackage Site.manager 1 .sendForDispatch (Site.post 3 .absent 5)))
      (.preparePackage Site.officer 1 .saveDraft (Site.post 4 (.num 2) 1)) := by
  refine ⟨by decide +kernel, fun h => ?_⟩
  have hrow := (h ((newPkg Site.manager Site.rqst 1).dispatch Site.manager) (by decide +kernel) rfl).2.1 ⟨1, 1, 1⟩
  revert hrow
  decide +kernel

end Dmis
