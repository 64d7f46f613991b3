import Dmis.Staleness

/-!
# Submitted packages

From its submission until a Logistics Manager rejects, cancels or dispatches it, a package belongs to the
manager. `_submit_for_approval` (`packaging.py:1588-1643`) turns other officers away; `_save_draft`
(`:1484-1567`) turns nobody away, rewrites the rows and withdraws the marker, and the read-only flag of the
page (`:1354-1361`) does not stop its post. `submitted_package_protected`: officers' saves of a submitted
package are the only posts that break the rule.
-/

namespace Dmis

open Relational Keyed

/-! ## The rule -/

def Submitted (p : ReliefPkg) : Prop := p.statusCode = .pending ∧ p.verifyById = some pendingLM

instance (p : ReliefPkg) : Decidable (Submitted p) := by unfold Submitted; infer_instance

/-- A save or a submission of the prepare page by this user, an officer who is no manager. -/
def Op.ByOfficer (user : String) : Op → Prop
  | .preparePackage ctx _ .saveDraft _ | .preparePackage ctx _ .submitForApproval _ =>
    ctx.logisticsOfficer = true ∧ ctx.logisticsManager = false ∧ ctx.userName = user
  | _ => False

/-- The manager's operations that end the submission. -/
def Op.Closes : Op → Prop
  | .reviewApproval .. | .cancelPackage .. | .submitForDispatch ..
  | .preparePackage _ _ .sendForDispatch _ | .approvePackage _ _ .approveAndDispatch _ => True
  | _ => False

/-- The package is neither rejected nor cancelled nor dispatched here. -/
def StaysOpen (p : ReliefPkg) (db : Database) (op : Op) : Prop :=
  Commits db op → op.Targets db.tables p.reliefrqstId → ¬ op.Closes

/-- The post is no officer's save of the package, unless it is the creator's, and the marker is gone. -/
def NoSave (p : ReliefPkg) (db : Database) (op : Op) : Prop :=
  ∀ ctx post, op = .preparePackage ctx p.reliefrqstId .saveDraft post → Commits db op →
    ctx.logisticsOfficer = true → ctx.logisticsManager = false →
    ctx.userName = p.createById ∧ ∀ q ∈ db.tables.reliefpkg.get? p.reliefpkgId, q.verifyById ≠ some pendingLM

/-- What the rule says of one operation: no officer withdraws the marker, and an officer who did not
create the package changes neither it nor its rows, nor, by a post on its request, any batch. -/
def Respects (p : ReliefPkg) (db : Database) (op : Op) : Prop :=
  ∀ user, op.ByOfficer user →
    (∀ q ∈ db.tables.reliefpkg.get? p.reliefpkgId, q.verifyById = some pendingLM →
      ∃ q' ∈ (step db op).tables.reliefpkg.get? p.reliefpkgId, q'.verifyById = some pendingLM) ∧
    (user ≠ p.createById →
      (step db op).tables.reliefpkg.get? p.reliefpkgId = db.tables.reliefpkg.get? p.reliefpkgId ∧
      (∀ k, (step db op).tables.reliefpkgItem.get? (p.reliefpkgId, k) =
        db.tables.reliefpkgItem.get? (p.reliefpkgId, k)) ∧
      (op.Targets db.tables p.reliefrqstId → (step db op).tables.itembatch = db.tables.itembatch))

/-! ## The package while it is open -/

section
variable {op : Op} {x : Nat} {r : ReliefRqst} {p q : ReliefPkg} {b : Option Header} {db : Database}

/-- What stays the same of a package until it is closed. -/
structure SamePkg (p q : ReliefPkg) : Prop where
  id : q.reliefpkgId = p.reliefpkgId
  creator : q.createById = p.createById
  pending : q.statusCode = .pending

theorem HeaderStep.samePkg (h : HeaderStep op x (some ⟨r, some q⟩) b) (hq : SamePkg p q) (hc : ¬ op.Closes) :
    ∃ r' q', b = some ⟨r', some q'⟩ ∧ SamePkg p q' := by
  cases h with
  | editItems | deleteItem | submitRequest | decide | cancelPreparation => exact ⟨_, _, rfl, hq⟩
  | saveDraft =>
    refine ⟨_, _, rfl, ?_⟩
    simp only [Option.getD_some, ReliefPkg.unmarked]
    split
    · exact hq
    · exact ⟨hq.id, hq.creator, hq.pending⟩
  | submitForApproval | saveDraftApproval => exact ⟨_, _, rfl, hq.id, hq.creator, rfl⟩
  | markHandover _ status => cases hq.pending.symm.trans status
  | _ => exact absurd trivial hc

/-- The package is open: it is its request's, and pending. -/
def OpenPkg (p : ReliefPkg) (db : Database) : Prop :=
  UniquePkg db.tables ∧ ∃ r q, db.tables.header p.reliefrqstId = some ⟨r, some q⟩ ∧ SamePkg p q

theorem openPkg_step (h : OpenPkg p db) (ho : StaysOpen p db op) : OpenPkg p (step db op) := by
  obtain ⟨hu, r, q, hh, hq⟩ := h
  by_cases hc : Commits db op
  · obtain ⟨hu', x, hs, hother⟩ := commits_header hu hc
    by_cases hx : p.reliefrqstId = x
    · subst hx
      have hT := hs.targets rfl
      rw [hh] at hs
      obtain ⟨r', q', hb, hq'⟩ := hs.samePkg hq (ho hc hT)
      exact ⟨hu', r', q', hb, hq'⟩
    · exact ⟨hu', r, q, by rw [hother _ hx, hh], hq⟩
  · rw [step_of_not_commits hc]
    exact ⟨hu, r, q, hh, hq⟩

theorem get?_of_header {t : Tables} (hh : t.header x = some ⟨r, some q⟩) (hq : SamePkg p q) :
    t.reliefpkg.get? p.reliefpkgId = some q := by
  rw [← hq.id]
  exact Table.get?_key (mem_of_header hh).1

/-- An officer's post on the package's request that commits is the creator's, or a forbidden save. -/
theorem HeaderStep.byOfficer {user : String} (h : HeaderStep op x (some ⟨r, some q⟩) b)
    (hq : SamePkg p q) (hop : op.ByOfficer user) :
    (∃ ctx post, op = .preparePackage ctx x .saveDraft post ∧ ctx.logisticsOfficer = true ∧
      ctx.logisticsManager = false ∧ ctx.userName = user) ∨
    (user = p.createById ∧ ∃ r' q', b = some ⟨r', some q'⟩ ∧ SamePkg p q' ∧ q'.verifyById = some pendingLM) := by
  cases h with
  | saveDraft => exact .inl ⟨_, _, rfl, hop⟩
  | submitForApproval _ _ creator =>
    have hcr := creator q rfl hq.pending
    refine .inr ⟨hop.2.2 ▸ hq.creator ▸ hcr.symm, _, _, rfl, ⟨hq.id, hq.creator, rfl⟩, rfl⟩
  | _ => exact hop.elim

theorem respects_of_noSave (h : OpenPkg p db) (hn : NoSave p db op) : Respects p db op := by
  obtain ⟨hu, r, q, hh, hq⟩ := h
  intro user hop
  have hget := get?_of_header hh hq
  by_cases hc : Commits db op
  · obtain ⟨hu', x, hs, hother⟩ := commits_header hu hc
    by_cases hx : p.reliefrqstId = x
    · -- on the package's own request
      subst hx
      rw [hh] at hs
      rcases hs.byOfficer hq hop with ⟨ctx, post, rfl, hlo, hlm, rfl⟩ | ⟨hcr, r', q', hb, hq', hv⟩
      · obtain ⟨hcr, hmark⟩ := hn ctx post rfl hc hlo hlm
        exact ⟨fun q' hg hv => absurd hv (hmark q' hg), fun hne => absurd hcr hne⟩
      · refine ⟨fun _ _ _ => ⟨q', get?_of_header hb hq', hv⟩, fun hne => absurd hcr hne⟩
    · -- on another request
      have hb := hother _ hx
      rw [hh] at hb
      have hT := hs.targets rfl
      have hrow := get?_of_header hb hq
      refine ⟨fun q' hg hv => ?_, fun _ => ⟨hrow.trans hget.symm, fun k => ?_, fun hT' => absurd ?_ hx⟩⟩
      · exact ⟨q, hrow, by rw [← Option.mem_unique hg hget]; exact hv⟩
      · obtain ⟨hm, hr⟩ := mem_of_header hh
        rw [← hq.id]
        exact step_rows hT hm (hr ▸ hx) k
      · refine Op.Targets.unique ?_ hT' hT
        cases op <;> first | exact trivial | exact hop.elim
  · rw [step_of_not_commits hc]
    exact ⟨fun q' hg hv => ⟨q', hg, hv⟩, fun _ => ⟨rfl, fun _ => rfl, fun _ => rfl⟩⟩

end

/-- **A submitted package belongs to the manager**: in every run from a reachable state in which `p` is
submitted, while it stays open, if no officer saves over it, every operation respects it. -/
theorem submitted_package_protected (db : Database) (hreach : Reachable db) (p : ReliefPkg)
    (hp : p ∈ db.tables.reliefpkg.rows) (hs : Submitted p) (ops : List Op)
    (hopen : Along step (StaysOpen p) db ops) (hn : Along step (NoSave p) db ops) :
    Along step (Respects p) db ops := by
  obtain ⟨r, hh⟩ := header_of_pkg hreach.unique db.consistent hp
  have hboth : Along step (fun s op => StaysOpen p s op ∧ NoSave p s op) db ops := hopen.and hn
  exact Along.imp (I := OpenPkg p) (fun _ _ h hop => openPkg_step h hop.1)
    (fun _ _ h hop => respects_of_noSave h hop.2) ⟨hreach.unique, r, p, hh, rfl, rfl, hs.1⟩ hboth

/-- The site once a package was submitted. -/
def Site.submitted : Database := step db (.preparePackage officer 1 .submitForApproval (post 3 .absent 2))

def Site.submittedPkg : ReliefPkg := (newPkg officer rqst 1).submitted officer

/-- Another officer's submission, and the manager's save on the approve page. -/
theorem submitted_package_protected_site :
    Along step (Respects Site.submittedPkg) Site.submitted
      [.preparePackage Site.otherOfficer 1 .submitForApproval (Site.post 4 (.num 2) 4),
        .approvePackage Site.manager 1 .saveDraft (Site.post 4 (.num 2) 1)] :=
  submitted_package_protected Site.submitted (.step (.initial rfl) _) Site.submittedPkg (by decide +kernel)
    (by decide +kernel) _ ⟨fun _ _ h => h, fun _ _ h => h, trivial⟩
    ⟨fun _ _ h => (by cases h), fun _ _ h => (by cases h), trivial⟩

/-- Another officer saves over the submitted package: the marker, a row and a reservation change. -/
theorem submitted_package_overwritten :
    Site.submittedPkg ∈ Site.submitted.tables.reliefpkg.rows ∧ Submitted Site.submittedPkg ∧
    ¬ Respects Site.submittedPkg Site.submitted
      (.preparePackage Site.otherOfficer 1 .saveDraft (Site.post 4 (.num 2) 4)) := by
  refine ⟨by decide +kernel, by decide +kernel, fun h => ?_⟩
  have hb := ((h "LO2" ⟨rfl, rfl, rfl⟩).2 (by decide)).2.2 rfl
  revert hb
  decide +kernel

end Dmis
