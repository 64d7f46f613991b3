import Dmis.Queues

/-!
# Only eligible requests are fulfilled

`Lawful ds h` ties the state of a request to the eligibility decisions `ds` recorded for it so far:
none before the review, one afterwards, and a package or `PART FILLED` only after a `Y`. Every step of
the request keeps it, with the step's own decision appended (`headerStep_lawful`).
-/

namespace Dmis

open Relational Keyed

/-- The decision this operation records for the request. -/
def Op.decision (rqstId : Nat) : Op → List Decision
  | .submitEligibilityDecision _ r d _ => if r = rqstId then [d] else []
  | _ => []

/-- The decisions recorded for a request in a run, in order. -/
def decisions (rqstId : Nat) : Database → List Op → List Decision
  | _, [] => []
  | db, op :: ops =>
    (if Commits db op then op.decision rqstId else []) ++ decisions rqstId (step db op) ops

/-- What a request's decisions say about its state. -/
def Lawful (ds : List Decision) : Option Header → Prop
  | none => ds = []
  | some h =>
    match h.rqst.statusCode with
    | .draft | .awaitingApproval =>
      ds = [] ∧ h.rqst.reviewById = none ∧ h.rqst.actionById = none ∧ h.pkg = none
    | .submitted =>
      ds = [.eligible] ∧ h.rqst.reviewById.isSome ∧ h.rqst.actionById = none ∧ h.pkg = none
    | .partFilled => ds = [.eligible] ∧ h.rqst.reviewById.isSome ∧ h.rqst.actionById.isSome
    | .ineligible =>
      ds = [.ineligible] ∧ h.rqst.reviewById.isSome ∧ h.rqst.actionById.isSome ∧ h.pkg = none
    | _ => False

theorem Lawful.pkg {ds : List Decision} {r : ReliefRqst} {p : ReliefPkg} (h : Lawful ds (some ⟨r, some p⟩)) :
    r.statusCode = .partFilled := by
  cases hs : r.statusCode <;> simp [Lawful, hs] at h ⊢

theorem Lawful.c4a_c5a {ds : List Decision} {h : Header} (hl : Lawful ds (some h)) :
    h.rqst.C4a ∧ h.rqst.C5a := by
  cases hs : h.rqst.statusCode <;>
    simp [Lawful, hs] at hl <;> simp [ReliefRqst.C4a, ReliefRqst.C5a, RqstStatus.code, hs, hl]

theorem Lawful.fulfilled {ds : List Decision} {h : Header} (hl : Lawful ds (some h))
    (hf : h.pkg ≠ none ∨ h.rqst.statusCode = .partFilled) : ds = [.eligible] := by
  have hs : h.rqst.statusCode = .partFilled := by
    rcases hf with hp | hs
    · obtain ⟨r, _ | p⟩ := h
      · exact absurd rfl hp
      · exact hl.pkg
    · exact hs
  simp only [Lawful, hs] at hl
  exact hl.1

theorem Lawful.length_le {ds : List Decision} {a : Option Header} (hl : Lawful ds a) : ds.length ≤ 1 := by
  cases a with
  | none => simp [show ds = [] from hl]
  | some h => cases hs : h.rqst.statusCode <;> simp [Lawful, hs] at hl <;> simp [hl]

/-- A prepare post finds a request that was decided `Y`, and leaves it being filled. -/
theorem Lawful.actedOn {ds : List Decision} {r : ReliefRqst} {p q : Option ReliefPkg} {ctx : Ctx}
    (hl : Lawful ds (some ⟨r, p⟩)) (hs : r.statusCode = .submitted ∨ r.statusCode = .partFilled) :
    Lawful ds (some ⟨r.actedOn ctx, q⟩) := by
  rcases hs with hs | hs <;> simp only [Lawful, hs, ReliefRqst.actedOn] at hl ⊢ <;> simp [hl]

/-- **Every step is lawful.** -/
theorem headerStep_lawful {op : Op} {rqstId : Nat} {a b : Option Header} {ds : List Decision}
    (hs : HeaderStep op rqstId a b) (hl : Lawful ds a) : Lawful (ds ++ op.decision rqstId) b := by
  cases hs with
  | createDraftRequest status review action =>
    simp only [Lawful, Op.decision, List.append_nil, status] at hl ⊢
    exact ⟨hl, review, action, trivial⟩
  | editItems | deleteItem | cancelPreparation => simpa [Op.decision] using hl
  | submitRequest status => simpa [Lawful, Op.decision, status] using hl
  | @decide ctx rid d reason r p reviewer status review decision =>
    simp only [Lawful, status] at hl
    obtain ⟨rfl, -, haction, hpkg⟩ := hl
    cases d with
    | eligible => simp [Lawful, Op.decision, ReliefRqst.decided, haction, hpkg]
    | ineligible => simp [Lawful, Op.decision, ReliefRqst.decided, hpkg]
    | other => exact absurd rfl decision
  | saveDraft ok | submitForApproval ok | sendForDispatch ok =>
    simpa [Op.decision] using hl.actedOn ok.packable
  | saveDraftApproval =>
    have hst := hl.pkg
    simp only [Lawful, hst, Op.decision, List.append_nil] at hl ⊢
    exact hl
  | approveAndDispatch | reviewApproveAndDispatch | submitForDispatch =>
    simpa [Op.decision] using hl.actedOn (.inr hl.pkg)
  | reviewReject =>
    have hst := hl.pkg
    simp only [Lawful, hst, Op.decision, List.append_nil] at hl ⊢
    exact ⟨hl.1, hl.2.1, rfl⟩
  | cancelPackage | markHandover =>
    have hst := hl.pkg
    simp only [Lawful, hst, Op.decision, List.append_nil] at hl ⊢
    exact hl

theorem HeaderStep.rqst_eq {op : Op} {x y : Nat} {a b : Option Header} (h : HeaderStep op x a b)
    (hy : op.decision y ≠ []) : y = x := by
  cases h <;> simp_all [Op.decision]

/-- The invariant of a run: every request is lawful for the decisions recorded so far. -/
def LawfulAt (ds : Nat → List Decision) (t : Tables) : Prop :=
  UniquePkg t ∧ ∀ x, Lawful (ds x) (t.header x)

theorem simulates_lawful {ds : Nat → List Decision} {t t' : Tables} {op : Op} (hl : LawfulAt ds t)
    (hs : Simulates op t t') : LawfulAt (fun x => ds x ++ op.decision x) t' := by
  obtain ⟨hu, rqstId, hstep, hother⟩ := hs
  refine ⟨hu, fun x => ?_⟩
  by_cases hx : x = rqstId
  · subst hx
    exact headerStep_lawful hstep (hl.2 x)
  · have hd : op.decision x = [] := by
      by_contra hne
      exact hx (hstep.rqst_eq hne)
    simpa only [hd, List.append_nil, hother x hx] using hl.2 x

theorem run_lawful {ds : Nat → List Decision} {db : Database} (hl : LawfulAt ds db.tables) (ops : List Op) :
    LawfulAt (fun x => ds x ++ decisions x db ops) (run step db ops).tables := by
  induction ops generalizing ds db with
  | nil => simpa [decisions] using hl
  | cons op ops ih =>
    have hstep : LawfulAt (fun x => ds x ++ if Commits db op then op.decision x else []) (step db op).tables := by
      by_cases hc : Commits db op
      · obtain ⟨t, ht, -, he⟩ := step_of_commits hc
        have hlt := simulates_lawful hl (route_simulates hl.1 db.consistent ht)
        simp only [if_pos hc, he]
        exact ⟨hlt.1, fun x => hlt.2 x⟩
      · simpa [hc, step_of_not_commits hc] using hl
    have := ih hstep
    simpa only [run_cons, decisions, List.append_assoc] using this

/-! ## Ineligible requests -/

/-- An ineligible request without a package is left as it is. -/
theorem headerStep_ineligible {op : Op} {rqstId : Nat} {r : ReliefRqst} {b : Option Header}
    (hs : HeaderStep op rqstId (some ⟨r, none⟩) b) (hr : r.statusCode = .ineligible) : b = some ⟨r, none⟩ := by
  cases hs with
  | editItems | deleteItem | cancelPreparation => rfl
  | submitRequest status | decide status => cases hr.symm.trans status
  | saveDraft ok | submitForApproval ok | sendForDispatch ok =>
    rcases ok.packable with h | h <;> cases hr.symm.trans h

theorem run_ineligible {db : Database} (hu : UniquePkg db.tables) {rqstId : Nat} {r : ReliefRqst}
    (hh : db.tables.header rqstId = some ⟨r, none⟩) (hr : r.statusCode = .ineligible) (ops : List Op) :
    (run step db ops).tables.header rqstId = some ⟨r, none⟩ := by
  refine (run_invariant (I := fun db : Database => UniquePkg db.tables ∧
    db.tables.header rqstId = some ⟨r, none⟩) (fun db op h => ?_) ⟨hu, hh⟩ ops).2
  obtain ⟨hu', hstep⟩ := step_header h.1 op
  refine ⟨hu', ?_⟩
  rcases hstep with he | ⟨x, hs, hother⟩
  · rw [he]; exact h.2
  · by_cases hx : rqstId = x
    · subst hx
      rw [h.2] at hs
      exact headerStep_ineligible hs hr
    · rw [hother rqstId hx]; exact h.2

/-! ## The whole life -/

theorem lawfulAt_of_empty {db : Database} (h0 : db.tables.reliefrqst.rows = []) :
    LawfulAt (fun _ => []) db.tables := by
  have hpk : db.tables.reliefpkg.rows = [] := by
    refine List.eq_nil_iff_forall_not_mem.2 fun p hp => ?_
    have := db.consistent.fkPkg p hp
    simp [Table.keys, h0] at this
  refine ⟨by simp [UniquePkg, hpk], fun x => ?_⟩
  have : db.tables.reliefrqst.get? x = none := Table.get?_eq_none.2 (by simp [Table.keys, h0])
  simp [Tables.header, this, Lawful]

/-- **Only eligible requests are fulfilled.** From an empty request table, whatever is posted: a request
that has a package or is `PART FILLED` was decided on once, with `Y`; no request is decided on twice; an
ineligible request stays as it is; the review and action columns are set exactly from status 2 and 4
on, in every state and in what any further operation hands to the commit. -/
theorem only_eligible_fulfilled (db : Database) (h0 : db.tables.reliefrqst.rows = []) (ops : List Op) :
    let s := run step db ops
    (∀ r ∈ s.tables.reliefrqst.rows,
      (∃ p ∈ s.tables.reliefpkg.rows, p.reliefrqstId = r.reliefrqstId) ∨ r.statusCode = .partFilled →
      decisions r.reliefrqstId db ops = [.eligible]) ∧
    (∀ rqstId, (decisions rqstId db ops).length ≤ 1) ∧
    (∀ r ∈ s.tables.reliefrqst.rows, r.statusCode = .ineligible →
      ∀ later, (run step s later).tables.reliefrqst.get? r.reliefrqstId = some r) ∧
    (∀ r ∈ s.tables.reliefrqst.rows,
      (r.reviewById.isSome ↔ 2 ≤ r.statusCode.code) ∧ (r.actionById.isSome ↔ 4 ≤ r.statusCode.code)) ∧
    (∀ (op : Op) (t : Tables), op.route s.tables = .ok t → ∀ r ∈ t.reliefrqst.rows, r.C4a ∧ r.C5a) := by
  have hl := run_lawful (lawfulAt_of_empty h0) ops
  simp only [List.nil_append] at hl
  obtain ⟨hu, hlaw⟩ := hl
  have hmem : ∀ r ∈ (run step db ops).tables.reliefrqst.rows,
      Lawful (decisions r.reliefrqstId db ops)
        (some ⟨r, (run step db ops).tables.firstPkg r.reliefrqstId⟩) := fun r hr => by
    have := hlaw r.reliefrqstId
    rwa [header_of_mem hr] at this
  refine ⟨fun r hr hf => (hmem r hr).fulfilled (hf.imp_left ?_), fun x => (hlaw x).length_le,
    fun r hr hi later => ?_, fun r hr => ?_, fun op t ht r hr => ?_⟩
  · rintro ⟨p, hp, hpr⟩
    simp [(firstPkg_eq_some hu).2 ⟨hp, hpr⟩]
  · have hr' := hmem r hr
    simp only [Lawful, hi] at hr'
    have hh := header_of_mem hr
    rw [hr'.2.2.2] at hh
    exact (header_eq_some.1 (run_ineligible hu hh hi later)).1
  · obtain ⟨h4, h5⟩ := (hmem r hr).c4a_c5a
    constructor
    · rcases h4 with ⟨h4, h4'⟩ | ⟨h4, h4'⟩
      · simpa [show r.reviewById = none from h4] using h4'
      · exact ⟨fun _ => h4', fun _ => h4⟩
    · rcases h5 with ⟨h5, h5'⟩ | ⟨h5, h5'⟩
      · simpa [show r.actionById = none from h5] using h5'
      · exact ⟨fun _ => h5', fun _ => h5⟩
  · have hl := simulates_lawful ⟨hu, hlaw⟩ (route_simulates hu (run step db ops).consistent ht)
    have := hl.2 r.reliefrqstId
    rw [header_of_mem hr] at this
    exact this.c4a_c5a

/-- The site before any request. -/
def Site.blank : Database :=
  ⟨{ tables with reliefrqst := ⟨[], by decide⟩, reliefrqstItem := ⟨[], by decide⟩, nextReliefrqstId := 1 },
    by decide +kernel⟩

/-- A request from its draft to its package. -/
def Site.life : List Op :=
  [.createDraftRequest (user "AG" false false) 1 .low none none,
    .editItems (user "AG" false false) 1 ⟨some 1, some (.finite 5), "M", "", .blank⟩,
    .submitRequest (user "AG" false false) 1 (.num 1),
    .submitEligibilityDecision (user "DIR" false false) 1 .eligible "",
    .preparePackage officer 1 .saveDraft (post 3 .absent 2)]

theorem only_eligible_fulfilled_site : decisions 1 Site.blank Site.life = [.eligible] :=
  (only_eligible_fulfilled Site.blank rfl Site.life).1 (Site.rqst.actedOn Site.officer) (by decide +kernel)
    (.inr rfl)

end Dmis
