import Dmis.Eligibility

/-!
# Stale pages

A page shows the versions of the request and its package, and a post from it carries them back
(`_validate_version_nbr`, `packaging.py:31-47`). `Passed` says that a version went past the page's;
every packaging operation brings that about except the ones of `Op.Undetected`, and nothing takes it
back (`Passed.step`). So a post that commits saw everything but those (`stale_posts_rejected`).
-/

namespace Dmis

open Relational Keyed

/-! ## Posts -/

/-- The packaging operations. -/
def Op.Packaging : Op → Prop
  | .preparePackage .. | .approvePackage .. | .reviewApproval .. | .submitForDispatch .. | .cancelPackage ..
  | .cancelPreparation _ => True
  | _ => False

instance : DecidablePred Op.Packaging
  | .preparePackage .. | .approvePackage .. | .reviewApproval .. | .submitForDispatch .. | .cancelPackage ..
  | .cancelPreparation _ => .isTrue trivial
  | .createDraftRequest .. | .editItems .. | .deleteItem .. | .submitRequest .. | .submitEligibilityDecision ..
  | .markHandover .. => .isFalse id

/-- The versions a page shows: the package's is absent exactly when there is no package. -/
structure Post.Shows (page : Header) (post : Post) : Prop where
  rqst : post.rqstVersion = .num page.rqst.versionNbr
  pkg : ∀ p ∈ page.pkg, post.pkgVersion = .num p.versionNbr
  noPkg : page.pkg = none → post.pkgVersion.given = false

/-- The post comes from the page of the request. -/
def Op.PostsFrom (rqstId : Nat) (page : Header) : Op → Prop
  | .preparePackage _ r _ post | .approvePackage _ r _ post | .reviewApproval _ r _ post =>
    r = rqstId ∧ post.Shows page
  | .submitForDispatch _ pkgId version _ => ∃ p ∈ page.pkg, p.reliefpkgId = pkgId ∧ version = .num p.versionNbr
  | _ => False

/-- Operations that move no version the post is checked against: cancelling a preparation moves none;
cancelling a package takes its version away, and the prepare page then compares none; saving a draft
that carries no approval marker moves the request's only, and Workflow C looks at the package's only. -/
def Op.Undetected (post : Op) (t : Tables) (rqstId : Nat) : Op → Prop
  | .cancelPreparation r => r = rqstId
  | .cancelPackage _ pkgId =>
    match post with
    | .preparePackage .. => ∃ p ∈ t.reliefpkg.get? pkgId, p.reliefrqstId = rqstId
    | _ => False
  | .preparePackage _ r .saveDraft _ =>
    match post with
    | .submitForDispatch .. => r = rqstId ∧ ∃ p ∈ t.firstPkg rqstId, p.verifyById = none
    | _ => False
  | _ => False

/-! ## Versions move on -/

/-- What a step does to the versions of a request. -/
structure Advances (a b : Header) : Prop where
  rqst : a.rqst.versionNbr ≤ b.rqst.versionNbr
  pkg : ∀ p ∈ a.pkg, ∀ q ∈ b.pkg, q.reliefpkgId = p.reliefpkgId ∧ p.versionNbr ≤ q.versionNbr
  created : a.pkg = none → b.pkg ≠ none → a.rqst.versionNbr < b.rqst.versionNbr

section
variable {op : Op} {x rqstId : Nat} {a b page : Header} {o : Option Header}

theorem Advances.refl (a : Header) : Advances a a :=
  ⟨le_rfl, fun p hp q hq => by cases Option.mem_unique hp hq; exact ⟨rfl, le_rfl⟩, fun h h' => absurd h h'⟩

/-- The request moved on, and the package is the same one or a new one. -/
theorem Advances.of_lt (hr : a.rqst.versionNbr < b.rqst.versionNbr)
    (hp : ∀ p ∈ a.pkg, ∀ q ∈ b.pkg, q.reliefpkgId = p.reliefpkgId ∧ p.versionNbr ≤ q.versionNbr) :
    Advances a b :=
  ⟨hr.le, hp, fun _ _ => hr⟩

theorem le_unmarked (p : ReliefPkg) : p.versionNbr ≤ p.unmarked.versionNbr := by
  unfold ReliefPkg.unmarked
  split
  · exact le_rfl
  · exact Nat.le_succ _

theorem decided_versionNbr (d : Decision) (reason reviewer : String) (r : ReliefRqst) :
    (r.decided d reason reviewer).versionNbr = r.versionNbr + 1 := by
  unfold ReliefRqst.decided; split <;> rfl

theorem HeaderStep.advances (h : HeaderStep op x (some a) o) : ∃ b, o = some b ∧ Advances a b := by
  cases h with
  | editItems | deleteItem | cancelPreparation => exact ⟨_, rfl, .refl _⟩
  | submitRequest =>
    refine ⟨_, rfl, .of_lt (Nat.lt_succ_self _) fun p hp q hq => ?_⟩
    cases Option.mem_unique hp hq; exact ⟨rfl, le_rfl⟩
  | decide =>
    refine ⟨_, rfl, .of_lt (by simp [decided_versionNbr]) fun p hp q hq => ?_⟩
    cases Option.mem_unique hp hq; exact ⟨rfl, le_rfl⟩
  | saveDraft =>
    refine ⟨_, rfl, .of_lt (Nat.lt_succ_self _) ?_⟩
    rintro p rfl _ ⟨⟩
    exact ⟨unmarked_id p, le_unmarked p⟩
  | submitForApproval | sendForDispatch =>
    refine ⟨_, rfl, .of_lt (Nat.lt_succ_self _) ?_⟩
    rintro p rfl _ ⟨⟩
    exact ⟨rfl, Nat.le_succ _⟩
  | saveDraftApproval | markHandover =>
    refine ⟨_, rfl, le_rfl, ?_, fun h => by cases h⟩
    rintro p ⟨⟩ _ ⟨⟩
    exact ⟨rfl, Nat.le_succ _⟩
  | approveAndDispatch | reviewApproveAndDispatch | reviewReject | submitForDispatch =>
    refine ⟨_, rfl, .of_lt (Nat.lt_succ_self _) ?_⟩
    rintro p ⟨⟩ _ ⟨⟩
    exact ⟨rfl, Nat.le_succ _⟩
  | cancelPackage =>
    exact ⟨_, rfl, le_rfl, fun _ _ _ hq => (by cases hq), fun h => by cases h⟩

/-- A new request has no package. -/
theorem HeaderStep.pkg_eq_none (h : HeaderStep op x none (some b)) : b.pkg = none := by
  cases h; rfl

/-- A packaging operation moves one of the two versions, or takes the package's away. -/
theorem HeaderStep.moves (h : HeaderStep op x (some a) (some b)) (hp : op.Packaging)
    (hc : op ≠ .cancelPreparation x) :
    a.rqst.versionNbr < b.rqst.versionNbr ∨ ∃ p ∈ a.pkg, ∀ q ∈ b.pkg, p.versionNbr < q.versionNbr := by
  cases h with
  | editItems | deleteItem | submitRequest | decide | markHandover => cases hp
  | cancelPreparation => exact absurd rfl hc
  | saveDraftApproval =>
    refine .inr ⟨_, rfl, ?_⟩
    rintro _ ⟨⟩
    exact Nat.lt_succ_self _
  | cancelPackage => exact .inr ⟨_, rfl, fun q hq => by cases hq⟩
  | _ => exact .inl (Nat.lt_succ_self _)

/-- The package's version moves with every packaging operation but an unmarked save. -/
theorem HeaderStep.pkg_moves {r r' : ReliefRqst} {p q : ReliefPkg}
    (h : HeaderStep op x (some ⟨r, some p⟩) (some ⟨r', some q⟩)) (hp : op.Packaging)
    (hc : op ≠ .cancelPreparation x)
    (hs : ∀ ctx post, op = .preparePackage ctx x .saveDraft post → p.verifyById ≠ none) :
    p.versionNbr < q.versionNbr := by
  cases h with
  | editItems | deleteItem | submitRequest | decide | markHandover => cases hp
  | cancelPreparation => exact absurd rfl hc
  | saveDraft =>
    have := hs _ _ rfl
    simp only [Option.getD_some, ReliefPkg.unmarked, if_neg this]
    exact Nat.lt_succ_self _
  | _ => exact Nat.lt_succ_self _

/-! ## Pages of one request -/

/-- No version is behind the page's; a package the page did not show came with a later version. -/
structure Follows (page a : Header) : Prop where
  rqst : page.rqst.versionNbr ≤ a.rqst.versionNbr
  pkg : ∀ p ∈ page.pkg, page.rqst.versionNbr < a.rqst.versionNbr ∨ ∀ q ∈ a.pkg, p.versionNbr ≤ q.versionNbr
  noPkg : page.pkg = none → a.pkg = none ∨ page.rqst.versionNbr < a.rqst.versionNbr

/-- One of the page's versions was passed. -/
def Passed (page a : Header) : Prop :=
  page.rqst.versionNbr < a.rqst.versionNbr ∨ ∃ p ∈ page.pkg, ∀ q ∈ a.pkg, p.versionNbr < q.versionNbr

theorem Follows.refl (a : Header) : Follows a a :=
  ⟨le_rfl, fun p hp => .inr fun q hq => by cases Option.mem_unique hp hq; exact le_rfl, .inl⟩

theorem Follows.step (h : Follows page a) (hs : Advances a b) : Follows page b := by
  refine ⟨h.rqst.trans hs.rqst, fun p hp => ?_, fun hn => ?_⟩
  · rcases h.pkg p hp with hlt | hle
    · exact .inl (hlt.trans_le hs.rqst)
    · cases ha : a.pkg with
      | none =>
        by_cases hb : b.pkg = none
        · exact .inr fun q hq => by rw [hb] at hq; cases hq
        · exact .inl (h.rqst.trans_lt (hs.created ha hb))
      | some p' => exact .inr fun q hq => (hle p' ha).trans (hs.pkg p' ha q hq).2
  · rcases h.noPkg hn with ha | hlt
    · by_cases hb : b.pkg = none
      · exact .inl hb
      · exact .inr (h.rqst.trans_lt (hs.created ha hb))
    · exact .inr (hlt.trans_le hs.rqst)

theorem Passed.step (h : Passed page a) (hf : Follows page a) (hs : Advances a b) : Passed page b := by
  rcases h with hlt | ⟨p, hp, hq⟩
  · exact .inl (hlt.trans_le hs.rqst)
  · cases ha : a.pkg with
    | none =>
      by_cases hb : b.pkg = none
      · exact .inr ⟨p, hp, fun q hq => by rw [hb] at hq; cases hq⟩
      · exact .inl (hf.rqst.trans_lt (hs.created ha hb))
    | some p' => exact .inr ⟨p, hp, fun q hq' => (hq p' ha).trans_le (hs.pkg p' ha q hq').2⟩

/-- An operation that moves a version passes every page loaded before it. -/
theorem Follows.passed (h : Follows page a) (hs : Advances a b)
    (hm : a.rqst.versionNbr < b.rqst.versionNbr ∨ ∃ p ∈ a.pkg, ∀ q ∈ b.pkg, p.versionNbr < q.versionNbr) :
    Passed page b := by
  rcases hm with hlt | ⟨p, hp, hq⟩
  · exact .inl (h.rqst.trans_lt hlt)
  · cases hpage : page.pkg with
    | none =>
      rcases h.noPkg hpage with ha | hlt
      · rw [ha] at hp; cases hp
      · exact .inl (hlt.trans_le hs.rqst)
    | some p₀ =>
      rcases h.pkg p₀ hpage with hlt | hle
      · exact .inl (hlt.trans_le hs.rqst)
      · exact .inr ⟨p₀, hpage, fun q hq' => (hle p hp).trans_lt (hq q hq')⟩

/-- What passed the approve page's checks was not passed by another version. -/
theorem ApproveOk.not_passed {ctx : Ctx} {post : Post} {r : ReliefRqst} {p : ReliefPkg}
    (ok : ApproveOk ctx post r p) (hs : post.Shows page) : ¬ Passed page ⟨r, some p⟩ := by
  have hr := ok.fresh.rqst.symm.trans hs.rqst
  simp only [VersionField.num.injEq, Nat.cast_inj] at hr
  rintro (hlt | ⟨p₀, hp₀, hlt⟩)
  · exact absurd hr hlt.ne'
  · have hv := ok.fresh.pkg.symm.trans (hs.pkg p₀ hp₀)
    simp only [VersionField.num.injEq, Nat.cast_inj] at hv
    exact absurd hv (hlt _ rfl).ne'

/-- The prepare page compares the package's version only as long as there is a package. -/
theorem PrepareOk.not_passed {ctx : Ctx} {post : Post} {r : ReliefRqst} {p : Option ReliefPkg}
    (ok : PrepareOk ctx post r p) (hs : post.Shows page) (hgone : page.pkg ≠ none → p ≠ none) :
    ¬ Passed page ⟨r, p⟩ := by
  have hr := ok.rqst.symm.trans hs.rqst
  simp only [VersionField.num.injEq, Nat.cast_inj] at hr
  rintro (hlt | ⟨p₀, hp₀, hlt⟩)
  · exact absurd hr hlt.ne'
  · obtain ⟨q, rfl⟩ := Option.ne_none_iff_exists'.1 (hgone (by rw [hp₀]; simp))
    have hv := (ok.pkg q rfl (by rw [hs.pkg p₀ hp₀]; rfl)).symm.trans (hs.pkg p₀ hp₀)
    simp only [VersionField.num.injEq, Nat.cast_inj] at hv
    exact absurd hv (hlt q rfl).ne'

end

/-! ## Runs of one request -/

section
variable {db : Database} {op post : Op} {x y rqstId : Nat} {page : Header}

theorem Op.Targets.unique {t : Tables} (hp : op.Packaging) (hx : op.Targets t x) (hy : op.Targets t y) :
    x = y := by
  cases op with
  | createDraftRequest | editItems | deleteItem | submitRequest | submitEligibilityDecision => cases hp
  | preparePackage | approvePackage | reviewApproval | cancelPreparation => exact hx.symm.trans hy
  | markHandover => cases hp
  | submitForDispatch | cancelPackage =>
    obtain ⟨p, hp, rfl⟩ := hx
    obtain ⟨q, hq, rfl⟩ := hy
    rw [Option.mem_unique hp hq]

/-- A committed packaging operation takes its request one step. -/
theorem commits_target (hu : UniquePkg db.tables) (hc : Commits db op) (hp : op.Packaging)
    (hT : op.Targets db.tables rqstId) :
    HeaderStep op rqstId (db.tables.header rqstId) ((step db op).tables.header rqstId) := by
  obtain ⟨-, x, hs, -⟩ := commits_header hu hc
  rwa [Op.Targets.unique hp hT (hs.targets rfl)]

/-- Every step lets every request advance. -/
theorem step_advances (hu : UniquePkg db.tables) (op : Op) {a : Header} (ha : db.tables.header rqstId = some a) :
    ∃ b, (step db op).tables.header rqstId = some b ∧ Advances a b := by
  rcases (step_header hu op).2 with he | ⟨x, hs, hother⟩
  · exact ⟨a, by rw [he, ha], .refl a⟩
  · by_cases hx : rqstId = x
    · subst hx
      rw [ha] at hs
      exact hs.advances
    · exact ⟨a, by rw [hother rqstId hx, ha], .refl a⟩

/-- The post is one of the prepare page. -/
def Op.Prepares : Op → Prop
  | .preparePackage .. => True
  | _ => False

/-- The state of a request since a page was loaded: for a post of the prepare page, the package the page
showed is still there. -/
def Since (rqstId : Nat) (page : Header) (post : Op) (db : Database) : Prop :=
  UniquePkg db.tables ∧ ∃ a, db.tables.header rqstId = some a ∧ Follows page a ∧
    (post.Prepares → page.pkg ≠ none → a.pkg ≠ none)

/-- The operation is no undetected one for the post. -/
def Detected (rqstId : Nat) (post : Op) (db : Database) (op : Op) : Prop :=
  Commits db op → ¬ post.Undetected db.tables rqstId op

theorem HeaderStep.keeps_pkg {a b : Header} (h : HeaderStep op x (some a) (some b)) (ha : a.pkg ≠ none)
    (hc : ∀ ctx, ∀ p ∈ a.pkg, op ≠ .cancelPackage ctx p.reliefpkgId) : b.pkg ≠ none := by
  cases h with
  | cancelPackage => exact absurd rfl (hc _ _ rfl)
  | editItems | deleteItem | submitRequest | decide | cancelPreparation => exact ha
  | _ => simp

theorem since_step (h : Since rqstId page post db) (hd : Detected rqstId post db op) :
    Since rqstId page post (step db op) := by
  obtain ⟨hu, a, ha, hf, hg⟩ := h
  obtain ⟨b, hb, hadv⟩ := step_advances hu op ha
  refine ⟨(step_header hu op).1, b, hb, hf.step hadv, fun hpost hpage => ?_⟩
  have hap := hg hpost hpage
  by_cases hc : Commits db op
  · obtain ⟨-, y, hs, hother⟩ := commits_header hu hc
    by_cases hy : rqstId = y
    · subst hy
      rw [ha, hb] at hs
      refine hs.keeps_pkg hap fun ctx p hp he => hd hc ?_
      subst he
      have hfirst : db.tables.firstPkg rqstId = some p := (header_eq_some.1 ha).2.trans hp
      cases post with
      | preparePackage => exact ⟨p, get?_of_firstPkg hfirst, (mem_of_firstPkg hfirst).2⟩
      | _ => exact hpost.elim
    · rw [hother rqstId hy, ha] at hb
      cases hb; exact hap
  · rw [step_of_not_commits hc, ha] at hb
    cases hb; exact hap

/-- A packaging operation on the request. -/
def PackagingOn (rqstId : Nat) (db : Database) (op : Op) : Prop :=
  Commits db op ∧ op.Packaging ∧ op.Targets db.tables rqstId

instance : Decidable (PackagingOn rqstId db op) := by unfold PackagingOn; infer_instance

theorem passed_of_packaging (h : Since rqstId page post db) (hd : Detected rqstId post db op)
    (hE : PackagingOn rqstId db op) : ∀ b, (step db op).tables.header rqstId = some b → Passed page b := by
  intro b hb
  obtain ⟨hu, a, ha, hf, -⟩ := h
  obtain ⟨hc, hp, hT⟩ := hE
  have hs := commits_target hu hc hp hT
  rw [ha, hb] at hs
  obtain ⟨_, e, hadv⟩ := hs.advances
  cases e
  refine hf.passed hadv (hs.moves hp fun he => hd hc ?_)
  subst he; exact rfl

theorem passed_step (h : Since rqstId page post db)
    (hp : ∀ a, db.tables.header rqstId = some a → Passed page a) :
    ∀ b, (step db op).tables.header rqstId = some b → Passed page b := by
  intro b hb
  obtain ⟨hu, a, ha, hf, -⟩ := h
  obtain ⟨b', hb', hadv⟩ := step_advances hu op ha
  rw [hb] at hb'
  cases hb'
  exact (hp a ha).step hf hadv

/-- A page post that commits was not passed. -/
theorem not_passed_of_commits (h : Since rqstId page post db) (hpost : post.PostsFrom rqstId page)
    (hw : ∀ ctx pkgId v f, post ≠ .submitForDispatch ctx pkgId v f) (hc : Commits db post) :
    ∃ a, db.tables.header rqstId = some a ∧ ¬ Passed page a := by
  obtain ⟨hu, a, ha, -, hg⟩ := h
  refine ⟨a, ha, ?_⟩
  have hT : post.Packaging ∧ post.Targets db.tables rqstId := by
    cases post with
    | preparePackage | approvePackage | reviewApproval => exact ⟨trivial, hpost.1⟩
    | submitForDispatch => exact absurd rfl (hw _ _ _ _)
    | _ => exact hpost.elim
  have hs := commits_target hu hc hT.1 hT.2
  rw [ha] at hs
  generalize (step db post).tables.header rqstId = b at hs
  cases hs with
  | editItems | deleteItem | submitRequest | decide | cancelPackage | cancelPreparation | markHandover =>
    exact hpost.elim
  | saveDraft ok | submitForApproval ok | sendForDispatch ok => exact ok.not_passed hpost.2 (hg trivial)
  | saveDraftApproval ok | approveAndDispatch ok | reviewApproveAndDispatch ok | reviewReject ok =>
    exact ok.not_passed hpost.2
  | submitForDispatch => exact absurd rfl (hw _ _ _ _)

/-! ## Runs of one package -/

/-- The state of a package since a page was loaded that showed it with version `n`: if there is a package
of this id, it is the request's, and at least as new. -/
structure SincePkg (rqstId pkgId n : Nat) (db : Database) : Prop where
  unique : UniquePkg db.tables
  issued : pkgId < db.tables.nextReliefpkgId
  pkg : ∀ q ∈ db.tables.reliefpkg.rows, q.reliefpkgId = pkgId → q.reliefrqstId = rqstId ∧ n ≤ q.versionNbr

/-- Every package of this id is newer than version `n`. -/
def PkgPassed (pkgId n : Nat) (db : Database) : Prop :=
  ∀ q ∈ db.tables.reliefpkg.rows, q.reliefpkgId = pkgId → n < q.versionNbr

theorem step_freshIds (db : Database) (op : Op) : FreshIds db.tables (step db op).tables := by
  refine step_cases (P := fun d => FreshIds db.tables d.tables) (.of_subset rfl fun _ h => h)
    fun db' t ht _ he => ?_
  rw [he]
  exact (route_freshIds ht : FreshIds db.tables t)

/-- A package after a step was there before the step, no newer, or its id was drawn from the sequence. -/
theorem step_pkgs (hu : UniquePkg db.tables) {q : ReliefPkg} (hq : q ∈ (step db op).tables.reliefpkg.rows) :
    (∃ p ∈ db.tables.reliefpkg.rows, p.reliefpkgId = q.reliefpkgId ∧ p.reliefrqstId = q.reliefrqstId ∧
      p.versionNbr ≤ q.versionNbr) ∨ db.tables.nextReliefpkgId ≤ q.reliefpkgId := by
  obtain ⟨hu', hstep⟩ := step_header hu op
  rcases hstep with he | ⟨x, hs, hother⟩
  · rw [he] at hq
    exact .inl ⟨q, hq, rfl, rfl, le_rfl⟩
  obtain ⟨r, hb⟩ := header_of_pkg hu' (step db op).consistent hq
  by_cases hx : q.reliefrqstId = x
  · subst hx
    rw [hb] at hs
    cases ha : db.tables.header q.reliefrqstId with
    | none =>
      rw [ha] at hs
      cases hs.pkg_eq_none
    | some a =>
      rw [ha] at hs
      obtain ⟨_, e, hadv⟩ := hs.advances
      cases e
      obtain ⟨ra, _ | p⟩ := a
      · rcases (step_freshIds db op).2 q.reliefpkgId (List.mem_map.2 ⟨q, hq, rfl⟩) with hk | hk
        · -- the id would be that of another request's package, which is still there
          obtain ⟨p, hp, hpk⟩ := List.mem_map.1 hk
          obtain ⟨r', hh⟩ := header_of_pkg hu db.consistent hp
          have hne : p.reliefrqstId ≠ q.reliefrqstId := fun e => by
            rw [e, ha] at hh
            cases hh
          rw [← hother p.reliefrqstId hne] at hh
          have := List.inj_on_of_nodup_map (step db op).tables.reliefpkg.nodup (mem_of_header hh).1 hq hpk
          exact absurd (congrArg ReliefPkg.reliefrqstId this) hne
        · exact .inr hk.1.ge
      · obtain ⟨hm, hpr⟩ := mem_of_header ha
        obtain ⟨hid, hv⟩ := hadv.pkg p rfl q rfl
        exact .inl ⟨p, hm, hid.symm, hpr, hv⟩
  · rw [hother _ hx] at hb
    exact .inl ⟨q, (mem_of_header hb).1, rfl, rfl, le_rfl⟩

variable {pkgId n : Nat}

theorem sincePkg_step (h : SincePkg rqstId pkgId n db) : SincePkg rqstId pkgId n (step db op) := by
  refine ⟨(step_header h.unique op).1, h.issued.trans_le (step_freshIds _ _).1, fun q hq hid => ?_⟩
  rcases step_pkgs h.unique hq with ⟨p, hp, hpid, hpr, hv⟩ | hnew
  · obtain ⟨hr, hn⟩ := h.pkg p hp (hpid.trans hid)
    exact ⟨hpr ▸ hr, hn.trans hv⟩
  · exact absurd h.issued (by rw [← hid]; exact hnew.not_gt)

theorem pkgPassed_step (h : SincePkg rqstId pkgId n db) (hp : PkgPassed pkgId n db) :
    PkgPassed pkgId n (step db op) := by
  intro q hq hid
  rcases step_pkgs h.unique hq with ⟨p, hpm, hpid, -, hv⟩ | hnew
  · exact (hp p hpm (hpid.trans hid)).trans_le hv
  · exact absurd h.issued (by rw [← hid]; exact hnew.not_gt)

theorem pkgPassed_of_packaging {ctx : Ctx} {v : VersionField} {f : PlanField}
    (h : SincePkg rqstId pkgId n db) (hd : Detected rqstId (.submitForDispatch ctx pkgId v f) db op)
    (hE : PackagingOn rqstId db op) : PkgPassed pkgId n (step db op) := by
  intro q hq hid
  rcases step_pkgs h.unique hq with ⟨p, hp, hpid, hpr, -⟩ | hnew
  · obtain ⟨hr, hn⟩ := h.pkg p hp (hpid.trans hid)
    obtain ⟨hc, hpack, hT⟩ := hE
    have hs := commits_target h.unique hc hpack hT
    have hu' := (step_header h.unique op).1
    obtain ⟨r, ha⟩ := header_of_pkg h.unique db.consistent hp
    obtain ⟨r', hb⟩ := header_of_pkg hu' (step db op).consistent hq
    rw [hr] at ha
    rw [← hpr, hr] at hb
    rw [ha, hb] at hs
    refine hn.trans_lt (hs.pkg_moves hpack (fun he => hd hc ?_) fun ctx post he hv => hd hc ?_)
    · subst he; exact rfl
    · subst he; exact ⟨rfl, p, (header_eq_some.1 ha).2, hv⟩
  · exact absurd h.issued (by rw [← hid]; exact hnew.not_gt)

/-- A committed dispatch of Workflow C was posted with the package's version. -/
theorem not_pkgPassed_of_commits {ctx : Ctx} {f : PlanField} (hu : UniquePkg db.tables)
    (hc : Commits db (.submitForDispatch ctx pkgId (.num n) f)) : ¬ PkgPassed pkgId n db := by
  obtain ⟨-, x, hs, -⟩ := commits_header hu hc
  generalize ha : db.tables.header x = a at hs
  generalize (step db _).tables.header x = b at hs
  cases hs with
  | submitForDispatch _ _ fresh =>
    intro hp
    obtain ⟨hm, -⟩ := mem_of_firstPkg (header_eq_some.1 ha).2
    have hv := hp _ hm rfl
    simp only [VersionField.num.injEq, Nat.cast_inj] at fresh
    exact absurd fresh hv.ne

/-! ## Posts from a loaded page -/

/-- Every package id was drawn from the sequence. -/
def IssuedIds (db : Database) : Prop := ∀ id ∈ db.tables.reliefpkg.keys, id < db.tables.nextReliefpkgId

theorem issuedIds_step (h : IssuedIds db) : IssuedIds (step db op) := by
  obtain ⟨hle, hids⟩ := step_freshIds db op
  intro id hid
  rcases hids id hid with hk | ⟨rfl, hlt⟩
  · exact (h id hk).trans_le hle
  · exact hlt

/-- If the post commits, no packaging operation on the request committed since its page was loaded. -/
def SeesAll (rqstId : Nat) (loaded : Database) (between : List Op) (post : Op) : Prop :=
  Commits (run step loaded between) post → count step (PackagingOn rqstId) loaded between = 0

theorem page_seesAll {loaded : Database} {between : List Op} (hu : UniquePkg loaded.tables)
    (hpage : loaded.tables.header rqstId = some page) (hpost : post.PostsFrom rqstId page)
    (hw : ∀ ctx pkgId v f, post ≠ .submitForDispatch ctx pkgId v f)
    (hd : Along step (Detected rqstId post) loaded between) : SeesAll rqstId loaded between post := by
  intro hc
  have hsince : Since rqstId page post loaded := ⟨hu, page, hpage, .refl page, fun _ h => h⟩
  have hinv : ∀ s i, Since rqstId page post s → Detected rqstId post s i → Since rqstId page post (step s i) :=
    fun _ _ => since_step
  refine (count_eq_zero_or (I := Since rqstId page post)
    (D := fun s => ∀ a, s.tables.header rqstId = some a → Passed page a) hinv (fun _ _ => passed_of_packaging)
    (fun _ _ h hp _ => passed_step h hp) hsince hd).resolve_right fun hp => ?_
  obtain ⟨a, ha, hn⟩ := not_passed_of_commits (Along.invariant hinv hsince hd) hpost hw hc
  exact hn (hp a ha)

theorem dispatch_seesAll {loaded : Database} {between : List Op} {p : ReliefPkg} {ctx : Ctx} {f : PlanField}
    (hu : UniquePkg loaded.tables) (hid : IssuedIds loaded) (hp : loaded.tables.firstPkg rqstId = some p)
    (hd : Along step (Detected rqstId (.submitForDispatch ctx p.reliefpkgId (.num p.versionNbr) f)) loaded between) :
    SeesAll rqstId loaded between (.submitForDispatch ctx p.reliefpkgId (.num p.versionNbr) f) := by
  intro hc
  obtain ⟨hm, hr⟩ := mem_of_firstPkg hp
  have hsince : SincePkg rqstId p.reliefpkgId p.versionNbr loaded := by
    refine ⟨hu, hid _ (List.mem_map.2 ⟨p, hm, rfl⟩), fun q hq hqp => ?_⟩
    cases List.inj_on_of_nodup_map loaded.tables.reliefpkg.nodup hq hm hqp
    exact ⟨hr, le_rfl⟩
  refine (count_eq_zero_or (I := SincePkg rqstId p.reliefpkgId p.versionNbr)
    (D := PkgPassed p.reliefpkgId p.versionNbr) (fun _ _ h _ => sincePkg_step h)
    (fun _ _ => pkgPassed_of_packaging) (fun _ _ h hp _ => pkgPassed_step h hp) hsince hd).resolve_right
    (not_pkgPassed_of_commits ?_ hc)
  exact (run_invariant (I := fun s : Database => UniquePkg s.tables) (fun _ op h => (step_header h op).1) hu between)

end

theorem Reachable.issuedIds {db : Database} (h : Reachable db) : IssuedIds db := by
  induction h with
  | initial h0 =>
    intro id hid
    simp [Table.keys, h0] at hid
  | step _ op ih => exact issuedIds_step ih

/-- **Posts that commit saw everything but the undetected operations**, from any page of any reachable
state. -/
theorem stale_posts_rejected (loaded : Database) (hreach : Reachable loaded) (rqstId : Nat) (page : Header)
    (post : Op) (between : List Op) (hpage : loaded.tables.header rqstId = some page)
    (hpost : post.PostsFrom rqstId page) (hd : Along step (Detected rqstId post) loaded between) :
    SeesAll rqstId loaded between post := by
  cases post with
  | submitForDispatch ctx pkgId v f =>
    obtain ⟨p, hp, rfl, rfl⟩ := hpost
    exact dispatch_seesAll hreach.unique hreach.issuedIds ((header_eq_some.1 hpage).2.trans hp) hd
  | _ => exact page_seesAll hreach.unique hpage hpost (fun _ _ _ _ h => by cases h) hd

/-- The site once a draft was saved, and the page that shows it. -/
def Site.drafted : Database := step db (.preparePackage officer 1 .saveDraft (post 3 .absent 2))

def Site.page : Header := ⟨rqst.actedOn officer, some (newPkg officer rqst 1)⟩

theorem Site.page_loaded : drafted.tables.header 1 = some page := by decide +kernel

/-- A post from that page. -/
def Site.fromPage (q : ℚ) : Post := post 4 (.num 1) q

theorem Site.fromPage_shows (q : ℚ) : (fromPage q).Shows page :=
  ⟨rfl, fun p hp => by cases hp; rfl, fun h => by cases h⟩

/-- The second post from the page of a saved draft is rejected once the first has committed. -/
theorem stale_posts_rejected_site :
    ¬ Commits (run step Site.drafted [.preparePackage Site.officer 1 .saveDraft (Site.fromPage 3)])
      (.preparePackage Site.manager 1 .sendForDispatch (Site.fromPage 5)) := by
  intro hc
  have h := stale_posts_rejected Site.drafted (.step (.initial rfl) _) 1 Site.page
    (.preparePackage Site.manager 1 .sendForDispatch (Site.fromPage 5))
    [.preparePackage Site.officer 1 .saveDraft (Site.fromPage 3)] Site.page_loaded
    ⟨rfl, Site.fromPage_shows 5⟩ ⟨fun _ h => h, trivial⟩ hc
  revert h
  decide +kernel

/-- The preparation was cancelled after the page was loaded, the package was, or (seen by Workflow C) the
draft was saved again: the post commits all the same. -/
theorem stale_posts_accepted :
    Site.drafted.tables.header 1 = some Site.page ∧
    Op.PostsFrom 1 Site.page (.preparePackage Site.officer 1 .saveDraft (Site.fromPage 3)) ∧
    Op.PostsFrom 1 Site.page (.submitForDispatch Site.manager 1 (.num 1) .absent) ∧
    ¬ SeesAll 1 Site.drafted [.cancelPreparation 1]
      (.preparePackage Site.officer 1 .saveDraft (Site.fromPage 3)) ∧
    ¬ SeesAll 1 Site.drafted [.cancelPackage Site.manager 1]
      (.preparePackage Site.officer 1 .saveDraft (Site.fromPage 3)) ∧
    ¬ SeesAll 1 Site.drafted [.preparePackage Site.officer 1 .saveDraft (Site.fromPage 1)]
      (.submitForDispatch Site.manager 1 (.num 1) .absent) := by
  unfold SeesAll
  refine ⟨Site.page_loaded, ⟨rfl, Site.fromPage_shows 3⟩, ⟨_, rfl, rfl, rfl⟩, ?_, ?_, ?_⟩ <;> decide +kernel

end Dmis
