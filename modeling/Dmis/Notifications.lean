import Dmis.Submitted
import Dmis.Users
import Dmis.Lib.Greedy

/-!
# Notifications of a submission

`_submit_for_approval` (`packaging.py:1570-1700`) tells the Logistics Managers of a package that waits for them, if the
submission is a new one (`:1658-1682`). What it takes for a resubmission is any package with status `P`, and that is
the status of a draft as well.

| here | there |
| --- | --- |
| `getActiveUsersByRoleCodes` | `get_active_users_by_role_codes` (`notification_service.py:42-60`) |
| `createPackageReadyForApproval` | `create_package_ready_for_approval_notification` (`:251-288`) |
| `submitAndNotify` | `_submit_for_approval` |

`managers_hear_once`: over a whole run, the managers hear of every package at its first submission exactly when no draft
is submitted. The other routes create notifications of other types, which are left out.
-/

namespace Dmis

open Relational Keyed

/-! ## Notifications -/

/-- The constants of `NotificationService`, and two types that are written out where they are used. -/
inductive NotificationType where
  | reliefrqstSubmitted | reliefrqstApproved | reliefrqstDenied
  | packageReadyForApproval | packageApproved | packageDispatched | packageReceived
  | lowStock
  | packageHandover | reliefrqstClosed
  deriving DecidableEq, Repr

structure Notification where
  userId : Nat
  title : String
  message : String
  type : NotificationType
  linkUrl : String
  reliefrqstId : Option Nat
  deriving DecidableEq, Repr

/-- `Role.users`. -/
def UserStore.usersOf (s : UserStore) (roleId : Nat) : List User :=
  s.user.select fun u => (u.userId, roleId) ∈ s.userRole.keys

/-- A user with several of the roles is there once. -/
def getActiveUsersByRoleCodes (s : UserStore) (roleCodes : List String) : List User :=
  let roles := s.role.select fun r => r.code ∈ roleCodes
  let users := roles.flatMap fun r => (s.usersOf r.id).filter fun u => u.isActive
  lastOfEach User.userId users

/-- `RR-000042`. -/
def trackingNo (rqstId : Nat) : String := "RR-" ++ String.ofList (List.leftpad 6 '0' (toString rqstId).toList)

def createPackageReadyForApproval (rqstId : Nat) (agencyName : Option String) (recipients : List User)
    (preparerName : String) : List Notification :=
  recipients.map fun u =>
    { userId := u.userId
      title := "Package Ready for Your Approval"
      message := preparerName ++ " prepared fulfillment package for " ++ trackingNo rqstId ++ " from " ++
        agencyName.getD "Unknown" ++ ". Click to review and approve."
      type := .packageReadyForApproval
      linkUrl := "/packaging/" ++ toString rqstId ++ "/approve"
      reliefrqstId := some rqstId }

/-! ## Posts -/

/-- A post, and what the database has on users and agencies when it comes. -/
structure Posting where
  op : Op
  users : UserStore
  displayName : String
  agencyName : Nat → Option String

/-- `_submit_for_approval`, with what it creates. -/
def submitAndNotify (p : Posting) (ctx : Ctx) (r : ReliefRqst) (post : Post) (t : Tables) :
    Except Err (Tables × List Notification) := do
  let wasAlreadyPending : Prop := ∃ e ∈ t.firstPkg r.reliefrqstId, e.statusCode = .pending
  let t' ← submitForApproval ctx r post t
  let lmUsers := getActiveUsersByRoleCodes p.users ["LOGISTICS_MANAGER"]
  pure (t', if wasAlreadyPending then [] else
    createPackageReadyForApproval r.reliefrqstId (p.agencyName r.agencyId) lmUsers p.displayName)

def Posting.route (p : Posting) (t : Tables) : Except Err (Tables × List Notification) :=
  match p.op with
  | .preparePackage ctx rqstId .submitForApproval post => do
    let r ← prepareGate ctx rqstId t
    submitAndNotify p ctx r post t
  | op => do
    let t' ← op.route t
    pure (t', [])

/-- The tables and `notification`, the oldest first. -/
structure Notified where
  db : Database
  notification : List Notification

def Notified.exec (p : Posting) (s : Notified) : Except Err Notified := do
  let (t, created) ← p.route s.db.tables
  let db ← commit t
  pure ⟨db, s.notification ++ created⟩

/-- One post: committed, or rolled back. -/
def notifyStep (s : Notified) (p : Posting) : Notified :=
  match s.exec p with
  | .ok s' => s'
  | .error _ => s

/-! ## The rule -/

/-- An active user with the role. -/
def UserStore.IsActiveManager (s : UserStore) (userId : Nat) : Prop :=
  ∃ u ∈ s.user.get? userId, u.isActive ∧ "LOGISTICS_MANAGER" ∈ s.roleCodes userId

instance (s : UserStore) : DecidablePred s.IsActiveManager := fun userId => by
  unfold UserStore.IsActiveManager
  infer_instance

/-- Each active manager has one of `created`, nobody else has any, and all are of this request. -/
structure ManagersHear (users : UserStore) (rqstId : Nat) (created : List Notification) : Prop where
  once : ∀ userId, ((created.filter fun n => n.type = .packageReadyForApproval).map Notification.userId).count userId =
    if users.IsActiveManager userId then 1 else 0
  rqst : ∀ n ∈ created, n.type = .packageReadyForApproval → n.reliefrqstId = some rqstId

def SubmittedIn (pkgId : Nat) (s : Notified) : Prop := ∃ q ∈ s.db.tables.reliefpkg.get? pkgId, Submitted q

/-- In some state of the run. -/
def EverSubmitted (s₀ : Notified) (ps : List Posting) (pkgId : Nat) : Prop :=
  ∃ ps', ps' <+: ps ∧ SubmittedIn pkgId (run notifyStep s₀ ps')

/-- What `p` creates. -/
def createdBy (s : Notified) (p : Posting) : List Notification := (notifyStep s p).notification.drop s.notification.length

/-- The post `p`, at the end of a run, tells every manager once of a package that it submits for the first time, and
nobody of one that is submitted again while it is pending. -/
structure HearOnce (s₀ : Notified) (ps : List Posting) (p : Posting) : Prop where
  first : ∀ pkgId, ¬ EverSubmitted s₀ ps pkgId →
    ∀ q ∈ (notifyStep (run notifyStep s₀ ps) p).db.tables.reliefpkg.get? pkgId, Submitted q →
      ManagersHear p.users q.reliefrqstId (createdBy (run notifyStep s₀ ps) p)
  again : ∀ ctx rqstId post, p.op = .preparePackage ctx rqstId .submitForApproval post →
    ∀ q ∈ (run notifyStep s₀ ps).db.tables.firstPkg rqstId, q.statusCode = .pending → EverSubmitted s₀ ps q.reliefpkgId →
      createdBy (run notifyStep s₀ ps) p = []

/-- The post is no accepted submission of a draft, a pending package that was never submitted, or nobody is there to hear
of it. -/
def NoDraftSubmitted (s₀ : Notified) (ps : List Posting) (p : Posting) : Prop :=
  ∀ ctx rqstId post, p.op = .preparePackage ctx rqstId .submitForApproval post →
    Commits (run notifyStep s₀ ps).db p.op → (∃ userId, p.users.IsActiveManager userId) →
      ∀ q ∈ (run notifyStep s₀ ps).db.tables.firstPkg rqstId, q.statusCode = .pending → EverSubmitted s₀ ps q.reliefpkgId

/-! ## Recipients -/

/-- The recipients have the ids of the active users with the role, each once. -/
theorem recipients_ids (s : UserStore) (code : String) :
    ((getActiveUsersByRoleCodes s [code]).map User.userId).Nodup ∧
    ∀ userId, userId ∈ (getActiveUsersByRoleCodes s [code]).map User.userId ↔
      ∃ u ∈ s.user.get? userId, u.isActive ∧ code ∈ s.roleCodes userId := by
  obtain ⟨hn, hk⟩ := keys_lastOfEach User.userId
    ((s.role.select fun r => r.code ∈ [code]).flatMap fun r => (s.usersOf r.id).filter fun u => u.isActive)
  refine ⟨hn, fun userId => (hk userId).trans ?_⟩
  simp only [UserStore.usersOf, Table.select, List.mem_map, List.mem_flatMap, List.mem_filter, List.mem_singleton,
    decide_eq_true_eq]
  constructor
  · rintro ⟨u, ⟨r, ⟨hr, rfl⟩, ⟨hu, hrole⟩, hactive⟩, rfl⟩
    exact ⟨u, Table.get?_key hu, hactive, mem_roleCodes.2 ⟨r, hr, rfl, hrole⟩⟩
  · rintro ⟨u, hu, hactive, hcode⟩
    obtain ⟨r, hr, rfl, hrole⟩ := mem_roleCodes.1 hcode
    have hid : u.userId = userId := Table.key_of_get? hu
    exact ⟨u, ⟨r, ⟨hr, rfl⟩, ⟨Table.mem_of_get? hu, hid ▸ hrole⟩, hactive⟩, hid⟩

/-- Notifications of the recipients are what the managers should hear. -/
theorem managersHear_created (users : UserStore) (rqstId : Nat) (agencyName : Option String) (preparerName : String) :
    ManagersHear users rqstId (createPackageReadyForApproval rqstId agencyName
      (getActiveUsersByRoleCodes users ["LOGISTICS_MANAGER"]) preparerName) := by
  obtain ⟨hn, hk⟩ := recipients_ids users "LOGISTICS_MANAGER"
  have hids : ∀ l : List User, ((createPackageReadyForApproval rqstId agencyName l preparerName).filter fun n =>
      n.type = .packageReadyForApproval).map Notification.userId = l.map User.userId := fun l => by
    rw [List.filter_eq_self.2 fun n hm => ?_]
    · rw [createPackageReadyForApproval, List.map_map]
      rfl
    · obtain ⟨u, -, rfl⟩ := List.mem_map.1 hm
      rfl
  refine ⟨fun userId => ?_, fun n hm _ => ?_⟩
  · rw [hids]
    split_ifs with h
    · exact List.count_eq_one_of_mem hn ((hk userId).2 h)
    · exact List.count_eq_zero_of_not_mem fun hm => h ((hk userId).1 hm)
  · obtain ⟨u, -, rfl⟩ := List.mem_map.1 hm
    rfl

/-- Where nobody is to hear, nothing is to be created. -/
theorem managersHear_nil {users : UserStore} {rqstId : Nat} :
    ManagersHear users rqstId [] ↔ ∀ userId, ¬ users.IsActiveManager userId := by
  refine ⟨fun h userId hm => ?_, fun h => ⟨fun userId => (if_neg (h userId)).symm, by simp⟩⟩
  have hone := h.once userId
  rw [if_pos hm] at hone
  cases hone

/-! ## One post -/

/-- What a post creates, if it is accepted. -/
def Posting.creates (p : Posting) (t : Tables) : List Notification :=
  match p.op with
  | .preparePackage _ rqstId .submitForApproval _ =>
    if ∃ e ∈ t.firstPkg rqstId, e.statusCode = .pending then [] else
      createPackageReadyForApproval rqstId ((t.reliefrqst.get? rqstId).bind fun r => p.agencyName r.agencyId)
        (getActiveUsersByRoleCodes p.users ["LOGISTICS_MANAGER"]) p.displayName
  | _ => []

section
variable {s s₀ : Notified} {p : Posting} {ps : List Posting} {ctx : Ctx} {rqstId pkgId : Nat} {post : Post} {q : ReliefPkg}

theorem Posting.route_eq (p : Posting) (t : Tables) :
    p.route t = (p.op.route t).map fun t' => (t', p.creates t) := by
  unfold Posting.route Posting.creates
  split
  · rename_i ctx rqstId post hop
    rw [hop]
    cases hgate : prepareGate ctx rqstId t with
    | error e => simp [Op.route, preparePackage, hgate, bind, Except.bind, Except.map]
    | ok r =>
      have hr : t.reliefrqst.get? rqstId = some r := by
        simp only [prepareGate, bind_ok, require_ok, check_ok, pure_ok] at hgate
        obtain ⟨-, -, r', hr', -, -, rfl⟩ := hgate
        exact hr'
      have hid : r.reliefrqstId = rqstId := Table.key_of_get? hr
      simp only [Op.route, preparePackage, hgate, submitAndNotify, hr, hid, Option.bind_some, bind, Except.bind]
      cases submitForApproval ctx r post t with
      | error e => rfl
      | ok t' => rfl
  · rename_i hop
    cases p.op.route t with
    | error e => rfl
    | ok t' => rfl

/-- **A post** either is committed and creates its notifications, or does nothing. -/
theorem notifyStep_eq (s : Notified) (p : Posting) :
    notifyStep s p = if Commits s.db p.op then ⟨step s.db p.op, s.notification ++ p.creates s.db.tables⟩ else s := by
  have hexec : s.exec p = (s.db.exec p.op.route).map fun db => ⟨db, s.notification ++ p.creates s.db.tables⟩ := by
    unfold Notified.exec Database.exec
    rw [Posting.route_eq]
    cases p.op.route s.db.tables with
    | error e => rfl
    | ok t =>
      simp only [Except.map, bind, Except.bind]
      cases commit t with
      | error e => rfl
      | ok db => rfl
  unfold notifyStep
  rw [hexec]
  cases h : s.db.exec p.op.route with
  | error e =>
    rw [if_neg (fun ⟨db, hdb⟩ => by rw [h] at hdb; cases hdb)]
    rfl
  | ok db =>
    rw [if_pos ⟨db, h⟩]
    simp only [Except.map, step, Database.after, h]

theorem notifyStep_db (s : Notified) (p : Posting) : (notifyStep s p).db = step s.db p.op := by
  rw [notifyStep_eq]
  split_ifs with h
  · rfl
  · exact (step_of_not_commits h).symm

theorem createdBy_eq (s : Notified) (p : Posting) :
    createdBy s p = if Commits s.db p.op then p.creates s.db.tables else [] := by
  unfold createdBy
  rw [notifyStep_eq]
  split_ifs with h
  · exact List.drop_left
  · exact List.drop_length

/-- A run of posts is one of operations. -/
theorem run_notifyStep (s : Notified) : ∀ ps : List Posting, (run notifyStep s ps).db = run step s.db (ps.map Posting.op)
  | [] => rfl
  | p :: ps => by
    rw [run_cons, run_notifyStep, notifyStep_db]
    rfl

/-! ## First submissions -/

/-- Only a submission makes a package submitted. -/
theorem HeaderStep.newly_submitted {op : Op} {x : Nat} {a : Option Header} {r : ReliefRqst}
    (h : HeaderStep op x a (some ⟨r, some q⟩)) (hq : Submitted q)
    (hnot : ∀ e ∈ a.bind Header.pkg, e.reliefpkgId = q.reliefpkgId → ¬ Submitted e) :
    (∃ ctx post, op = .preparePackage ctx x .submitForApproval post) ∧
      ∀ e ∈ a.bind Header.pkg, e.reliefpkgId = q.reliefpkgId := by
  cases h with
  | submitForApproval => exact ⟨⟨_, _, rfl⟩, fun e he => by cases he; rfl⟩
  | saveDraft =>
    have hunmarked : ∀ e : ReliefPkg, e.unmarked.verifyById = none := fun e => by
      unfold ReliefPkg.unmarked
      split_ifs with h
      · exact h
      · rfl
    rw [Submitted, hunmarked] at hq
    cases hq.2
  | sendForDispatch | approveAndDispatch | reviewApproveAndDispatch | submitForDispatch => cases hq.1
  | saveDraftApproval ok => exact absurd ⟨ok.pending, hq.2⟩ (hnot _ rfl rfl)
  | reviewReject => cases hq.2
  | markHandover _ status => exact absurd ⟨hq.1, hq.2⟩ (hnot _ rfl rfl)
  | _ => exact absurd hq (hnot _ rfl rfl)

theorem newly_submitted {db : Database} {op : Op} (hu : UniquePkg db.tables)
    (hq : (step db op).tables.reliefpkg.get? pkgId = some q) (hs : Submitted q)
    (hnot : ∀ e ∈ db.tables.reliefpkg.get? pkgId, ¬ Submitted e) :
    Commits db op ∧ (∃ ctx post, op = .preparePackage ctx q.reliefrqstId .submitForApproval post) ∧
      ∀ e ∈ db.tables.firstPkg q.reliefrqstId, e.reliefpkgId = pkgId := by
  have hc : Commits db op := by
    by_contra hno
    rw [step_of_not_commits hno] at hq
    exact hnot q hq hs
  obtain ⟨hu', x, hstep, hother⟩ := commits_header hu hc
  have hid : q.reliefpkgId = pkgId := Table.key_of_get? hq
  have hpkg : ∀ y e, e ∈ (db.tables.header y).bind Header.pkg ↔ e ∈ db.tables.firstPkg y := fun y e => by
    constructor
    · intro he
      obtain ⟨h, hh, he⟩ := Option.bind_eq_some_iff.1 he
      rw [(header_eq_some.1 hh).2]
      exact he
    · intro he
      obtain ⟨hm, rfl⟩ := mem_of_firstPkg he
      obtain ⟨r, hr⟩ := header_of_pkg hu db.consistent hm
      rw [hr]
      rfl
  obtain ⟨r, hr⟩ := header_of_pkg hu' (step db op).consistent (Table.mem_of_get? hq)
  have hfresh : ∀ y, ∀ e ∈ (db.tables.header y).bind Header.pkg, e.reliefpkgId = q.reliefpkgId → ¬ Submitted e :=
    fun y e he hide => hnot e (hid ▸ hide ▸ get?_of_firstPkg ((hpkg y e).1 he))
  by_cases hx : q.reliefrqstId = x
  · subst hx
    rw [hr] at hstep
    obtain ⟨hop, hsame⟩ := hstep.newly_submitted hs (hfresh _)
    exact ⟨hc, hop, fun e he => (hsame e ((hpkg _ e).2 he)).trans hid⟩
  · rw [hother _ hx] at hr
    exact absurd hs (hfresh q.reliefrqstId q (by rw [hr]; rfl) rfl)

/-- A submission that is accepted leaves the request's package submitted. -/
theorem submission_submits {db : Database} (hu : UniquePkg db.tables)
    (hc : Commits db (.preparePackage ctx rqstId .submitForApproval post)) (hq : q ∈ db.tables.firstPkg rqstId) :
    ∃ q' ∈ (step db (.preparePackage ctx rqstId .submitForApproval post)).tables.reliefpkg.get? q.reliefpkgId,
      Submitted q' := by
  obtain ⟨hu', x, hstep, hother⟩ := commits_header hu hc
  generalize hb : (step db (.preparePackage ctx rqstId .submitForApproval post)).tables.header x = b at hstep
  generalize ha : db.tables.header x = a at hstep
  cases hstep with
  | submitForApproval =>
    rw [(header_eq_some.1 ha).2] at hq
    cases hq
    have hrow := Table.get?_key (mem_of_header hb).1
    exact ⟨q.submitted ctx, hrow, rfl, rfl⟩

/-- **One post of a run** follows the rule exactly when it submits no draft. -/
theorem hearOnce_iff (hu : UniquePkg (run notifyStep s₀ ps).db.tables) : HearOnce s₀ ps p ↔ NoDraftSubmitted s₀ ps p := by
  have hnow : ∀ pkgId, ¬ EverSubmitted s₀ ps pkgId → ¬ SubmittedIn pkgId (run notifyStep s₀ ps) := fun pkgId h hs =>
    h ⟨ps, List.prefix_rfl, hs⟩
  set s := run notifyStep s₀ ps with hset
  constructor
  · rintro h ctx rqstId post hop hc hmanager q hq hpending
    by_contra hnever
    rw [hop] at hc
    -- a draft is submitted, and nobody hears of it
    obtain ⟨q', hq', hs'⟩ := submission_submits hu hc hq
    have hdb : (notifyStep s p).db = step s.db (.preparePackage ctx rqstId .submitForApproval post) := by
      rw [notifyStep_db, hop]
    have hnone : createdBy s p = [] := by
      rw [createdBy_eq, hop, if_pos hc, Posting.creates, hop]
      exact if_pos ⟨q, hq, hpending⟩
    have hhear := h.first q.reliefpkgId hnever q' (by rw [hdb]; exact hq') hs'
    rw [hnone] at hhear
    obtain ⟨userId, hm⟩ := hmanager
    exact managersHear_nil.1 hhear userId hm
  · refine fun h => ⟨fun pkgId hnever q hq hs => ?_, fun ctx rqstId post hop q hq hpending _ => ?_⟩
    · rw [notifyStep_db] at hq
      obtain ⟨hc, ⟨ctx, post, hop⟩, hsame⟩ := newly_submitted hu hq hs fun e he hse => hnow pkgId hnever ⟨e, he, hse⟩
      rw [createdBy_eq, if_pos hc, Posting.creates, hop]
      dsimp only
      split_ifs with hpending
      · obtain ⟨e, he, hpending⟩ := hpending
        refine managersHear_nil.2 fun userId hm => hnever ?_
        have hever := h ctx _ post hop hc ⟨userId, hm⟩ e he hpending
        rwa [hsame e he] at hever
      · exact managersHear_created ..
    · rw [createdBy_eq, Posting.creates, hop]
      split_ifs with hc
      · exact if_pos ⟨q, hq, hpending⟩
      · rfl

end

instance (pkgId : Nat) (s : Notified) : Decidable (SubmittedIn pkgId s) := by unfold SubmittedIn; infer_instance

/-- **The managers hear of every package once**, at its first submission, exactly when no draft is submitted. -/
theorem managers_hear_once (s₀ : Notified) (h0 : s₀.db.tables.reliefpkg.rows = []) (ps : List Posting) :
    (∀ pre p post, ps = pre ++ p :: post → HearOnce s₀ pre p) ↔
      ∀ pre p post, ps = pre ++ p :: post → NoDraftSubmitted s₀ pre p := by
  refine forall_congr' fun pre => forall_congr' fun p => forall_congr' fun post => forall_congr' fun _ => ?_
  have hreach : Reachable (run step s₀.db (pre.map Posting.op)) := (Reachable.initial h0).run _
  exact hearOnce_iff (by rw [run_notifyStep]; exact hreach.unique)

namespace Site

/-- User 4 is a Logistics Manager; user 5 was one. -/
def staff : UserStore :=
  { users with
    user := ⟨[account 3 "officer", account 4 "manager", { account 5 "former" with isActive := false }], by decide⟩
    role := ⟨[⟨3, "LOGISTICS_OFFICER"⟩, ⟨4, "LOGISTICS_MANAGER"⟩], by decide⟩
    userRole := ⟨[⟨3, 3⟩, ⟨4, 4⟩, ⟨5, 4⟩], by decide⟩ }

def quiet : Notified := ⟨db, []⟩

def posting (op : Op) : Posting := ⟨op, staff, "LO", fun _ => some "AGENCY"⟩

/-- A submission, and what a resubmission of it posts. -/
def submission (rqstVersion : ℤ) (pkgVersion : VersionField) : Posting :=
  posting (.preparePackage officer 1 .submitForApproval (post rqstVersion pkgVersion 2))

def draftSave : Posting := posting (.preparePackage officer 1 .saveDraft (post 3 .absent 2))

end Site

/-- The active manager hears of the submission, and not of the resubmission. -/
theorem managers_hear_once_site :
    (∀ pre p post, [Site.submission 3 .absent, Site.submission 4 (.num 2)] = pre ++ p :: post →
      HearOnce Site.quiet pre p) ∧
    (run notifyStep Site.quiet [Site.submission 3 .absent, Site.submission 4 (.num 2)]).notification.map
      Notification.userId = [4] := by
  refine ⟨(managers_hear_once Site.quiet rfl _).2 fun pre p post he => ?_, by decide +kernel⟩
  rcases pre with _ | ⟨p₁, _ | ⟨p₂, pre⟩⟩
  · -- there is no package yet
    rintro ctx rqstId post' - - - q hq
    cases hq
  · rintro ctx rqstId post' - - - q hq -
    obtain ⟨rfl, -⟩ : Site.submission 3 .absent = p₁ ∧ _ := by simpa using he
    have hone : ∀ q ∈ (run notifyStep Site.quiet [Site.submission 3 .absent]).db.tables.reliefpkg.rows,
        q.reliefpkgId = 1 := by decide +kernel
    rw [hone q (mem_of_firstPkg hq).1]
    exact ⟨[Site.submission 3 .absent], List.prefix_rfl, by decide +kernel⟩
  · simp at he

/-- A draft is saved and then submitted: nobody hears of it. -/
theorem managers_never_hear :
    SubmittedIn 1 (run notifyStep Site.quiet [Site.draftSave, Site.submission 4 (.num 1)]) ∧
    Site.staff.IsActiveManager 4 ∧
    (run notifyStep Site.quiet [Site.draftSave, Site.submission 4 (.num 1)]).notification = [] ∧
    ¬ ∀ pre p post, [Site.draftSave, Site.submission 4 (.num 1)] = pre ++ p :: post → HearOnce Site.quiet pre p := by
  refine ⟨by decide +kernel, by decide +kernel, by decide +kernel, fun h => ?_⟩
  have hnever : ¬ EverSubmitted Site.quiet [Site.draftSave] 1 := by
    rintro ⟨ps', hp, hs⟩
    rcases ps' with _ | ⟨p, ps'⟩
    · revert hs
      decide +kernel
    · obtain ⟨rfl, hrest⟩ := List.cons_prefix_cons.1 hp
      rw [List.prefix_nil.1 hrest] at hs
      revert hs
      decide +kernel
  have hsubmitted : SubmittedIn 1 (notifyStep (run notifyStep Site.quiet [Site.draftSave]) (Site.submission 4 (.num 1))) := by
    decide +kernel
  have hcreated : createdBy (run notifyStep Site.quiet [Site.draftSave]) (Site.submission 4 (.num 1)) = [] := by
    decide +kernel
  obtain ⟨q, hq, hs⟩ := hsubmitted
  have hhear := (h [Site.draftSave] (Site.submission 4 (.num 1)) [] rfl).first 1 hnever q hq hs
  rw [hcreated] at hhear
  exact managersHear_nil.1 hhear 4 (by decide +kernel)

end Dmis
