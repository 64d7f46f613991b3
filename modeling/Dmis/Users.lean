import Dmis.Lib.Table
import Dmis.Lib.Outcome
import Dmis.Lib.Run

/-!
# User administration

`app/features/user_admin.py`: the routes a system administrator or a custodian creates, edits, activates and
deactivates users with. Roles are rows of `user_role`; a user is an administrator with the role
`SYSTEM_ADMINISTRATOR` or `SYS_ADMIN`. Names, job title and phone, which are only stored, are left out.

| here | there |
| --- | --- |
| `assignableRoles`, `validateRoleAssignment` | `get_assignable_roles` (`:13-36`), `validate_role_assignment` (`:38-64`) |
| `createUser` | `create` (`:97-280`) |
| `editUser` | `edit` (`:305-600`) |
| `deactivateUser`, `activateUser` | `:641-667` |

The routes ask whether a custodian may assign the posted roles, and not whom they are posted for.
`custodians_and_administrators` says exactly which of a custodian's posts touch an administrator.
-/

namespace Dmis

open Relational Keyed

/-! ## Tables -/

structure Role where
  id : Nat
  code : String
  deriving DecidableEq, Repr

structure User where
  userId : Nat
  email : String
  userName : String
  passwordHash : String
  isActive : Bool
  organization : Option String
  agencyId : Option Nat
  deriving DecidableEq, Repr

structure UserRole where
  userId : Nat
  roleId : Nat
  deriving DecidableEq, Repr

structure UserWarehouse where
  userId : Nat
  warehouseId : Nat
  deriving DecidableEq, Repr

instance : Keyed Role Nat := ⟨Role.id⟩
instance : Keyed User Nat := ⟨User.userId⟩
instance : Keyed UserRole (Nat × Nat) := ⟨fun r => (r.userId, r.roleId)⟩
instance : Keyed UserWarehouse (Nat × Nat) := ⟨fun w => (w.userId, w.warehouseId)⟩

structure UserStore where
  user : Table User
  role : Table Role
  userRole : Table UserRole
  userWarehouse : Table UserWarehouse
  nextUserId : Nat
  /-- The names of the active agencies and of the custodians, and the warehouses. -/
  agency : Nat → Option String
  custodian : Nat → Option String
  warehouses : List Nat

/-! ## Roles -/

def UserStore.rolesOf (s : UserStore) (userId : Nat) : List Role :=
  s.role.select fun r => (userId, r.id) ∈ s.userRole.keys

def UserStore.roleCodes (s : UserStore) (userId : Nat) : List String := (s.rolesOf userId).map Role.code

def restrictedRoles : List String := ["SYSTEM_ADMINISTRATOR", "SYS_ADMIN"]

def UserStore.HoldsAdmin (s : UserStore) (userId : Nat) : Prop := ∃ c ∈ restrictedRoles, c ∈ s.roleCodes userId

instance (s : UserStore) : DecidablePred s.HoldsAdmin := fun userId => by
  unfold UserStore.HoldsAdmin
  infer_instance

/-- `get_assignable_roles`. -/
def assignableRoles (s : UserStore) (userId : Nat) : List Role :=
  if s.HoldsAdmin userId then s.role.rows
  else if "CUSTODIAN" ∈ s.roleCodes userId then s.role.select fun r => r.code ∉ restrictedRoles
  else []

/-- `validate_role_assignment`. -/
def validateRoleAssignment (s : UserStore) (userId : Nat) (roleIds : List Nat) : Prop :=
  ∀ id ∈ roleIds, id ∈ (assignableRoles s userId).map Role.id

instance (s : UserStore) (userId : Nat) (roleIds : List Nat) : Decidable (validateRoleAssignment s userId roleIds) := by
  unfold validateRoleAssignment
  infer_instance

/-! ## Routes -/

inductive UserErr where
  | accessDenied | notFound
  | fieldsRequired | userNameRequired | emailExists
  | organizationRequired | organizationFormat | organizationType | organizationId | invalidAgency | invalidCustodian
  | rolesNotPermitted | ownAccount
  /-- `int(…)` raised, or the database refused a row. -/
  | valueError | integrityError
  deriving DecidableEq, Repr

/-- The field `organization`: `AGENCY:{id}`, `CUSTODIAN:{id}`, blank, or what neither is. -/
inductive OrgField where
  | absent | blank | noColon | otherType | noDigits
  | agency (id : Nat)
  | custodian (id : Nat)
  deriving DecidableEq, Repr

/-- The forms of `create` and `edit`, texts stripped and cased. `roles` and `warehouses` are the posted ids, `none`
for what is no integer. -/
structure UserForm where
  email : String
  userName : String
  password : String
  /-- What `generate_password_hash` makes of the password. -/
  passwordHash : String
  organization : OrgField
  isActive : Bool
  roles : List (Option Nat)
  warehouses : List (Option Nat)

def organizationOf (s : UserStore) : OrgField → Except UserErr (Option String × Option Nat)
  | .absent | .blank => .ok (none, none)
  | .noColon => .error .organizationFormat
  | .otherType => .error .organizationType
  | .noDigits => .error .organizationId
  | .agency id => do
    let name ← require (s.agency id) .invalidAgency
    pure (some name, some id)
  | .custodian id => do
    let name ← require (s.custodian id) .invalidCustodian
    pure (some name, none)

/-- `login_required` and `role_required('SYSTEM_ADMINISTRATOR', 'SYS_ADMIN', 'CUSTODIAN')`. -/
def requireUserAdmin (s : UserStore) (actor : Nat) : Except UserErr Unit := do
  let u ← require (s.user.get? actor) .accessDenied
  check (u.isActive = true) .accessDenied
  check (∃ c ∈ s.roleCodes actor, c ∈ "CUSTODIAN" :: restrictedRoles) .accessDenied

/-- The rows of `user_role` and `user_warehouse` the form asks for, after the actor's permission is checked. -/
def assign (s : UserStore) (actor userId : Nat) (f : UserForm) (userRole : Table UserRole)
    (userWarehouse : Table UserWarehouse) : Except UserErr (Table UserRole × Table UserWarehouse) := do
  let roleIds ← require (f.roles.mapM id) .valueError
  check (validateRoleAssignment s actor roleIds) .rolesNotPermitted
  let userRole ← require (Table.insertAll (roleIds.map fun id => ⟨userId, id⟩) userRole) .integrityError
  let warehouseIds ← require (f.warehouses.mapM id) .valueError
  check (∀ id ∈ warehouseIds, id ∈ s.warehouses) .integrityError
  let userWarehouse ← require (Table.insertAll (warehouseIds.map fun id => ⟨userId, id⟩) userWarehouse) .integrityError
  pure (userRole, userWarehouse)

/-- `create`. -/
def createUser (actor : Nat) (f : UserForm) (s : UserStore) : Except UserErr UserStore := do
  requireUserAdmin s actor
  check (f.email ≠ "" ∧ f.password ≠ "" ∧ f.userName ≠ "") .fieldsRequired
  check (∀ u ∈ s.user.rows, u.email ≠ f.email) .emailExists
  let (organization, agencyId) ← organizationOf s f.organization
  let user ← require (s.user.insert
    { userId := s.nextUserId
      email := f.email
      userName := f.userName
      passwordHash := f.passwordHash
      isActive := f.isActive
      organization := organization
      agencyId := agencyId }) .integrityError
  let (userRole, userWarehouse) ← assign s actor s.nextUserId f s.userRole s.userWarehouse
  pure { s with user := user, userRole := userRole, userWarehouse := userWarehouse, nextUserId := s.nextUserId + 1 }

/-- The row of an edited user; a blank password leaves the old one. -/
def User.edited (f : UserForm) (organization : Option String) (agencyId : Option Nat) (u : User) : User :=
  { u with
    userName := f.userName
    organization := organization
    agencyId := agencyId
    isActive := f.isActive
    passwordHash := if f.password = "" then u.passwordHash else f.passwordHash }

/-- `edit`: all roles and warehouses of the user are deleted, the posted ones inserted. The actor's roles were loaded
before. -/
def editUser (actor userId : Nat) (f : UserForm) (s : UserStore) : Except UserErr UserStore := do
  requireUserAdmin s actor
  let u ← require (s.user.get? userId) .notFound
  check (f.organization ≠ .absent) .organizationRequired
  check (f.userName ≠ "") .userNameRequired
  let (organization, agencyId) ← organizationOf s f.organization
  let (userRole, userWarehouse) ← assign s actor userId f
    (s.userRole.deleteWhere fun r => r.userId = userId) (s.userWarehouse.deleteWhere fun w => w.userId = userId)
  pure { s with
    user := s.user.set (u.edited f organization agencyId)
    userRole := userRole
    userWarehouse := userWarehouse }

def User.switched (isActive : Bool) (u : User) : User := { u with isActive := isActive }

def setActive (userId : Nat) (isActive : Bool) (s : UserStore) : Except UserErr UserStore := do
  let u ← require (s.user.get? userId) .notFound
  pure { s with user := s.user.set (u.switched isActive) }

/-- `deactivate`. -/
def deactivateUser (actor userId : Nat) (s : UserStore) : Except UserErr UserStore := do
  requireUserAdmin s actor
  check (userId ≠ actor) .ownAccount
  setActive userId false s

/-- `activate`. -/
def activateUser (actor userId : Nat) (s : UserStore) : Except UserErr UserStore := do
  requireUserAdmin s actor
  setActive userId true s

/-! ## Runs -/

inductive UserOp where
  | create (actor : Nat) (form : UserForm)
  | edit (actor userId : Nat) (form : UserForm)
  | activate (actor userId : Nat)
  | deactivate (actor userId : Nat)

def UserOp.actor : UserOp → Nat
  | .create actor _ | .edit actor _ _ | .activate actor _ | .deactivate actor _ => actor

def UserOp.route : UserOp → UserStore → Except UserErr UserStore
  | .create actor f => createUser actor f
  | .edit actor userId f => editUser actor userId f
  | .activate actor userId => activateUser actor userId
  | .deactivate actor userId => deactivateUser actor userId

/-- One post: committed, or rolled back. -/
def nextUsers (s : UserStore) (op : UserOp) : UserStore :=
  match op.route s with
  | .ok s' => s'
  | .error _ => s

/-! ## What a custodian's post does to administrators -/

/-- Nobody gains or loses an administrator role, and administrators keep password and active flag. -/
structure AdminsUntouched (s s' : UserStore) : Prop where
  gains : ∀ userId, ∀ c ∈ restrictedRoles, c ∈ s'.roleCodes userId → c ∈ s.roleCodes userId
  keeps : ∀ userId, ∀ c ∈ restrictedRoles, c ∈ s.roleCodes userId → c ∈ s'.roleCodes userId
  account : ∀ userId u, s.HoldsAdmin userId → s.user.get? userId = some u →
    ∃ u', s'.user.get? userId = some u' ∧ u'.passwordHash = u.passwordHash ∧ u'.isActive = u.isActive

/-- The actor is a custodian and no administrator. -/
def ByCustodian (s : UserStore) (op : UserOp) : Prop :=
  "CUSTODIAN" ∈ s.roleCodes op.actor ∧ ¬ s.HoldsAdmin op.actor

/-- The post edits an administrator, or switches an administrator's account on or off. -/
def UserOp.TouchesAdmin (s : UserStore) : UserOp → Prop
  | .create _ _ => False
  | .edit _ userId _ => s.HoldsAdmin userId
  | .activate _ userId => s.HoldsAdmin userId ∧ ∃ u ∈ s.user.get? userId, u.isActive = false
  | .deactivate _ userId => s.HoldsAdmin userId ∧ ∃ u ∈ s.user.get? userId, u.isActive = true

def UserCommits (s : UserStore) (op : UserOp) : Prop := ∃ s', op.route s = .ok s'

instance (s : UserStore) (op : UserOp) : Decidable (ByCustodian s op) := by
  unfold ByCustodian
  infer_instance

instance (s : UserStore) (op : UserOp) : Decidable (op.TouchesAdmin s) := by
  unfold UserOp.TouchesAdmin
  split <;> infer_instance

instance (s : UserStore) (op : UserOp) : Decidable (UserCommits s op) :=
  decidable_of_iff ((op.route s).toOption.isSome) (by
    unfold UserCommits
    cases op.route s <;> simp [Except.toOption])

section
variable {s s' : UserStore} {actor userId : Nat} {f : UserForm} {c : String} {u u' : User}
  {ur ur' : Table UserRole} {uw uw' : Table UserWarehouse}

theorem AdminsUntouched.rfl' : AdminsUntouched s s :=
  ⟨fun _ _ _ h => h, fun _ _ _ h => h, fun _ u _ h => ⟨u, h, rfl, rfl⟩⟩

theorem mem_roleCodes : c ∈ s.roleCodes userId ↔ ∃ r ∈ s.role.rows, r.code = c ∧ (userId, r.id) ∈ s.userRole.keys := by
  simp only [UserStore.roleCodes, UserStore.rolesOf, Table.select, List.mem_map, List.mem_filter, decide_eq_true_eq]
  constructor
  · rintro ⟨r, ⟨hr, hk⟩, rfl⟩
    exact ⟨r, hr, rfl, hk⟩
  · rintro ⟨r, hr, rfl, hk⟩
    exact ⟨r, ⟨hr, hk⟩, rfl⟩

/-- The role codes of a user change with the user's rows of `user_role` only. -/
theorem roleCodes_congr (hr : s'.role = s.role) (h : ∀ id, (userId, id) ∈ s'.userRole.keys ↔ (userId, id) ∈ s.userRole.keys) :
    c ∈ s'.roleCodes userId ↔ c ∈ s.roleCodes userId := by
  simp only [mem_roleCodes, hr, h]

/-- A role a custodian may assign is not restricted. -/
theorem not_restricted (hc : ¬ s.HoldsAdmin actor) {ids : List Nat} (hv : validateRoleAssignment s actor ids) {r : Role}
    (hr : r ∈ s.role.rows) (hid : r.id ∈ ids) : r.code ∉ restrictedRoles := by
  have hmem := hv r.id hid
  unfold assignableRoles at hmem
  rw [if_neg hc] at hmem
  split at hmem
  · obtain ⟨r', hr', he⟩ := List.mem_map.1 hmem
    obtain ⟨hrow, hcode⟩ := List.mem_filter.1 hr'
    obtain rfl : r' = r := List.inj_on_of_nodup_map s.role.nodup hrow hr he
    simpa using hcode
  · simp at hmem

theorem assign_ok (h : assign s actor userId f ur uw = .ok (ur', uw')) :
    ∃ ids, validateRoleAssignment s actor ids ∧ ∀ k, k ∈ ur'.keys ↔ k ∈ ur.keys ∨ (k.1 = userId ∧ k.2 ∈ ids) := by
  simp only [assign, bind_ok, check_ok, require_ok, pure_ok] at h
  obtain ⟨ids, -, _, hv, ur₁, hur, _, -, _, -, uw₁, -, he⟩ := h
  cases he
  refine ⟨ids, hv, fun k => ?_⟩
  rw [Table.mem_keys_insertAll hur, List.map_map, List.mem_map]
  refine or_congr_right ⟨?_, fun ⟨h1, h2⟩ => ⟨k.2, h2, Prod.ext h1.symm rfl⟩⟩
  rintro ⟨id, hid, rfl⟩
  exact ⟨rfl, hid⟩

theorem createUser_untouched (hc : ¬ s.HoldsAdmin actor) (h : createUser actor f s = .ok s') : AdminsUntouched s s' := by
  simp only [createUser, bind_ok, check_ok, require_ok, pure_ok] at h
  obtain ⟨_, -, _, -, _, -, ⟨org, agency⟩, -, user, huser, ⟨ur, uw⟩, hassign, rfl⟩ := h
  obtain ⟨ids, hv, hkeys⟩ := assign_ok hassign
  refine ⟨fun id c hcode hmem => ?_, fun id c _ hmem => ?_, fun id u _ hu => ⟨u, ?_, rfl, rfl⟩⟩
  · obtain ⟨r, hr, rfl, hk⟩ := mem_roleCodes.1 hmem
    rcases (hkeys _).1 hk with hk | ⟨-, hid⟩
    · exact mem_roleCodes.2 ⟨r, hr, rfl, hk⟩
    · exact absurd hcode (not_restricted hc hv hr hid)
  · obtain ⟨r, hr, rfl, hk⟩ := mem_roleCodes.1 hmem
    exact mem_roleCodes.2 ⟨r, hr, rfl, (hkeys _).2 (.inl hk)⟩
  · have hne : key _ ≠ id := fun he => (Table.insert_eq_some.1 huser).1
      (he ▸ List.mem_map.2 ⟨u, Table.mem_of_get? hu, Table.key_of_get? hu⟩)
    change user.get? id = some u
    rw [Table.get?_insert huser, if_neg hne]
    exact hu

/-- What an edit leaves of the roles: the others', and the posted ones of the edited user. -/
theorem editUser_ok (h : editUser actor userId f s = .ok s') :
    (∃ ids, validateRoleAssignment s actor ids ∧
      ∀ k, k ∈ s'.userRole.keys ↔ (k ∈ s.userRole.keys ∧ k.1 ≠ userId) ∨ (k.1 = userId ∧ k.2 ∈ ids)) ∧
    s'.role = s.role ∧ ∀ id, id ≠ userId → s'.user.get? id = s.user.get? id := by
  simp only [editUser, bind_ok, check_ok, require_ok, pure_ok] at h
  obtain ⟨_, -, u, hu, _, -, _, -, ⟨org, agency⟩, -, ⟨ur, uw⟩, hassign, rfl⟩ := h
  obtain ⟨ids, hv, hkeys⟩ := assign_ok hassign
  refine ⟨⟨ids, hv, fun k => (hkeys k).trans (or_congr_left ?_)⟩, rfl, fun id hid => ?_⟩
  · rw [Table.mem_keys_deleteWhere]
    constructor
    · rintro ⟨r, hr, hp, rfl⟩
      exact ⟨List.mem_map_of_mem hr, of_decide_eq_false hp⟩
    · rintro ⟨hk, hne⟩
      obtain ⟨r, hr, rfl⟩ := List.mem_map.1 hk
      exact ⟨r, hr, decide_eq_false hne, rfl⟩
  · have hk : key u = userId := Table.key_of_get? hu
    exact Table.get?_set_of_ne fun he : key u = id => hid (he.symm.trans hk)

/-- An edit by a custodian takes the administrator roles from an administrator. -/
theorem editUser_strips (hc : ¬ s.HoldsAdmin actor) (h : editUser actor userId f s = .ok s') : ¬ s'.HoldsAdmin userId := by
  obtain ⟨⟨ids, hv, hkeys⟩, hrole, -⟩ := editUser_ok h
  rintro ⟨c, hcode, hmem⟩
  obtain ⟨r, hr, rfl, hk⟩ := mem_roleCodes.1 hmem
  rcases (hkeys _).1 hk with ⟨-, hne⟩ | ⟨-, hid⟩
  · exact hne rfl
  · exact not_restricted hc hv (hrole ▸ hr) hid hcode

theorem editUser_untouched (hc : ¬ s.HoldsAdmin actor) (hu : ¬ s.HoldsAdmin userId)
    (h : editUser actor userId f s = .ok s') : AdminsUntouched s s' := by
  obtain ⟨⟨ids, hv, hkeys⟩, hrole, huser⟩ := editUser_ok h
  have hother : ∀ id, id ≠ userId → ∀ c, c ∈ s'.roleCodes id ↔ c ∈ s.roleCodes id := fun id hid c =>
    roleCodes_congr hrole fun k => by simp [hkeys, hid]
  refine ⟨fun id c hcode hmem => ?_, fun id c hcode hmem => ?_, fun id u hadmin hget => ?_⟩
  · by_cases hid : id = userId
    · exact absurd ⟨c, hcode, hid ▸ hmem⟩ (editUser_strips hc h)
    · exact (hother id hid c).1 hmem
  · by_cases hid : id = userId
    · exact absurd ⟨c, hcode, hid ▸ hmem⟩ hu
    · exact (hother id hid c).2 hmem
  · have hid : id ≠ userId := fun he => hu (he ▸ hadmin)
    exact ⟨u, (huser id hid).trans hget, rfl, rfl⟩

theorem setActive_untouched {b : Bool} (h : setActive userId b s = .ok s') :
    AdminsUntouched s s' ↔ ¬ (s.HoldsAdmin userId ∧ ∃ u ∈ s.user.get? userId, u.isActive = !b) := by
  simp only [setActive, bind_ok, require_ok, pure_ok] at h
  obtain ⟨u, hu, rfl⟩ := h
  have hk : key u = userId := Table.key_of_get? hu
  have hset : (s.user.set (u.switched b)).get? userId = some (u.switched b) := Table.get?_set_of_get? hu hk
  constructor
  · rintro hun ⟨hadmin, u₁, hu₁, hact⟩
    obtain rfl := Option.some.inj (hu.symm.trans hu₁)
    obtain ⟨u', hu', -, hact'⟩ := hun.account userId u hadmin hu
    obtain rfl := Option.some.inj (hset.symm.trans hu')
    rw [hact] at hact'
    cases b <;> cases hact'
  · intro hnot
    refine ⟨fun _ _ _ h => h, fun _ _ _ h => h, fun id u₁ hadmin hget => ?_⟩
    by_cases hid : id = userId
    · subst hid
      obtain rfl := Option.some.inj (hu.symm.trans hget)
      refine ⟨_, hset, rfl, ?_⟩
      by_contra hne
      have hne : b ≠ u.isActive := hne
      exact hnot ⟨hadmin, u, hu, by cases hb : u.isActive <;> cases b <;> simp_all⟩
    · have hne : key (u.switched b) ≠ id := fun he => hid (he.symm.trans hk)
      exact ⟨u₁, (Table.get?_set_of_ne hne).trans hget, rfl, rfl⟩

end

/-- **One post of a custodian** leaves administrators alone exactly when it does not commit, or touches none. -/
theorem nextUsers_untouched {s : UserStore} {op : UserOp} (hc : ByCustodian s op) :
    AdminsUntouched s (nextUsers s op) ↔ (UserCommits s op → ¬ op.TouchesAdmin s) := by
  obtain ⟨-, hc⟩ := hc
  cases h : op.route s with
  | error e =>
    have hs : nextUsers s op = s := by rw [nextUsers, h]
    have hno : ¬ UserCommits s op := fun ⟨s', h'⟩ => by rw [h] at h'; cases h'
    exact ⟨fun _ hcom => absurd hcom hno, fun _ => by rw [hs]; exact .rfl'⟩
  | ok s' =>
    have hs : nextUsers s op = s' := by rw [nextUsers, h]
    rw [hs, forall_prop_of_true (show UserCommits s op from ⟨s', h⟩)]
    cases op with
    | create actor f => exact ⟨fun _ h => h, fun _ => createUser_untouched hc h⟩
    | edit actor userId f =>
      refine ⟨fun hun hadmin => ?_, fun hu => editUser_untouched hc hu h⟩
      obtain ⟨c, hcode, hmem⟩ := hadmin
      exact editUser_strips hc h ⟨c, hcode, hun.keeps userId c hcode hmem⟩
    | activate actor userId =>
      have hroute : activateUser actor userId s = .ok s' := h
      simp only [activateUser, bind_ok] at hroute
      obtain ⟨_, -, hset⟩ := hroute
      exact setActive_untouched hset
    | deactivate actor userId =>
      have hroute : deactivateUser actor userId s = .ok s' := h
      simp only [deactivateUser, bind_ok] at hroute
      obtain ⟨_, -, _, -, hset⟩ := hroute
      exact setActive_untouched hset

/-- **Custodians and administrators**: a run of custodians' posts leaves every administrator alone exactly when none
of its posts edits an administrator or switches an administrator's account. -/
theorem custodians_and_administrators (s : UserStore) (ops : List UserOp) (h : Along nextUsers ByCustodian s ops) :
    Along nextUsers (fun s op => AdminsUntouched s (nextUsers s op)) s ops ↔
    Along nextUsers (fun s op => UserCommits s op → ¬ op.TouchesAdmin s) s ops :=
  Along.congr (fun _ _ hc => nextUsers_untouched hc) h

/-! ## A custodian and an administrator -/

namespace Site

def account (userId : Nat) (email : String) : User := ⟨userId, email, email, "hash", true, none, none⟩

/-- User 1 is a custodian, user 2 an administrator, user 3 an officer. -/
def users : UserStore where
  user := ⟨[account 1 "cust", account 2 "admin", account 3 "officer"], by decide⟩
  role := ⟨[⟨1, "CUSTODIAN"⟩, ⟨2, "SYSTEM_ADMINISTRATOR"⟩, ⟨3, "LOGISTICS_OFFICER"⟩], by decide⟩
  userRole := ⟨[⟨1, 1⟩, ⟨2, 2⟩, ⟨3, 3⟩], by decide⟩
  userWarehouse := ⟨[], by decide⟩
  nextUserId := 4
  agency := fun _ => none
  custodian := fun _ => none
  warehouses := []

/-- The form of the edit page, which shows a custodian no administrator role. -/
def userForm (password : String) (roles : List Nat) : UserForm :=
  ⟨"new", "NEW", password, "hash of " ++ password, .blank, true, roles.map some, []⟩

/-- A new user, an officer's edit, and an attempt to make an administrator of the officer. -/
def custodianRun : List UserOp :=
  [.create 1 (userForm "pw" [1, 3]), .edit 1 3 (userForm "" [3]), .edit 1 3 (userForm "" [2, 3]), .deactivate 1 3]

end Site

theorem custodians_and_administrators_site :
    Along nextUsers (fun s op => AdminsUntouched s (nextUsers s op)) Site.users Site.custodianRun ∧
    (run nextUsers Site.users Site.custodianRun).roleCodes 4 = ["CUSTODIAN", "LOGISTICS_OFFICER"] :=
  ⟨(custodians_and_administrators Site.users Site.custodianRun (by decide +kernel)).2 (by decide +kernel),
    by decide +kernel⟩

/-- A custodian sets a new password for the administrator, whose role is gone with it. -/
theorem custodian_takes_administrator :
    ¬ Along nextUsers (fun s op => AdminsUntouched s (nextUsers s op)) Site.users [.edit 1 2 (Site.userForm "pw" [])] ∧
    ((nextUsers Site.users (.edit 1 2 (Site.userForm "pw" []))).user.get? 2).map User.passwordHash = some "hash of pw" ∧
    ((nextUsers Site.users (.deactivate 1 2)).user.get? 2).map User.isActive = some false := by
  refine ⟨fun h => ?_, by decide +kernel, by decide +kernel⟩
  have hkeeps := h.1.keeps 2 "SYSTEM_ADMINISTRATOR" (by decide +kernel) (by decide +kernel)
  revert hkeeps
  decide +kernel

end Dmis
