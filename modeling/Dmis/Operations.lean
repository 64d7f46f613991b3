import Dmis.Requests
import Dmis.Lib.Run

/-!
# Operations and runs

Every post a user can make, with its input, as a value of `Op`; `Op.route` is the route it goes to.
One operation is one transaction (`step`), and a run is any list of operations by any users.
-/

namespace Dmis

open Relational Keyed

inductive Op where
  | createDraftRequest (ctx : Ctx) (agencyId : Nat) (urgency : Urgency) (eventId : Option Nat)
      (notes : Option String)
  | editItems (ctx : Ctx) (rqstId : Nat) (post : ItemPost)
  | deleteItem (ctx : Ctx) (rqstId itemId : Nat)
  | submitRequest (ctx : Ctx) (rqstId : Nat) (version : VersionField)
  | submitEligibilityDecision (ctx : Ctx) (rqstId : Nat) (decision : Decision) (reason : String)
  | preparePackage (ctx : Ctx) (rqstId : Nat) (action : PrepareAction) (post : Post)
  | approvePackage (ctx : Ctx) (rqstId : Nat) (action : ApproveAction) (post : Post)
  | reviewApproval (ctx : Ctx) (rqstId : Nat) (action : ReviewAction) (post : Post)
  | submitForDispatch (ctx : Ctx) (pkgId : Nat) (version : VersionField) (plan : PlanField)
  | cancelPackage (ctx : Ctx) (pkgId : Nat)
  | cancelPreparation (rqstId : Nat)
  | markHandover (ctx : Ctx) (pkgId : Nat)

def Op.route : Op → Tables → Except Err Tables
  | .createDraftRequest ctx agency urgency event notes => Dmis.createDraftRequest ctx agency urgency event notes
  | .editItems ctx rqstId post => Dmis.editItems ctx rqstId post
  | .deleteItem ctx rqstId itemId => Dmis.deleteItem ctx rqstId itemId
  | .submitRequest ctx rqstId version => Dmis.submitRequest ctx rqstId version
  | .submitEligibilityDecision ctx rqstId d reason => Dmis.submitEligibilityDecision ctx rqstId d reason
  | .preparePackage ctx rqstId action post => Dmis.preparePackage ctx rqstId action post
  | .approvePackage ctx rqstId action post => Dmis.approvePackage ctx rqstId action post
  | .reviewApproval ctx rqstId action post => Dmis.reviewApproval ctx rqstId action post
  | .submitForDispatch ctx pkgId version plan => Dmis.submitForDispatch ctx pkgId version plan
  | .cancelPackage ctx pkgId => Dmis.cancelPackage ctx pkgId
  | .cancelPreparation rqstId => Dmis.cancelPreparation rqstId
  | .markHandover ctx pkgId => Dmis.markHandover ctx pkgId

/-- One post: committed, or rolled back. -/
def step (db : Database) (op : Op) : Database := db.after op.route

/-- The post was committed. -/
def Commits (db : Database) (op : Op) : Prop := ∃ db', db.exec op.route = .ok db'

instance (db : Database) (op : Op) : Decidable (Commits db op) :=
  match h : db.exec op.route with
  | .ok db' => .isTrue ⟨db', h⟩
  | .error e => .isFalse fun ⟨db', h'⟩ => by rw [h] at h'; cases h'

theorem step_of_not_commits {db : Database} {op : Op} (h : ¬ Commits db op) : step db op = db := by
  unfold step Database.after
  cases he : db.exec op.route with
  | ok db' => exact absurd ⟨db', he⟩ h
  | error e => rfl

/-- A committed post: the route ran through, and its result satisfies every constraint. -/
theorem step_of_commits {db : Database} {op : Op} (h : Commits db op) :
    ∃ t, op.route db.tables = .ok t ∧ t.rounded.Consistent ∧ (step db op).tables = t.rounded := by
  obtain ⟨db', h⟩ := h
  have hs : step db op = db' := by simp only [step, Database.after, h]
  rw [hs]
  exact exec_ok.1 h

/-- What holds of an unchanged state and of every committed result holds after the step. -/
theorem step_cases {P : Database → Prop} {db : Database} {op : Op} (hrollback : P db)
    (hcommit : ∀ db' t, op.route db.tables = .ok t → t.rounded.Consistent → db'.tables = t.rounded → P db') :
    P (step db op) := by
  by_cases h : Commits db op
  · obtain ⟨t, ht, hc, he⟩ := step_of_commits h
    exact hcommit _ t ht hc he
  · rwa [step_of_not_commits h]

/-! ## A small site

One item, one warehouse with one batch of ten units, one eligible request for five of them. -/

namespace Site

def user (name : String) (officer manager : Bool) : Ctx :=
  { userName := name
    logisticsOfficer := officer
    logisticsManager := manager
    inventoryClerk := false
    executive := true
    warehouseIds := [1]
    email := name
    userByEmail := some
    agencies := [1]
    events := []
    catalog := fun _ => some ⟨true, true⟩
    canAccess := fun _ => true
    activeItemStatuses :=
      [.requested, .unavailable, .waiting, .denied, .partlyFilled, .limitAllowed, .filled]
    today := 100
    now := 1000 }

def officer : Ctx := user "LO" true false
def otherOfficer : Ctx := user "LO2" true false
def manager : Ctx := user "LM" false true

def batch : ItemBatch := ⟨1, 1, 1, "B1", some 50, none, 10, 0, 0, 0, "EA", none, .active⟩
def stock : Inventory := ⟨1, 1, 10, 0, 0, 0, .active⟩
def rqst : ReliefRqst := ⟨1, 1, none, .low, none, .submitted, none, "AG", some "DIR", none, 3⟩
def rqstItem : ReliefRqstItem := ⟨1, 1, 5, 0, .low, none, none, .requested, none, none, 1⟩

def tables : Tables :=
  { itembatch := ⟨[batch], by decide⟩
    inventory := ⟨[stock], by decide⟩
    reliefrqst := ⟨[rqst], by decide⟩
    reliefrqstItem := ⟨[rqstItem], by decide⟩
    reliefpkg := ⟨[], by decide⟩
    reliefpkgItem := ⟨[], by decide⟩
    nextReliefrqstId := 2
    nextReliefpkgId := 1 }

theorem consistent : tables.Consistent := by decide +kernel

def db : Database := ⟨tables, consistent⟩

/-- A form that takes `q` units from the batch. -/
def form (q : ℚ) : Form := ⟨[⟨1, some 1, some (.finite q)⟩], fun _ => none, fun _ => ""⟩

/-- A post with the versions of the page it comes from. -/
def post (rqstVersion : ℤ) (pkgVersion : VersionField) (q : ℚ) : Post := ⟨.num rqstVersion, pkgVersion, form q⟩

end Site

end Dmis
