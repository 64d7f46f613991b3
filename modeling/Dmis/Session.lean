import Dmis.Schema

/-!
# Posts, errors and transactions

What a route reads besides the tables (the logged-in user, the clock, the posted form), the errors
it can end in, and the transaction around it: the routes are functions `Tables → Except Err Tables`
on the session's view, and `exec` commits what they leave or rolls back to the old `Database`
(`app/features/packaging.py`, the `try … except … rollback` of every route).

Quantities are rationals, and their sums and differences exact. Python computes them in 28 digits, which is the same for
amounts of at most twelve decimals (`Lib/DecimalContext`); where more of them could tell, a theorem names that limit.
-/

namespace Dmis

open Relational Keyed

/-! ## Form values -/

/-- What Python's `Decimal(text)` can be. -/
inductive PyDecimal where
  | finite (q : ℚ)
  | infinity (negative : Bool)
  | nan
  deriving DecidableEq, Repr

/-- A posted `version_nbr`: missing, empty, not an integer, or an integer. -/
inductive VersionField where
  | absent | blank | malformed
  | num (n : ℤ)
  deriving DecidableEq, Repr

/-- The truth value of `request.form.get(…)`. -/
def VersionField.given : VersionField → Bool
  | absent | blank => false
  | malformed | num _ => true

/-- A posted `status_{item_id}`: one of the item status codes or any other text. -/
inductive FormStatus where
  | code (s : ItemStatus)
  | other
  deriving DecidableEq, Repr

/-- A form key `batch_allocation_{item_id}_{batch_id}` and its value: `batchPart` is `None` when the
text between the underscores is no integer, `value` when the value is blank or no decimal. -/
structure AllocField where
  itemId : Nat
  batchPart : Option ℤ
  value : Option PyDecimal
  deriving DecidableEq, Repr

/-- The allocation part of the prepare and approve forms. `allocations` lists the fields in the
order of their sorted keys. -/
structure Form where
  allocations : List AllocField
  status : Nat → Option FormStatus
  statusReason : Nat → String

/-- A post of the prepare, approve and review pages. -/
structure Post where
  rqstVersion : VersionField
  pkgVersion : VersionField
  form : Form

/-- An entry of the catalogue: what `edit_items` asks of an `Item`. -/
structure CatalogItem where
  active : Bool
  goods : Bool
  deriving DecidableEq, Repr

/-- The logged-in user, the clock, and the lookup tables no modelled route writes. -/
structure Ctx where
  userName : String
  logisticsOfficer : Bool
  logisticsManager : Bool
  inventoryClerk : Bool
  /-- `executive_required`: a director who may decide on eligibility. -/
  executive : Bool
  warehouseIds : List Nat
  email : String
  /-- `User.query.filter_by(email=…)`, the user name. -/
  userByEmail : String → Option String
  agencies : List Nat
  events : List Nat
  catalog : Nat → Option CatalogItem
  /-- `can_access_relief_request`. -/
  canAccess : ReliefRqst → Bool
  /-- `load_status_map()`: the item statuses with `active_flag`. -/
  activeItemStatuses : List ItemStatus
  today : Day
  now : Instant

/-! ## Errors -/

/-- How a route ends without committing. -/
inductive Err where
  | accessDenied | notFound | invalidAction
  | integrityError
  /-- `_validate_version_nbr` and `DispatchService`: the page was stale. -/
  | staleVersion | versionRequired | versionMalformed
  /-- Form values (`ValueError` and arithmetic errors of `_process_allocations`). -/
  | notANumber
  | batchNotFound (batchId : Nat)
  | batchOfOtherItem (batchId itemId : Nat)
  | batchNotAvailable (batchNo : String) (status : StockStatus)
  | batchExpired (batchNo : String) (expiry : Option Day)
  | noAvailableInventory (batchNo : String) (usable : ℚ)
  | onlyAvailable (batchNo : String) (available allocated : ℚ)
  | inventoryMissing (stock : StockKey)
  | exceedsRequested (itemId : Nat) (total requested : ℚ)
  | notFullyAllocated (itemId : Nat) (total requested : ℚ)
  | statusNotAllowed (itemId : Nat) (status : FormStatus) (allowed : List ItemStatus)
  /-- Reservation service. -/
  | cannotReserve (batch : BatchKey) (delta available : ℚ)
  | batchMissing (batch : BatchKey)
  | noActiveInventory (stock : StockKey)
  | reservationsExceedInventory (stock : StockKey)
  | insufficientInventory (stock : StockKey) (need have' : ℚ)
  | inconsistentReservation (batch : BatchKey) (reserved allocated : ℚ)
  | inconsistentInventory (stock : StockKey) (reserved released : ℚ)
  /-- Packages. -/
  | notPackable (status : RqstStatus)
  | alreadySubmitted | noPackage | noPendingPackage | alreadyDispatched
  | wrongPackageStatus (status : PkgStatus)
  | emptyPackage
  | issueQtyMismatch (itemId : Nat) (issueQty total : ℚ)
  | alreadyHandedOver | noItemsInWarehouses
  /-- Requests and eligibility. -/
  | notDraft (status : RqstStatus)
  | agencyNotFound | eventNotFound | userNotFound
  | itemInactive | itemNotGoods | quantityNotPositive | dateRequired | justificationRequired
  | itemNotInRequest | noItems
  | notAwaitingApproval (status : RqstStatus)
  | alreadyDecided | invalidDecision | reasonRequired
  deriving DecidableEq, Repr

/-! ## Parameters -/

/-- `_validate_version_nbr` (`packaging.py:31-47`). -/
def validateVersionNbr (expected : VersionField) (actual : Nat) : Except Err Unit :=
  match expected with
  | .absent => .error .versionRequired
  | .blank | .malformed => .error .versionMalformed
  | .num n => check (n = actual) .staleVersion

/-- `safe_id`: a non-negative integer, `0` for anything that is none. -/
def safeId (part : Option ℤ) : Nat := (part.getD 0).toNat

/-- `safe_version_number`. -/
def safeVersionNumber : VersionField → Nat
  | .num n => n.toNat
  | _ => 0

/-- `safe_quantity`'s upper bound. -/
def maxQty : ℚ := 99999999999 / 100

/-- `safe_quantity(value or '0')`: clamped to `[0, 999999999.99]`; comparing a NaN raises. -/
def safeQuantity : Option PyDecimal → Except Err ℚ
  | none => .ok 0
  | some (.finite q) => .ok (if q < 0 then 0 else if maxQty < q then maxQty else q)
  | some (.infinity true) => .ok 0
  | some (.infinity false) => .ok maxQty
  | some .nan => .error .notANumber

theorem validateVersionNbr_ok {e : VersionField} {n : Nat} {u : Unit} :
    validateVersionNbr e n = .ok u ↔ e = .num n := by
  cases e <;> simp [validateVersionNbr, check_ok]

theorem maxQty_atScale : AtScale 2 maxQty := by decide +kernel

theorem safeQuantity_nonneg {v : Option PyDecimal} {q : ℚ} (h : safeQuantity v = .ok q) : 0 ≤ q := by
  have hmax : 0 ≤ maxQty := by unfold maxQty; norm_num
  unfold safeQuantity at h
  split at h
  · cases h; exact le_rfl
  · cases h
    split
    · exact le_rfl
    · split
      · exact hmax
      · exact not_lt.1 ‹_›
  · cases h; exact le_rfl
  · cases h; exact hmax
  · cases h

theorem safeQuantity_le {v : Option PyDecimal} {q : ℚ} (h : safeQuantity v = .ok q) : q ≤ maxQty := by
  have hmax : 0 ≤ maxQty := by unfold maxQty; norm_num
  unfold safeQuantity at h
  split at h
  · cases h; exact hmax
  · cases h
    split
    · exact hmax
    · split
      · exact le_rfl
      · exact not_lt.1 ‹_›
  · cases h; exact hmax
  · cases h; exact le_rfl
  · cases h

/-- A typed quantity with at most `s` decimals, `s ≥ 2`, stays one when it is clamped. -/
theorem safeQuantity_atScale {s : ℕ} (hs : 2 ≤ s) {v : Option PyDecimal} {q : ℚ}
    (hv : ∀ r, v = some (.finite r) → AtScale s r) (h : safeQuantity v = .ok q) : AtScale s q := by
  have hmax := maxQty_atScale.mono hs
  unfold safeQuantity at h
  split at h
  · cases h; exact .zero
  · cases h
    split
    · exact .zero
    · split
      · exact hmax
      · exact hv _ rfl
  · cases h; exact .zero
  · cases h; exact hmax
  · cases h

/-! ## Transactions -/

/-- `db.session.commit()`. -/
def commit (t : Tables) : Except Err Database :=
  if h : t.rounded.Consistent then .ok ⟨t.rounded, h⟩ else .error .integrityError

/-- Run a route on the session's view and commit. -/
def Database.exec (route : Tables → Except Err Tables) (db : Database) : Except Err Database :=
  route db.tables >>= commit

/-- The state after a route: the committed one, or the old one after a rollback. -/
def Database.after (route : Tables → Except Err Tables) (db : Database) : Database :=
  match db.exec route with
  | .ok db' => db'
  | .error _ => db

theorem commit_ok {t : Tables} {db : Database} :
    commit t = .ok db ↔ t.rounded.Consistent ∧ db.tables = t.rounded := by
  unfold commit
  split
  · rename_i h
    simp only [Except.ok.injEq]
    exact ⟨fun e => e ▸ ⟨h, rfl⟩, fun e => by cases db; simp_all⟩
  · simp_all

theorem exec_ok {route : Tables → Except Err Tables} {db db' : Database} :
    db.exec route = .ok db' ↔
      ∃ t, route db.tables = .ok t ∧ t.rounded.Consistent ∧ db'.tables = t.rounded := by
  simp only [Database.exec, bind_ok, commit_ok]

end Dmis
