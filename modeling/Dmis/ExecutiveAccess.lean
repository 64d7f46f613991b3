import Dmis.ItemForms

/-!
# What an executive may do to a request

`can_access_relief_request` lets the executive roles see every request, and every route asks it also
before it writes. The posts to a request here are made by a user it lets through.

| here | there |
| --- | --- |
| `SessionUser`, `hasRole` | `session_utils` (`get_role_codes`, `has_valid_role`, `get_agency_id`) |
| `canAccessReliefRequest` | `rbac.py:126-157` |
| `editRequest`, `saveDraftRequest`, `cancelRequest` | `requests_aidmgmt.py:258-308`, `494-521`, `524-562` |
| `RequestPost.route` | the six routes; `edit_items`, `delete_item` and `submit_request` are those of `Requests` |

`executive_read_only` says which posts leave the requests alone: those no route takes. Each of the other
five routes writes whenever its form is one for a draft (`RequestPost.Taken`).
-/

namespace Dmis

open Relational Keyed

/-! ## Access -/

structure SessionUser where
  isAuthenticated : Bool
  /-- `get_role_codes()`: stripped, in upper case, and known to the role table. -/
  roleCodes : List String
  agencyId : Option Nat

def executiveRoles : List String := ["ODPEM_DG", "ODPEM_DDG", "ODPEM_DIR_PEOD"]
def logisticsRoles : List String := ["LOGISTICS_MANAGER", "LOGISTICS_OFFICER"]

def SessionUser.hasRole (u : SessionUser) (codes : List String) : Bool := u.roleCodes.any fun c => c ∈ codes

def canAccessReliefRequest (u : SessionUser) (r : ReliefRqst) : Bool :=
  u.isAuthenticated && (u.hasRole logisticsRoles || u.hasRole executiveRoles || u.agencyId == some r.agencyId)

/-- The user is an executive and nothing else. -/
structure SessionUser.ExecutiveOnly (u : SessionUser) : Prop where
  authenticated : u.isAuthenticated = true
  roles : u.roleCodes ≠ []
  executive : ∀ c ∈ u.roleCodes, c ∈ executiveRoles
  noAgency : u.agencyId = none

theorem SessionUser.ExecutiveOnly.canAccess {u : SessionUser} (hu : u.ExecutiveOnly) (r : ReliefRqst) :
    canAccessReliefRequest u r = true := by
  obtain ⟨c, hc⟩ := List.exists_mem_of_ne_nil _ hu.roles
  have hrole : u.hasRole executiveRoles = true :=
    List.any_eq_true.2 ⟨c, hc, decide_eq_true (hu.executive c hc)⟩
  simp [canAccessReliefRequest, hu.authenticated, hrole]

/-! ## The routes -/

/-- The post of `edit_request`; the text is stripped. -/
structure HeaderPost where
  version : VersionField
  urgencyInd : String
  eligibleEventId : VersionField
  rqstNotesText : String

/-- `character(1)` with `c_reliefrqst_2`: blanks at the end are dropped, more than one character is an error. -/
def urgencyColumn (posted : String) : Option Urgency :=
  match (posted.toList.reverse.dropWhile (· = ' ')).reverse with
  | ['L'] => some .low
  | ['M'] => some .medium
  | ['H'] => some .high
  | ['C'] => some .critical
  | _ => none

/-- A text the driver can send. -/
def noNul (s : String) : Prop := '\x00' ∉ s.toList

instance (s : String) : Decidable (noNul s) := by unfold noNul; infer_instance

/-- The foreign key to `event`. -/
def eventColumn (ctx : Ctx) : VersionField → Option (Option Nat)
  | .absent | .blank => some none
  | .malformed => none
  | .num n => if n.toNat ∈ ctx.events ∧ 0 ≤ n then some (some n.toNat) else none

def ReliefRqst.edited (r : ReliefRqst) (urgency : Urgency) (event : Option Nat) (notes : String) : ReliefRqst :=
  { r with
    urgencyInd := urgency
    eligibleEventId := event
    rqstNotesText := some notes
    versionNbr := r.versionNbr + 1 }

/-- A draft the user may write to. -/
def draftGate (ctx : Ctx) (rqstId : Nat) (t : Tables) : Except Err ReliefRqst := do
  let r ← require (t.reliefrqst.get? rqstId) .notFound
  check (ctx.canAccess r = true) .accessDenied
  check (r.statusCode = .draft) (.notDraft r.statusCode)
  pure r

def editRequest (ctx : Ctx) (rqstId : Nat) (post : HeaderPost) (t : Tables) : Except Err Tables := do
  let r ← draftGate ctx rqstId t
  let current ← postedVersion post.version r.versionNbr
  check (r.versionNbr = current) .staleVersion
  let urgency ← require (urgencyColumn post.urgencyInd) .integrityError
  let event ← require (eventColumn ctx post.eligibleEventId) .eventNotFound
  check (noNul post.rqstNotesText) .integrityError
  pure (t.setRqst (r.edited urgency event post.rqstNotesText))

/-- Nothing is left to save. -/
def saveDraftRequest (ctx : Ctx) (rqstId : Nat) (t : Tables) : Except Err Tables := do
  let _ ← draftGate ctx rqstId t
  pure t

/-- The items go first; a package of the request keeps it (`reliefpkg_reliefrqst_id_fkey`). -/
def cancelRequest (ctx : Ctx) (rqstId : Nat) (t : Tables) : Except Err Tables := do
  let _ ← draftGate ctx rqstId t
  pure { t with
    reliefrqstItem := t.reliefrqstItem.deleteWhere fun i => i.reliefrqstId = rqstId
    reliefrqst := t.reliefrqst.deleteWhere fun r => r.reliefrqstId = rqstId }

/-- `edit_items` with the width of `rqst_reason_desc`. -/
def editItemsColumns (ctx : Ctx) (rqstId : Nat) (post : ItemPost) (t : Tables) : Except Err Tables := do
  let t' ← editItems ctx rqstId post t
  check (post.rqstReasonDesc.length ≤ 255 ∧ noNul post.rqstReasonDesc) .integrityError
  pure t'

inductive RequestPost where
  | editRequest (rqstId : Nat) (post : HeaderPost)
  | editItems (rqstId : Nat) (post : ItemPost)
  | deleteItem (rqstId itemId : Nat)
  | saveDraft (rqstId : Nat)
  | cancelRequest (rqstId : Nat)
  | submitRequest (rqstId : Nat) (version : VersionField)

def RequestPost.route (ctx : Ctx) : RequestPost → Tables → Except Err Tables
  | .editRequest rqstId post => Dmis.editRequest ctx rqstId post
  | .editItems rqstId post => Dmis.editItemsColumns ctx rqstId post
  | .deleteItem rqstId itemId => Dmis.deleteItem ctx rqstId itemId
  | .saveDraft rqstId => Dmis.saveDraftRequest ctx rqstId
  | .cancelRequest rqstId => Dmis.cancelRequest ctx rqstId
  | .submitRequest rqstId version => Dmis.submitRequest ctx rqstId version

/-- The session of the user. -/
def Ctx.as (ctx : Ctx) (u : SessionUser) : Ctx := { ctx with canAccess := canAccessReliefRequest u }

/-- A post of the user, at a time and under lookup tables of its own. -/
def postStep (u : SessionUser) (db : Database) (p : Ctx × RequestPost) : Database :=
  db.after (p.2.route (p.1.as u))

/-! ## The forms that are taken -/

/-- The posted version, if there is one, is the request's. -/
def VersionField.Names (version : VersionField) (current : Nat) : Prop := version.given = true → version = .num current

/-- A form the edit of a draft takes. -/
structure HeaderPost.Fits (ctx : Ctx) (r : ReliefRqst) (post : HeaderPost) : Prop where
  version : post.version.Names r.versionNbr
  urgency : urgencyColumn post.urgencyInd ≠ none
  event : eventColumn ctx post.eligibleEventId ≠ none
  notes : noNul post.rqstNotesText

/-- An item row a draft takes. -/
structure ItemPost.Fits (ctx : Ctx) (rqstId : Nat) (t : Tables) (post : ItemPost) : Prop where
  item : 0 < safeId post.itemId
  goods : ∃ c, ctx.catalog (safeId post.itemId) = some c ∧ c.active = true ∧ c.goods = true
  date : post.requiredByDate ≠ .malformed
  reason : post.rqstReasonDesc.length ≤ 255 ∧ noNul post.rqstReasonDesc
  /-- The quantity is positive as it is stored, and fits the status of the row it replaces. -/
  qty : ∃ q, safeQuantity post.requestQty = .ok q ∧ 0 < numeric 2 q ∧
    ∀ i ∈ t.reliefrqstItem.get? (rqstId, safeId post.itemId), ({ i with requestQty := q } : ReliefRqstItem).rounded.C2a

def RequestPost.rqstId : RequestPost → Nat
  | .editRequest rqstId _ | .editItems rqstId _ | .deleteItem rqstId _ | .saveDraft rqstId | .cancelRequest rqstId
  | .submitRequest rqstId _ => rqstId

/-- What the route asks of the form beside the draft. -/
def RequestPost.Fits (ctx : Ctx) (t : Tables) (r : ReliefRqst) : RequestPost → Prop
  | .editRequest _ post => post.Fits ctx r
  | .editItems rqstId post => post.Fits ctx rqstId t
  | .deleteItem rqstId itemId => t.reliefrqstItem.get? (rqstId, itemId) ≠ none
  | .saveDraft _ => False
  | .cancelRequest rqstId => ∀ p ∈ t.reliefpkg.rows, p.reliefrqstId ≠ rqstId
  | .submitRequest rqstId version => version.Names r.versionNbr ∧ ∃ i ∈ t.rqstItems rqstId, 0 < i.requestQty

/-- The request is a draft, and the route takes the form. -/
def RequestPost.Taken (ctx : Ctx) (t : Tables) (post : RequestPost) : Prop :=
  ∃ r, t.reliefrqst.get? post.rqstId = some r ∧ r.statusCode = .draft ∧ post.Fits ctx t r

/-- The requests and their items. -/
def Tables.requests (t : Tables) : Table ReliefRqst × Table ReliefRqstItem := (t.reliefrqst, t.reliefrqstItem)

section
variable {t : Tables} {db : Database} {ctx : Ctx} {rqstId itemId : Nat} {r : ReliefRqst}

theorem draftGate_ok : draftGate ctx rqstId t = .ok r ↔
    t.reliefrqst.get? rqstId = some r ∧ ctx.canAccess r = true ∧ r.statusCode = .draft := by
  simp only [draftGate, bind_ok, check_ok, require_ok, pure_ok, exists_const]
  constructor
  · rintro ⟨r', hr, ha, hd, rfl⟩
    exact ⟨hr, ha, hd⟩
  · rintro ⟨hr, ha, hd⟩
    exact ⟨r, hr, ha, hd, rfl⟩

theorem postedVersion_names {version : VersionField} {current : Nat} :
    postedVersion version current = .ok (current : ℤ) ↔ version.Names current := by
  unfold postedVersion VersionField.Names VersionField.toInt
  cases version with
  | absent | blank => simp [VersionField.given]
  | malformed => simp [VersionField.given]
  | num n => simp [VersionField.given]

/-- When only the requests and their items were written. -/
theorem requests_consistent (hc : t.Consistent) {rows : Table ReliefRqst} {items : Table ReliefRqstItem} :
    ({ t with reliefrqst := rows, reliefrqstItem := items } : Tables).rounded.Consistent ↔
      (∀ r ∈ rows.rows, r.Check) ∧ (∀ i ∈ items.rows, i.rounded.Check) ∧
      (∀ i ∈ items.rows, i.reliefrqstId ∈ rows.keys) ∧ ∀ p ∈ t.reliefpkg.rows, p.reliefrqstId ∈ rows.keys := by
  have hrow : ∀ i ∈ items.rows, i.rounded ∈ (items.mapRows ReliefRqstItem.rounded key_rounded_rqstItem).rows :=
    fun i hi => List.mem_map_of_mem hi
  have hbatch : t.rounded.itembatch = t.itembatch := by rw [hc.stored]
  have hstock : t.rounded.inventory = t.inventory := by rw [hc.stored]
  have hpkgItem : t.rounded.reliefpkgItem = t.reliefpkgItem := by rw [hc.stored]
  constructor
  · intro h
    exact ⟨h.rqst, fun i hi => h.rqstItem _ (hrow i hi), fun i hi => h.fkRqstItem i.rounded (hrow i hi), h.fkPkg⟩
  · rintro ⟨hrqst, hitem, hfk, hpkg⟩
    exact
      { stored := rounded_rounded _
        pkItembatch := hbatch.symm ▸ hc.pkItembatch
        batch := fun b hb => hc.batch b (hbatch ▸ hb)
        inventory := fun v hv => hc.inventory v (hstock ▸ hv)
        rqst := hrqst
        rqstItem := fun i hi => by
          obtain ⟨j, hj, rfl⟩ := List.mem_map.1 hi
          exact hitem j hj
        pkg := hc.pkg
        pkgItem := fun i hi => hc.pkgItem i (hpkgItem ▸ hi)
        fkRqstItem := fun i hi => by
          obtain ⟨j, hj, rfl⟩ := List.mem_map.1 hi
          exact hfk j hj
        fkPkg := hpkg
        fkPkgItem := fun i hi => hc.fkPkgItem i (hpkgItem ▸ hi)
        fkBatch := fun i hi => hbatch.symm ▸ hc.fkBatch i (hpkgItem ▸ hi) }

/-- A route changes the requests under the condition under which it commits, if it then changes them. -/
theorem after_changes {route : Tables → Except Err Tables} {P : Prop}
    (hroute : ∀ t, route db.tables = .ok t → t.rounded.Consistent → P)
    (hwrites : P → ∃ t, route db.tables = .ok t ∧ t.rounded.Consistent ∧ t.rounded.requests ≠ db.tables.requests) :
    (db.after route).tables.requests ≠ db.tables.requests ↔ P := by
  constructor
  · refine after_cases (P := fun d => d.tables.requests ≠ db.tables.requests → P) (fun h => absurd rfl h) ?_
    intro db' t ht hc _ _
    exact hroute t ht hc
  · intro hP
    obtain ⟨t, ht, hc, hne⟩ := hwrites hP
    have hexec : db.exec route = .ok ⟨t.rounded, hc⟩ := exec_ok.2 ⟨t, ht, hc, rfl⟩
    rw [Database.after, hexec]
    exact hne

/-! ## One lemma for each route -/

/-- A draft passes the checks of its status with other values in its other columns. -/
theorem setRqst_consistent {r' : ReliefRqst} (hc : t.Consistent) (hcheck : r'.Check) :
    (t.setRqst r').rounded.Consistent := by
  have hrqst : t.rounded.reliefrqstItem = t.reliefrqstItem := by rw [hc.stored]
  refine (requests_consistent hc).2 ⟨fun x hx => ?_, fun i hi => ?_, fun i hi => ?_, fun p hp => ?_⟩
  · rcases Table.mem_set hx with rfl | ⟨hx, -⟩
    · exact hcheck
    · exact hc.rqst x hx
  · rw [rounded_rqstItem hc hi]
    exact hc.rqstItem i hi
  · rw [Table.keys_set]
    exact hc.fkRqstItem i hi
  · rw [Table.keys_set]
    exact hc.fkPkg p hp

theorem requests_ne_of_rqst {t' : Tables} {x : Nat} (h : t'.reliefrqst.get? x ≠ t.reliefrqst.get? x) :
    t'.rounded.requests ≠ t.requests := fun he => h (congrArg (fun tables => tables.1.get? x) he)

theorem requests_ne_of_item {t' : Tables} {k : Nat × Nat}
    (h : (t'.reliefrqstItem.get? k).map ReliefRqstItem.rounded ≠ t.reliefrqstItem.get? k) :
    t'.rounded.requests ≠ t.requests := by
  intro he
  have hget : (t'.reliefrqstItem.mapRows _ key_rounded_rqstItem).get? k = t.reliefrqstItem.get? k :=
    congrArg (fun x => x.2.get? k) he
  exact h (Table.get?_mapRows.symm.trans hget)

/-- The version of the row went up. -/
theorem setRqst_changes {r' : ReliefRqst} (hr : t.reliefrqst.get? rqstId = some r) (hid : r'.reliefrqstId = rqstId)
    (hversion : r'.versionNbr ≠ r.versionNbr) : (t.setRqst r').rounded.requests ≠ t.requests := by
  refine requests_ne_of_rqst (x := rqstId) fun h => hversion ?_
  have hget : (t.setRqst r').reliefrqst.get? rqstId = some r' := Table.get?_set_of_get? hr hid
  rw [hget, hr] at h
  cases h
  rfl

theorem draft_check (hc : t.Consistent) (hr : t.reliefrqst.get? rqstId = some r) (hd : r.statusCode = .draft) :
    r.reviewById = none ∧ r.actionById = none := by
  obtain ⟨-, h4, h5⟩ := hc.rqst r (Table.mem_of_get? hr)
  unfold ReliefRqst.C4a at h4
  unfold ReliefRqst.C5a at h5
  rw [hd] at h4 h5
  constructor
  · rcases h4 with ⟨h, -⟩ | ⟨-, h⟩
    · exact h
    · exact absurd h (by decide)
  · rcases h5 with ⟨h, -⟩ | ⟨-, h⟩
    · exact h
    · exact absurd h (by decide)

theorem editRequest_changes (hacc : ∀ r, ctx.canAccess r = true) {post : HeaderPost} :
    (db.after (editRequest ctx rqstId post)).tables.requests ≠ db.tables.requests ↔
      (RequestPost.editRequest rqstId post).Taken ctx db.tables := by
  refine after_changes (fun t ht _ => ?_) ?_
  · simp only [editRequest, bind_ok, check_ok, require_ok, exists_const] at ht
    obtain ⟨r, hgate, current, hcurrent, hversion, u, hu, e, he, hn, -⟩ := ht
    obtain ⟨hr, -, hd⟩ := draftGate_ok.1 hgate
    refine ⟨r, hr, hd, postedVersion_names.1 (hversion ▸ hcurrent), ?_, ?_, hn⟩
    · rw [hu]
      exact Option.some_ne_none u
    · rw [he]
      exact Option.some_ne_none e
  · rintro ⟨r, hr, hd, hfits⟩
    obtain ⟨u, hu⟩ := Option.ne_none_iff_exists'.1 hfits.urgency
    obtain ⟨e, he⟩ := Option.ne_none_iff_exists'.1 hfits.event
    refine ⟨db.tables.setRqst (r.edited u e post.rqstNotesText), ?_, ?_, ?_⟩
    · simp only [editRequest, bind_ok, check_ok, require_ok, pure_ok, exists_const]
      exact ⟨r, draftGate_ok.2 ⟨hr, hacc r, hd⟩, _, postedVersion_names.2 hfits.version, rfl, u, hu, e, he,
        hfits.notes, rfl⟩
    · exact setRqst_consistent db.consistent (db.consistent.rqst r (Table.mem_of_get? hr))
    · exact setRqst_changes hr (Table.key_of_get? hr) (Nat.succ_ne_self _)

theorem submitRequest_changes (hacc : ∀ r, ctx.canAccess r = true) {version : VersionField} :
    (db.after (submitRequest ctx rqstId version)).tables.requests ≠ db.tables.requests ↔
      (RequestPost.submitRequest rqstId version).Taken ctx db.tables := by
  refine after_changes (fun t ht _ => ?_) ?_
  · simp only [submitRequest, bind_ok, check_ok, require_ok, exists_const] at ht
    obtain ⟨r, hr, -, current, hcurrent, hd, hitems, hversion, -⟩ := ht
    exact ⟨r, hr, hd, postedVersion_names.1 (hversion ▸ hcurrent), hitems⟩
  · rintro ⟨r, hr, hd, hversion, hitems⟩
    refine ⟨db.tables.setRqst r.awaiting, ?_, ?_, ?_⟩
    · simp only [submitRequest, bind_ok, check_ok, require_ok, pure_ok, exists_const]
      exact ⟨r, hr, hacc r, _, postedVersion_names.2 hversion, hd, hitems, rfl, rfl⟩
    · obtain ⟨hreview, haction⟩ := draft_check db.consistent hr hd
      exact setRqst_consistent db.consistent
        ⟨.inr (show RqstStatus.awaitingApproval ∉ _ by decide), .inl ⟨hreview, Nat.one_lt_two⟩,
          .inl ⟨haction, show 1 < 4 by decide⟩⟩
    · exact setRqst_changes hr (Table.key_of_get? hr) (Nat.succ_ne_self _)

theorem deleteItem_changes (hacc : ∀ r, ctx.canAccess r = true) :
    (db.after (deleteItem ctx rqstId itemId)).tables.requests ≠ db.tables.requests ↔
      (RequestPost.deleteItem rqstId itemId).Taken ctx db.tables := by
  refine after_changes (fun t ht _ => ?_) ?_
  · simp only [deleteItem, bind_ok, check_ok, require_ok, exists_const] at ht
    obtain ⟨r, hr, -, hd, i, hi, -⟩ := ht
    refine ⟨r, hr, hd, ?_⟩
    show db.tables.reliefrqstItem.get? (rqstId, itemId) ≠ none
    rw [hi]
    exact Option.some_ne_none i
  · rintro ⟨r, hr, hd, hfits⟩
    obtain ⟨i, hi⟩ := Option.ne_none_iff_exists'.1 hfits
    refine ⟨{ db.tables with reliefrqstItem := db.tables.reliefrqstItem.deleteWhere fun i =>
      i.reliefrqstId = rqstId ∧ i.itemId = itemId }, ?_, ?_, requests_ne_of_item (k := (rqstId, itemId)) ?_⟩
    · simp only [deleteItem, bind_ok, check_ok, require_ok, pure_ok, exists_const]
      exact ⟨r, hr, hacc r, hd, i, hi, trivial⟩
    · refine (requests_consistent db.consistent).2 ⟨db.consistent.rqst, fun i hi => ?_, fun i hi => ?_,
        db.consistent.fkPkg⟩
      · have hi := (List.mem_filter.1 hi).1
        rw [rounded_rqstItem db.consistent hi]
        exact db.consistent.rqstItem i hi
      · exact db.consistent.fkRqstItem i (List.mem_filter.1 hi).1
    · have hkey : i.reliefrqstId = rqstId ∧ i.itemId = itemId := Prod.mk_inj.1 (Table.key_of_get? hi)
      simp [Table.get?_deleteWhere, hi, hkey]

/-- A request with a package cannot be cancelled. -/
theorem cancelRequest_changes (hacc : ∀ r, ctx.canAccess r = true) :
    (db.after (cancelRequest ctx rqstId)).tables.requests ≠ db.tables.requests ↔
      (RequestPost.cancelRequest rqstId).Taken ctx db.tables := by
  have hgone : ∀ {x}, x ∈ (db.tables.reliefrqst.deleteWhere fun r => r.reliefrqstId = rqstId).keys ↔
      x ∈ db.tables.reliefrqst.keys ∧ x ≠ rqstId := by
    intro x
    rw [Table.mem_keys_deleteWhere, Table.keys, List.mem_map]
    constructor
    · rintro ⟨r, hr, hne, rfl⟩
      exact ⟨⟨r, hr, rfl⟩, of_decide_eq_false hne⟩
    · rintro ⟨⟨r, hr, rfl⟩, hne⟩
      exact ⟨r, hr, decide_eq_false hne, rfl⟩
  refine after_changes (fun t ht hc => ?_) ?_
  · simp only [cancelRequest, bind_ok, pure_ok] at ht
    obtain ⟨r, hgate, rfl⟩ := ht
    obtain ⟨hr, -, hd⟩ := draftGate_ok.1 hgate
    exact ⟨r, hr, hd, fun p hp => (hgone.1 (((requests_consistent db.consistent).1 hc).2.2.2 p hp)).2⟩
  · rintro ⟨r, hr, hd, hfits⟩
    refine ⟨{ db.tables with
      reliefrqstItem := db.tables.reliefrqstItem.deleteWhere fun i => i.reliefrqstId = rqstId
      reliefrqst := db.tables.reliefrqst.deleteWhere fun r => r.reliefrqstId = rqstId }, ?_, ?_,
      requests_ne_of_rqst (x := rqstId) ?_⟩
    · simp only [cancelRequest, bind_ok, pure_ok]
      exact ⟨r, draftGate_ok.2 ⟨hr, hacc r, hd⟩, trivial⟩
    · refine (requests_consistent db.consistent).2 ⟨fun x hx => ?_, fun i hi => ?_, fun i hi => ?_, fun p hp => ?_⟩
      · exact db.consistent.rqst x (List.mem_filter.1 hx).1
      · have hi := (List.mem_filter.1 hi).1
        rw [rounded_rqstItem db.consistent hi]
        exact db.consistent.rqstItem i hi
      · obtain ⟨hi, hne⟩ := List.mem_filter.1 hi
        exact hgone.2 ⟨db.consistent.fkRqstItem i hi, by simpa using hne⟩
      · exact hgone.2 ⟨db.consistent.fkPkg p hp, hfits p hp⟩
    · have hkey : r.reliefrqstId = rqstId := Table.key_of_get? hr
      have hr : db.tables.reliefrqst.get? rqstId = some r := hr
      simp [Table.get?_deleteWhere, hr, hkey]

/-- The row `add_or_update_request_item` leaves, of the one it found. -/
def ItemEdit.row (e : ItemEdit) : Option ReliefRqstItem → ReliefRqstItem
  | some i => e.edited i
  | none => e.newItem

theorem key_row {e : ItemEdit} {seen : Option ReliefRqstItem} (hseen : ∀ i ∈ seen, key i = e.key) :
    key (e.row seen) = e.key := by
  cases seen with
  | none => rfl
  | some i => exact hseen i rfl

/-- With medium urgency, what is left of the checks is about the quantity. -/
theorem row_check {e : ItemEdit} {seen : Option ReliefRqstItem} (hurgency : e.urgencyInd = .medium)
    (hseen : ∀ i ∈ seen, i.Check) : (e.row seen).rounded.Check ↔
      0 < numeric 2 e.requestQty ∧
        ∀ i ∈ seen, ({ i with requestQty := e.requestQty } : ReliefRqstItem).rounded.C2a := by
  unfold ReliefRqstItem.Check
  cases seen with
  | none =>
    simp [ItemEdit.row, ItemEdit.newItem, ReliefRqstItem.rounded, ReliefRqstItem.C2a, hurgency, numeric_zero]
  | some i =>
    obtain ⟨-, -, -, -, hreason, haction⟩ := hseen i rfl
    constructor
    · rintro ⟨hq, hc2a, -⟩
      exact ⟨hq, fun j hj => by cases hj; exact hc2a⟩
    · rintro ⟨hq, hc2a⟩
      refine ⟨hq, hc2a i rfl, fun h => ?_, fun _ => .inr hurgency, hreason, haction⟩
      cases hurgency.symm.trans h

/-- Nothing stops the service. -/
theorem write_eq_upsert (e : ItemEdit) (t : Tables) : e.write (t.reliefrqstItem.get? e.key) t =
    .ok { t with
      reliefrqstItem := t.reliefrqstItem.upsert (e.row (t.reliefrqstItem.get? e.key)) } := by
  unfold ItemEdit.write Table.upsert
  cases hseen : t.reliefrqstItem.get? e.key with
  | none =>
    obtain ⟨items, hitems⟩ : ∃ items, t.reliefrqstItem.insert e.newItem = some items :=
      ⟨_, dif_neg (Table.get?_eq_none.1 hseen)⟩
    simp only [ItemEdit.row, hitems]
    rfl
  | some i =>
    have hnone : t.reliefrqstItem.insert (e.edited i) = none :=
      dif_pos (List.mem_map.2 ⟨i, Table.mem_of_get? hseen, rfl⟩)
    simp only [ItemEdit.row, Table.update?, if_pos (Table.current_of_get? hseen), hnone]
    rfl

/-- The row is stored when it passes the checks, and then something has changed. -/
theorem upsert_changes {e : ItemEdit} (hc : t.Consistent) (hrqst : e.reliefrqstId ∈ t.reliefrqst.keys)
    (hcheck : (e.row (t.reliefrqstItem.get? e.key)).rounded.Check) :
    let t' := { t with
      reliefrqstItem := t.reliefrqstItem.upsert (e.row (t.reliefrqstItem.get? e.key)) }
    t'.rounded.Consistent ∧ t'.rounded.requests ≠ t.requests := by
  have hkey : key (e.row (t.reliefrqstItem.get? e.key)) = e.key := key_row fun i hi => Table.key_of_get? hi
  refine ⟨(requests_consistent hc).2 ⟨hc.rqst, fun i hi => ?_, fun i hi => ?_, hc.fkPkg⟩,
    requests_ne_of_item (k := e.key) ?_⟩
  · rcases Table.mem_upsert hi with rfl | hi
    · exact hcheck
    · rw [rounded_rqstItem hc hi]
      exact hc.rqstItem i hi
  · rcases Table.mem_upsert hi with rfl | hi
    · rwa [show (e.row (t.reliefrqstItem.get? e.key)).reliefrqstId = e.reliefrqstId from congrArg Prod.fst hkey]
    · exact hc.fkRqstItem i hi
  · rw [Table.get?_upsert, if_pos hkey]
    cases t.reliefrqstItem.get? e.key with
    | none => exact Option.some_ne_none _
    | some i =>
      intro h
      have hversion : i.versionNbr + 1 = i.versionNbr := congrArg ReliefRqstItem.versionNbr (Option.some.inj h)
      exact Nat.succ_ne_self _ hversion

theorem editItemsColumns_changes (hacc : ∀ r, ctx.canAccess r = true) {post : ItemPost} :
    (db.after (editItemsColumns ctx rqstId post)).tables.requests ≠ db.tables.requests ↔
      (RequestPost.editItems rqstId post).Taken ctx db.tables := by
  have hseen : ∀ {k}, ∀ i ∈ db.tables.reliefrqstItem.get? k, i.Check := fun i hi =>
    db.consistent.rqstItem i (Table.mem_of_get? hi)
  refine after_changes (fun t ht hc => ?_) ?_
  · simp only [editItemsColumns, editItems_eq, bind_ok, check_ok, pure_ok, exists_const] at ht
    obtain ⟨t', ⟨e, hgate, hadd⟩, hreason, rfl⟩ := ht
    rw [← ItemEdit.write_get? (editGate_ok hgate).2.1, write_eq_upsert] at hadd
    cases hadd
    simp only [editGate, bind_ok, check_ok, require_ok, pure_ok, exists_const] at hgate
    obtain ⟨r, hr, -, hd, hitem, q, hq, requiredBy, hdate, c, hcat, hactive, hgoods, hpos, -, -, he⟩ := hgate
    have hurgency : e.urgencyInd = .medium := by
      rw [← he]
      exact editUrgency_eq _
    have hrow := Table.mem_of_get? ((Table.get?_upsert (t := db.tables.reliefrqstItem)
      (r := e.row (db.tables.reliefrqstItem.get? e.key))).trans (if_pos rfl))
    have hchecks := ((requests_consistent db.consistent).1 hc).2.1 _ hrow
    have hfits := (row_check hurgency hseen).1 hchecks
    subst he
    refine ⟨r, hr, hd, hitem, ⟨c, hcat, hactive, hgoods⟩, fun h => ?_, hreason, q, hq, hfits⟩
    rw [h] at hdate
    cases hdate
  · rintro ⟨r, hr, hd, hfits⟩
    obtain ⟨c, hcat, hactive, hgoods⟩ := hfits.goods
    obtain ⟨q, hq, hpos, hc2a⟩ := hfits.qty
    obtain ⟨requiredBy, hdate⟩ : ∃ d, post.requiredByDate.parse = .ok d := by
      cases h : post.requiredByDate with
      | malformed => exact absurd h hfits.date
      | blank => exact ⟨_, rfl⟩
      | day d => exact ⟨_, rfl⟩
    let e : ItemEdit := ⟨rqstId, safeId post.itemId, q, .medium, some post.rqstReasonDesc, requiredBy⟩
    have hgate : editGate ctx rqstId post db.tables = .ok e := by
      simp only [editGate, bind_ok, check_ok, require_ok, pure_ok, exists_const, editUrgency_eq]
      exact ⟨r, hr, hacc r, hd, hfits.item, q, hq, requiredBy, hdate, c, hcat, hactive, hgoods,
        pos_of_numeric_pos hpos, fun h => absurd h (by decide), fun h => absurd h (by decide), rfl⟩
    have hroute : editItemsColumns ctx rqstId post db.tables = .ok { db.tables with
        reliefrqstItem := db.tables.reliefrqstItem.upsert (e.row (db.tables.reliefrqstItem.get? e.key)) } := by
      simp only [editItemsColumns, editItems_eq, bind_ok, check_ok, pure_ok, exists_const]
      refine ⟨_, ⟨e, hgate, ?_⟩, hfits.reason, rfl⟩
      have hadd := ItemEdit.write_get? (t := db.tables) (e := e) (pos_of_numeric_pos hpos)
      exact hadd.symm.trans (write_eq_upsert e db.tables)
    exact ⟨_, hroute, upsert_changes db.consistent (List.mem_map.2 ⟨r, Table.mem_of_get? hr, Table.key_of_get? hr⟩)
      ((row_check rfl hseen).2 ⟨hpos, hc2a⟩)⟩

/-- A post changes the requests exactly if its route takes it. -/
theorem route_changes (db : Database) (hacc : ∀ r, ctx.canAccess r = true) (post : RequestPost) :
    (db.after (post.route ctx)).tables.requests ≠ db.tables.requests ↔ post.Taken ctx db.tables := by
  cases post with
  | editRequest rqstId post => exact editRequest_changes hacc
  | editItems rqstId post => exact editItemsColumns_changes hacc
  | deleteItem rqstId itemId => exact deleteItem_changes hacc
  | cancelRequest rqstId => exact cancelRequest_changes hacc
  | submitRequest rqstId version => exact submitRequest_changes hacc
  | saveDraft rqstId =>
    refine iff_of_false (fun h => h ?_) fun ⟨_, _, _, hfits⟩ => hfits
    refine after_cases (P := fun d => d.tables.requests = db.tables.requests) rfl fun db' t ht _ he => ?_
    simp only [RequestPost.route, saveDraftRequest, bind_ok, pure_ok] at ht
    obtain ⟨_, _, rfl⟩ := ht
    rw [he, db.consistent.stored]

/-- A request that is no draft stays as it is. -/
theorem not_taken {post : RequestPost} (h : ∀ r ∈ t.reliefrqst.get? post.rqstId, r.statusCode ≠ .draft) :
    ¬ post.Taken ctx t := fun ⟨r, hr, hd, _⟩ => h r hr hd

end

/-! ## Runs -/

/-- Who posts does not matter for the form. -/
theorem taken_as {u : SessionUser} {ctx : Ctx} {t : Tables} {post : RequestPost} :
    post.Taken (ctx.as u) t ↔ post.Taken ctx t := by
  refine exists_congr fun r => and_congr_right fun _ => and_congr_right fun _ => ?_
  cases post with
  | editRequest rqstId post => exact ⟨fun ⟨v, h, e, n⟩ => ⟨v, h, e, n⟩, fun ⟨v, h, e, n⟩ => ⟨v, h, e, n⟩⟩
  | editItems rqstId post => exact ⟨fun ⟨i, g, d, h, q⟩ => ⟨i, g, d, h, q⟩, fun ⟨i, g, d, h, q⟩ => ⟨i, g, d, h, q⟩⟩
  | _ => exact Iff.rfl

theorem postStep_changes {u : SessionUser} (hu : u.ExecutiveOnly) (db : Database) (p : Ctx × RequestPost) :
    (postStep u db p).tables.requests ≠ db.tables.requests ↔ p.2.Taken p.1 db.tables := by
  have hacc : ∀ r, (p.1.as u).canAccess r = true := hu.canAccess
  exact (route_changes db hacc p.2).trans taken_as

/-- **Executive access is read-only** along a run exactly when no post of it is taken. -/
theorem executive_read_only {u : SessionUser} (hu : u.ExecutiveOnly) (db : Database)
    (posts : List (Ctx × RequestPost)) :
    (∀ done, done <+: posts → (run (postStep u) db done).tables.requests = db.tables.requests) ↔
      Along (postStep u) (fun d p => ¬ p.2.Taken p.1 d.tables) db posts := by
  induction posts generalizing db with
  | nil =>
    refine iff_of_true (fun done hdone => ?_) trivial
    rw [List.prefix_nil.1 hdone]
    rfl
  | cons p posts ih =>
    have hstep := not_congr (postStep_changes hu db p)
    rw [not_not] at hstep
    constructor
    · intro h
      have hfirst : (postStep u db p).tables.requests = db.tables.requests :=
        h [p] (List.cons_prefix_cons.2 ⟨rfl, List.nil_prefix⟩)
      refine ⟨hstep.1 hfirst, (ih _).1 fun done hdone => ?_⟩
      rw [hfirst]
      exact h (p :: done) (List.cons_prefix_cons.2 ⟨rfl, hdone⟩)
    · rintro ⟨hfirst, hrest⟩ done hdone
      cases done with
      | nil => rfl
      | cons p' done =>
        obtain ⟨rfl, htail⟩ := List.cons_prefix_cons.1 hdone
        rw [run_cons, (ih _).2 hrest done htail]
        exact hstep.2 hfirst

namespace Site

def director : SessionUser := ⟨true, ["ODPEM_DG"], none⟩

theorem director_executive : director.ExecutiveOnly := ⟨rfl, by decide, by decide, rfl⟩

end Site

/-- A request that was submitted. -/
theorem executive_read_only_site :
    Site.director.ExecutiveOnly ∧
    ∀ done, done <+: [(Site.agency, RequestPost.cancelRequest 1), (Site.agency, .submitRequest 1 .absent)] →
      (run (postStep Site.director) Site.db done).tables.requests = Site.db.tables.requests :=
  ⟨Site.director_executive, (executive_read_only Site.director_executive Site.db _).2
    ⟨not_taken (by decide +kernel), not_taken (by decide +kernel), trivial⟩⟩

/-- A director cancels a draft of an agency. -/
theorem executive_cancels_draft :
    Site.director.ExecutiveOnly ∧
    (run (postStep Site.director) Site.draft [(Site.agency, .cancelRequest 1)]).tables.reliefrqst.keys = [] ∧
    ¬ ∀ done, done <+: [(Site.agency, RequestPost.cancelRequest 1)] →
      (run (postStep Site.director) Site.draft done).tables.requests = Site.draft.tables.requests := by
  have hgone :
      (run (postStep Site.director) Site.draft [(Site.agency, .cancelRequest 1)]).tables.reliefrqst.keys = [] := by
    decide +kernel
  refine ⟨Site.director_executive, hgone, fun h => ?_⟩
  have hkeys := congrArg (fun tables => tables.1.keys) (h _ List.prefix_rfl)
  exact absurd (hgone.symm.trans hkeys) (by decide +kernel)

end Dmis
