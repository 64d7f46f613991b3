import Dmis.RequestItems
import Dmis.Eligibility
import Dmis.Lib.Sessions

/-!
# Edits that race with a submission

`edit_items`, `delete_item` and `submit_request` as they run in sessions of their own: each reads the
request, then the items, and commits. The draft check reads `reliefrqst`, the writes of an edit go to
`reliefrqst_item`, and only the row that is written has its version compared.

| here | there |
| --- | --- |
| `editGate`, `ItemEdit.write` | `edit_items` (`requests_aidmgmt.py:357-442`), `add_or_update_request_item` (`:149-215`) |
| `deleteGate`, `removeItem` | `delete_item`, `delete_request_item` (`:424-453`) |
| `submitGate`, `submitWrite` | `submit_request` (`:565-608`), the service (`:218-270`) |

`alone` says that a session nobody disturbs is the operation of `Op`; `submitted_items_frozen` says under
which condition on the order of the turns a submitted request keeps the items it was submitted with.
-/

namespace Dmis

open Relational Keyed

instance : Versioned ReliefRqst := ⟨ReliefRqst.versionNbr⟩
instance : Versioned ReliefRqstItem := ⟨ReliefRqstItem.versionNbr⟩

/-! ## The reads and the writes -/

/-- The arguments of `add_or_update_request_item`. -/
structure ItemEdit where
  reliefrqstId : Nat
  itemId : Nat
  requestQty : ℚ
  urgencyInd : Urgency
  rqstReasonDesc : Option String
  requiredByDate : Option Day

/-- `edit_items` up to the call of the service. -/
def editGate (ctx : Ctx) (rqstId : Nat) (post : ItemPost) (t : Tables) : Except Err ItemEdit := do
  let r ← require (t.reliefrqst.get? rqstId) .notFound
  check (ctx.canAccess r = true) .accessDenied
  check (r.statusCode = .draft) (.notDraft r.statusCode)
  let itemId := safeId post.itemId
  check (0 < itemId) .notFound
  let qty ← safeQuantity post.requestQty
  let urgency := editUrgency post.urgencyInd
  let requiredBy ← post.requiredByDate.parse
  let item ← require (ctx.catalog itemId) .notFound
  check (item.active = true) .itemInactive
  check (item.goods = true) .itemNotGoods
  check (0 < qty) .quantityNotPositive
  check (urgency = .high → requiredBy ≠ none) .dateRequired
  check (urgency = .high → post.rqstReasonDesc ≠ "") .justificationRequired
  pure ⟨rqstId, itemId, qty, urgency, some post.rqstReasonDesc, requiredBy⟩

def ItemEdit.key (e : ItemEdit) : Nat × Nat := (e.reliefrqstId, e.itemId)

def ItemEdit.edited (e : ItemEdit) (i : ReliefRqstItem) : ReliefRqstItem :=
  { i with
    requestQty := e.requestQty
    urgencyInd := e.urgencyInd
    rqstReasonDesc := e.rqstReasonDesc
    requiredByDate := e.requiredByDate
    versionNbr := i.versionNbr + 1 }

def ItemEdit.newItem (e : ItemEdit) : ReliefRqstItem :=
  { reliefrqstId := e.reliefrqstId
    itemId := e.itemId
    requestQty := e.requestQty
    issueQty := 0
    urgencyInd := e.urgencyInd
    rqstReasonDesc := e.rqstReasonDesc
    requiredByDate := e.requiredByDate
    statusCode := .requested
    statusReasonDesc := none
    actionById := none
    versionNbr := 1 }

/-- The `UPDATE` of the row that was read, or the `INSERT` if there was none. -/
def ItemEdit.write (e : ItemEdit) (seen : Option ReliefRqstItem) (t : Tables) : Except Err Tables := do
  let rows ← match seen with
    | some i => require (t.reliefrqstItem.update? i (e.edited i)) .staleVersion
    | none => require (t.reliefrqstItem.insert e.newItem) .integrityError
  pure { t with reliefrqstItem := rows }

def deleteGate (ctx : Ctx) (rqstId : Nat) (t : Tables) : Except Err Unit := do
  let r ← require (t.reliefrqst.get? rqstId) .notFound
  check (ctx.canAccess r = true) .accessDenied
  check (r.statusCode = .draft) (.notDraft r.statusCode)

def removeItem (seen : ReliefRqstItem) (t : Tables) : Except Err Tables := do
  let rows ← require (t.reliefrqstItem.delete? seen) .staleVersion
  pure { t with reliefrqstItem := rows }

/-- `submit_request` up to the items: the request, and the version to compare with. -/
def submitGate (ctx : Ctx) (rqstId : Nat) (version : VersionField) (t : Tables) : Except Err (ReliefRqst × ℤ) := do
  let r ← require (t.reliefrqst.get? rqstId) .notFound
  check (ctx.canAccess r = true) .accessDenied
  let current ← postedVersion version r.versionNbr
  check (r.statusCode = .draft) (.notDraft r.statusCode)
  pure (r, current)

/-- The checks on the items and the version. -/
def submitItems (r : ReliefRqst) (current : ℤ) (t : Tables) : Except Err Unit := do
  check (∃ i ∈ t.rqstItems r.reliefrqstId, 0 < i.requestQty) .noItems
  check (r.versionNbr = current) .staleVersion

def ReliefRqst.awaiting (r : ReliefRqst) : ReliefRqst :=
  { r with statusCode := .awaitingApproval, versionNbr := r.versionNbr + 1 }

def submitWrite (r : ReliefRqst) (t : Tables) : Except Err Tables := do
  let rows ← require (t.reliefrqst.update? r r.awaiting) .staleVersion
  pure { t with reliefrqst := rows }

/-! ## Sessions -/

/-- A post to one of the three routes. -/
inductive RequestOp where
  | editItems (ctx : Ctx) (rqstId : Nat) (post : ItemPost)
  | deleteItem (ctx : Ctx) (rqstId itemId : Nat)
  | submitRequest (ctx : Ctx) (rqstId : Nat) (version : VersionField)

def RequestOp.op : RequestOp → Op
  | .editItems ctx rqstId post => .editItems ctx rqstId post
  | .deleteItem ctx rqstId itemId => .deleteItem ctx rqstId itemId
  | .submitRequest ctx rqstId version => .submitRequest ctx rqstId version

/-- How far a session is. -/
inductive RequestTask where
  | begun (op : RequestOp)
  /-- The draft check passed; the item is read next. -/
  | editing (e : ItemEdit)
  | deleting (rqstId itemId : Nat)
  | submitting (r : ReliefRqst) (current : ℤ)
  /-- Everything is read and checked; the commit is next. -/
  | writing (e : ItemEdit) (seen : Option ReliefRqstItem)
  | removing (seen : ReliefRqstItem)
  | posting (r : ReliefRqst)
  | ended

/-- A read: the session goes on as `next` says, and ends on an error. -/
def goOn {α : Type} (next : α → RequestTask) : Except Err α → RequestTask
  | .ok a => next a
  | .error _ => .ended

def RequestTask.act (_ : Nat) (db : Database) : RequestTask → Database × RequestTask
  | .begun (.editItems ctx rqstId post) => (db, goOn .editing (editGate ctx rqstId post db.tables))
  | .begun (.deleteItem ctx rqstId itemId) =>
    (db, goOn (fun _ => .deleting rqstId itemId) (deleteGate ctx rqstId db.tables))
  | .begun (.submitRequest ctx rqstId version) =>
    (db, goOn (fun p => .submitting p.1 p.2) (submitGate ctx rqstId version db.tables))
  | .editing e => (db, .writing e (db.tables.reliefrqstItem.get? e.key))
  | .deleting rqstId itemId =>
    (db, goOn .removing (require (db.tables.reliefrqstItem.get? (rqstId, itemId)) .itemNotInRequest))
  | .submitting r current => (db, goOn (fun _ => .posting r) (submitItems r current db.tables))
  | .writing e seen => (db.after (e.write seen), .ended)
  | .removing seen => (db.after (removeItem seen), .ended)
  | .posting r => (db.after (submitWrite r), .ended)
  | .ended => (db, .ended)

abbrev RequestWorld := Sessions Database RequestTask

def nextRequests : RequestWorld → Turn RequestOp → RequestWorld := Sessions.next RequestTask.begun RequestTask.act

/-! ## A session nobody disturbs -/

section
variable {t t' : Tables} {ctx : Ctx} {rqstId itemId : Nat} {post : ItemPost} {version : VersionField} {e : ItemEdit}

theorem editItems_eq (ctx : Ctx) (rqstId : Nat) (post : ItemPost) (t : Tables) :
    editItems ctx rqstId post t = (editGate ctx rqstId post t >>= fun e =>
      addOrUpdateRequestItem e.reliefrqstId e.itemId e.requestQty e.urgencyInd e.rqstReasonDesc e.requiredByDate t) := by
  simp only [editItems, editGate, bind_assoc, pure_bind]

/-- What the draft check of `edit_items` saw, and what it passes on. -/
theorem editGate_ok (h : editGate ctx rqstId post t = .ok e) :
    e.reliefrqstId = rqstId ∧ 0 < e.requestQty ∧ ∃ r, t.reliefrqst.get? rqstId = some r ∧ r.statusCode = .draft := by
  simp only [editGate, bind_ok, check_ok, require_ok, pure_ok] at h
  obtain ⟨r, hr, _, -, _, hd, _, -, qty, -, _, -, _, -, _, -, _, -, _, hpos, _, -, _, -, rfl⟩ := h
  exact ⟨rfl, hpos, r, hr, hd⟩

theorem deleteGate_ok {u : Unit} (h : deleteGate ctx rqstId t = .ok u) :
    ∃ r, t.reliefrqst.get? rqstId = some r ∧ r.statusCode = .draft := by
  simp only [deleteGate, bind_ok, check_ok, require_ok] at h
  obtain ⟨r, hr, _, -, hd⟩ := h
  exact ⟨r, hr, hd⟩

theorem submitGate_ok {r : ReliefRqst} {current : ℤ} (h : submitGate ctx rqstId version t = .ok (r, current)) :
    t.reliefrqst.get? rqstId = some r ∧ r.statusCode = .draft := by
  simp only [submitGate, bind_ok, check_ok, require_ok, pure_ok] at h
  obtain ⟨r', hr, _, -, _, -, _, hd, he⟩ := h
  cases he
  exact ⟨hr, hd⟩

/-- The write of a row just read is `add_or_update_request_item`. -/
theorem ItemEdit.write_get? (hpos : 0 < e.requestQty) : e.write (t.reliefrqstItem.get? e.key) t =
    addOrUpdateRequestItem e.reliefrqstId e.itemId e.requestQty e.urgencyInd e.rqstReasonDesc e.requiredByDate t := by
  have hcheck : check (0 < e.requestQty) Err.quantityNotPositive = .ok () := check_ok.2 hpos
  unfold ItemEdit.write addOrUpdateRequestItem
  rw [hcheck]
  change _ = (match t.reliefrqstItem.get? e.key with | some i => _ | none => _)
  cases hi : t.reliefrqstItem.get? e.key with
  | none => rfl
  | some i =>
    simp only [Table.update?, if_pos (Table.current_of_get? hi)]
    rfl

theorem removeItem_get? {i : ReliefRqstItem} (hi : t.reliefrqstItem.get? (rqstId, itemId) = some i) :
    removeItem i t = .ok { t with reliefrqstItem := t.reliefrqstItem.deleteWhere fun i =>
      i.reliefrqstId = rqstId ∧ i.itemId = itemId } := by
  have hk : key i = (rqstId, itemId) := Table.key_of_get? hi
  have hp : (fun r : ReliefRqstItem => decide (key r = key i)) =
      fun r => decide (r.reliefrqstId = rqstId ∧ r.itemId = itemId) := by
    funext r
    rw [hk]
    exact decide_eq_decide.2 Prod.mk_inj
  unfold removeItem Table.delete?
  rw [if_pos (Table.current_of_get? hi), hp]
  rfl

theorem submitWrite_get? {r : ReliefRqst} (hr : t.reliefrqst.get? rqstId = some r) :
    submitWrite r t = .ok (t.setRqst r.awaiting) := by
  unfold submitWrite Table.update?
  rw [if_pos (Table.current_of_get? hr)]
  rfl

theorem after_congr {f g : Tables → Except Err Tables} {db : Database} (h : f db.tables = g db.tables) :
    db.after f = db.after g := by
  unfold Database.after Database.exec
  rw [h]

theorem after_error {f : Tables → Except Err Tables} {db : Database} {err : Err} (h : f db.tables = .error err) :
    db.after f = db := by
  unfold Database.after Database.exec
  rw [h]
  rfl

theorem deleteItem_eq (ctx : Ctx) (rqstId itemId : Nat) (t : Tables) :
    deleteItem ctx rqstId itemId t = (deleteGate ctx rqstId t >>= fun _ =>
      require (t.reliefrqstItem.get? (rqstId, itemId)) .itemNotInRequest >>= fun i => removeItem i t) := by
  have hrest : (require (t.reliefrqstItem.get? (rqstId, itemId)) Err.itemNotInRequest >>= fun i => removeItem i t) =
      (require (t.reliefrqstItem.get? (rqstId, itemId)) Err.itemNotInRequest >>= fun _ =>
        pure { t with reliefrqstItem := t.reliefrqstItem.deleteWhere fun i =>
          i.reliefrqstId = rqstId ∧ i.itemId = itemId }) := by
    cases hi : t.reliefrqstItem.get? (rqstId, itemId) with
    | none => rfl
    | some i => exact removeItem_get? hi
  simp only [deleteItem, deleteGate, bind_assoc, hrest]

theorem submitRequest_eq (ctx : Ctx) (rqstId : Nat) (version : VersionField) (t : Tables) :
    submitRequest ctx rqstId version t = (submitGate ctx rqstId version t >>= fun p =>
      submitItems p.1 p.2 t >>= fun _ => submitWrite p.1 t) := by
  unfold submitRequest submitGate
  cases hr : t.reliefrqst.get? rqstId with
  | none => rfl
  | some r =>
    obtain rfl : r.reliefrqstId = rqstId := Table.key_of_get? hr
    have hok : ∀ {β : Type} (f : ReliefRqst → Except Err β), ((Except.ok r : Except Err ReliefRqst) >>= f) = f r :=
      fun _ => rfl
    simp only [submitItems, bind_assoc, pure_bind, require, hok, submitWrite_get? hr]
    rfl

/-- **A session nobody disturbs** does what the operation does. -/
theorem alone (db : Database) (op : RequestOp) :
    (run nextRequests ⟨db, []⟩ [.start op, .turn 0, .turn 0, .turn 0]).store = step db op.op := by
  simp only [run_cons, run_nil, nextRequests, Sessions.next_first, Sessions.next_only, step]
  cases op with
  | editItems ctx rqstId post =>
    have hroute := editItems_eq ctx rqstId post db.tables
    cases hg : editGate ctx rqstId post db.tables with
    | error err =>
      simp only [RequestTask.act, hg, goOn]
      exact (after_error (hroute.trans (by rw [hg]; rfl))).symm
    | ok e =>
      simp only [RequestTask.act, hg, goOn]
      refine after_congr ?_
      rw [ItemEdit.write_get? (editGate_ok hg).2.1]
      exact (hroute.trans (by rw [hg]; rfl)).symm
  | deleteItem ctx rqstId itemId =>
    have hroute := deleteItem_eq ctx rqstId itemId db.tables
    cases hg : deleteGate ctx rqstId db.tables with
    | error err =>
      simp only [RequestTask.act, hg, goOn]
      exact (after_error (hroute.trans (by rw [hg]; rfl))).symm
    | ok u =>
      rw [hg] at hroute
      cases hi : db.tables.reliefrqstItem.get? (rqstId, itemId) with
      | none =>
        simp only [RequestTask.act, hg, goOn, hi, require]
        exact (after_error (hroute.trans (by rw [hi]; rfl))).symm
      | some i =>
        simp only [RequestTask.act, hg, goOn, hi, require]
        exact after_congr (hroute.trans (by rw [hi]; rfl)).symm
  | submitRequest ctx rqstId version =>
    have hroute := submitRequest_eq ctx rqstId version db.tables
    cases hg : submitGate ctx rqstId version db.tables with
    | error err =>
      simp only [RequestTask.act, hg, goOn]
      exact (after_error (hroute.trans (by rw [hg]; rfl))).symm
    | ok p =>
      rw [hg] at hroute
      cases hi : submitItems p.1 p.2 db.tables with
      | error err =>
        simp only [RequestTask.act, hg, goOn, hi]
        exact (after_error (hroute.trans (by change (submitItems p.1 p.2 db.tables >>= _) = _; rw [hi]; rfl))).symm
      | ok u =>
        simp only [RequestTask.act, hg, goOn, hi]
        exact after_congr (hroute.trans (by change (submitItems p.1 p.2 db.tables >>= _) = _; rw [hi]; rfl)).symm

end

/-! ## What a turn does to a request -/

def Tables.rqstStatus (t : Tables) (rqstId : Nat) : Option RqstStatus :=
  (t.reliefrqst.get? rqstId).map ReliefRqst.statusCode

/-- The draft check of the request has passed, and its item is yet to be written. -/
def RequestTask.Editing (rqstId : Nat) : RequestTask → Prop
  | .editing e | .writing e _ => e.reliefrqstId = rqstId
  | .deleting id _ => id = rqstId
  | .removing seen => seen.reliefrqstId = rqstId
  | _ => False

/-- The items of the request are checked, and its submission is yet to be written. -/
def RequestTask.Posting (rqstId : Nat) : RequestTask → Prop
  | .posting r => r.reliefrqstId = rqstId
  | _ => False

instance (rqstId : Nat) : DecidablePred (RequestTask.Editing rqstId) := fun x => by
  unfold RequestTask.Editing; split <;> infer_instance
instance (rqstId : Nat) : DecidablePred (RequestTask.Posting rqstId) := fun x => by
  unfold RequestTask.Posting; split <;> infer_instance

/-- A turn of a session that was at `x`. -/
inductive RequestsStep (x : RequestTask) (t t' : Tables) : Prop where
  | same (same : t' = t)
  | edit {rqstId} (editing : x.Editing rqstId) (rqst : t'.reliefrqst = t.reliefrqst)
      (others : ∀ id, id ≠ rqstId → t'.rqstItems id = t.rqstItems id)
      (nonempty : t.rqstItems rqstId ≠ [] → t'.rqstItems rqstId ≠ [])
  | delete {seen} (removing : x = .removing seen) (current : t.reliefrqstItem.Current seen)
      (rqst : t'.reliefrqst = t.reliefrqst)
      (others : ∀ id, id ≠ seen.reliefrqstId → t'.rqstItems id = t.rqstItems id)
      (nonempty : (∃ i ∈ t.rqstItems seen.reliefrqstId, key i ≠ key seen) → t'.rqstItems seen.reliefrqstId ≠ [])
  | submit {r} (posting : x = .posting r) (current : t.reliefrqst.Current r)
      (rqst : t'.reliefrqst = t.reliefrqst.set r.awaiting) (items : ∀ id, t'.rqstItems id = t.rqstItems id)

section
variable {db : Database} {t t' : Tables} {rqstId : Nat} {e : ItemEdit} {r : ReliefRqst} {x : RequestTask}

/-- What holds after a rollback and of every committed result holds afterwards. -/
theorem after_cases {P : Database → Prop} {f : Tables → Except Err Tables} (hrollback : P db)
    (hcommit : ∀ db' t, f db.tables = .ok t → t.rounded.Consistent → db'.tables = t.rounded → P db') :
    P (db.after f) := by
  unfold Database.after
  cases h : db.exec f with
  | error err => exact hrollback
  | ok db' =>
    obtain ⟨t, ht, hc, he⟩ := exec_ok.1 h
    exact hcommit db' t ht hc he

/-- A commit does not change the items the route left alone. -/
theorem rounded_rqstItems_of_eq (hc : t.Consistent) (h : t'.rqstItems rqstId = t.rqstItems rqstId) :
    t'.rounded.rqstItems rqstId = t.rqstItems rqstId := by
  rw [rounded_rqstItems, h, ← rounded_rqstItems, hc.stored]

theorem rqstItems_ne_nil {i : ReliefRqstItem} (hi : i ∈ t.reliefrqstItem.rows) : t.rqstItems i.reliefrqstId ≠ [] :=
  List.ne_nil_of_mem (Tables.mem_rqstItems.2 ⟨hi, rfl⟩)

theorem insert_step : RequestsStep (.writing e none) db.tables (db.after (e.write none)).tables := by
  refine after_cases (P := fun d => RequestsStep (.writing e none) db.tables d.tables) (.same rfl) ?_
  intro db' t ht _ he
  rw [he]
  simp only [ItemEdit.write, bind_ok, pure_ok, require_ok] at ht
  obtain ⟨rows, hrows, rfl⟩ := ht
  refine .edit (show _ = e.reliefrqstId from rfl) rfl (fun id hid => ?_) fun _ => ?_
  · exact rounded_rqstItems_of_eq db.consistent (Table.select_insert hrows (decide_eq_false (Ne.symm hid)))
  · have hmem : e.newItem ∈ rows.rows := by rw [(Table.insert_eq_some.1 hrows).2]; simp
    rw [rounded_rqstItems, ne_eq, List.map_eq_nil_iff]
    exact rqstItems_ne_nil (t := { db.tables with reliefrqstItem := rows }) hmem

theorem update_step {i : ReliefRqstItem} (hk : key i = e.key) :
    RequestsStep (.writing e (some i)) db.tables (db.after (e.write (some i))).tables := by
  refine after_cases (P := fun d => RequestsStep (.writing e (some i)) db.tables d.tables) (.same rfl) ?_
  intro db' t ht _ he
  rw [he]
  simp only [ItemEdit.write, bind_ok, pure_ok, require_ok, Table.update?_eq_some] at ht
  obtain ⟨_, ⟨hcur, rfl⟩, rfl⟩ := ht
  have hi : i.reliefrqstId = e.reliefrqstId := congrArg Prod.fst hk
  refine .edit (show _ = e.reliefrqstId from rfl) rfl (fun id hid => ?_) fun _ => ?_
  · have hne : i.reliefrqstId ≠ id := fun h => hid (h.symm.trans hi)
    refine rounded_rqstItems_of_eq db.consistent (Table.select_set (decide_eq_false hne) fun x hx => ?_)
    have hx : x.reliefrqstId = i.reliefrqstId := congrArg Prod.fst (Table.key_of_get? hx)
    exact decide_eq_false (hx ▸ hne)
  · -- the row is there, since its version was compared
    obtain ⟨old, hold, -⟩ := Option.map_eq_some_iff.1 hcur
    have hget : (db.tables.reliefrqstItem.set (e.edited i)).get? (key i) = some (e.edited i) :=
      Table.get?_set_of_get? hold rfl
    have hne := rqstItems_ne_nil (t := { db.tables with reliefrqstItem := _ }) (Table.mem_of_get? hget)
    rw [rounded_rqstItems, ne_eq, List.map_eq_nil_iff, ← hi]
    exact hne

theorem remove_step {seen : ReliefRqstItem} :
    RequestsStep (.removing seen) db.tables (db.after (removeItem seen)).tables := by
  refine after_cases (P := fun d => RequestsStep (.removing seen) db.tables d.tables) (.same rfl) ?_
  intro db' t ht _ he
  rw [he]
  simp only [removeItem, bind_ok, pure_ok, require_ok, Table.delete?_eq_some] at ht
  obtain ⟨_, ⟨hcur, rfl⟩, rfl⟩ := ht
  refine .delete rfl hcur rfl (fun id hid => ?_) fun hother => ?_
  · refine rounded_rqstItems_of_eq db.consistent (Table.select_deleteWhere fun x hx => ?_)
    have hx : x.reliefrqstId = id := of_decide_eq_true hx
    refine decide_eq_false fun hk => hid ?_
    rw [← hx]
    exact congrArg Prod.fst hk
  · obtain ⟨i, hi, hne⟩ := hother
    rw [rounded_rqstItems, ne_eq, List.map_eq_nil_iff]
    obtain ⟨hmem, hid⟩ := Tables.mem_rqstItems.1 hi
    refine List.ne_nil_of_mem (Tables.mem_rqstItems.2 ⟨?_, hid⟩)
    exact List.mem_filter.2 ⟨hmem, by simpa using hne⟩

theorem submit_step : RequestsStep (.posting r) db.tables (db.after (submitWrite r)).tables := by
  refine after_cases (P := fun d => RequestsStep (.posting r) db.tables d.tables) (.same rfl) ?_
  intro db' t ht _ he
  rw [he]
  simp only [submitWrite, bind_ok, pure_ok, require_ok, Table.update?_eq_some] at ht
  obtain ⟨_, ⟨hcur, rfl⟩, rfl⟩ := ht
  exact .submit rfl hcur rfl fun id => rounded_rqstItems_of_eq db.consistent rfl

end

/-! ## What a session knows -/

/-- The request a submission has read. -/
def RequestTask.rqst? : RequestTask → Option ReliefRqst
  | .submitting r _ | .posting r => some r
  | _ => none

/-- What holds before a session's next turn, as far as it concerns the request. -/
structure RequestTask.Holds (rqstId : Nat) (t : Tables) (x : RequestTask) : Prop where
  keys : ∀ e i, x = .writing e (some i) → key i = e.key
  draft : x.Editing rqstId → t.rqstStatus rqstId = some .draft
  seen : ∀ r ∈ x.rqst?, t.reliefrqst.Seen r ∧ r.statusCode = .draft
  items : ∀ r, x = .posting r → r.reliefrqstId = rqstId → t.reliefrqst.Current r → t.rqstItems rqstId ≠ []

/-- A submission commits while no edit of the request is under way, and the last item of the request is not
deleted between the check of a submission and its commit. -/
def Uncrossed (rqstId : Nat) (w : RequestWorld) : Turn RequestOp → Prop
  | .start _ => True
  | .turn n =>
    match w.sessions[n]? with
    | some (.posting r) =>
      r.reliefrqstId = rqstId → w.store.tables.reliefrqst.Current r → ∀ x ∈ w.sessions, ¬ x.Editing rqstId
    | some (.removing seen) =>
      seen.reliefrqstId = rqstId → w.store.tables.reliefrqstItem.Current seen →
        (∀ i ∈ w.store.tables.rqstItems rqstId, key i = key seen) → ∀ x ∈ w.sessions, ¬ x.Posting rqstId
    | _ => True

instance (rqstId : Nat) (w : RequestWorld) (t : Turn RequestOp) : Decidable (Uncrossed rqstId w t) := by
  unfold Uncrossed
  split
  · infer_instance
  · split <;> infer_instance

section
variable {db : Database} {t t' : Tables} {rqstId n : Nat} {e : ItemEdit} {r : ReliefRqst} {x y : RequestTask}

theorem RequestTask.act_step (hx : x.Holds rqstId db.tables) : RequestsStep x db.tables (x.act n db).1.tables := by
  cases x with
  | begun op => cases op <;> exact .same rfl
  | editing | deleting | submitting | ended => exact .same rfl
  | writing e seen =>
    cases seen with
    | none => exact insert_step
    | some i => exact update_step (hx.keys e i rfl)
  | removing seen => exact remove_step
  | posting r => exact submit_step

theorem RequestTask.holds_ended (rqstId : Nat) (t : Tables) : RequestTask.ended.Holds rqstId t :=
  ⟨by simp, fun h => h.elim, by simp [RequestTask.rqst?], by simp⟩

theorem holds_goOn {α : Type} {next : α → RequestTask} {y : Except Err α}
    (h : ∀ a, y = .ok a → (next a).Holds rqstId t) : (goOn next y).Holds rqstId t := by
  cases y with
  | error err => exact RequestTask.holds_ended rqstId t
  | ok a => exact h a rfl

theorem rqstStatus_of_get? {s : RqstStatus} (h : t.reliefrqst.get? rqstId = some r) (hs : r.statusCode = s) :
    t.rqstStatus rqstId = some s := by
  rw [Tables.rqstStatus, h, Option.map_some, hs]

/-- A session knows what it has just read. -/
theorem RequestTask.act_holds (hx : x.Holds rqstId db.tables) : (x.act n db).2.Holds rqstId (x.act n db).1.tables := by
  cases x with
  | begun op =>
    cases op with
    | editItems ctx id post =>
      refine holds_goOn fun e he => ⟨by simp, fun hid => ?_, by simp [RequestTask.rqst?], by simp⟩
      obtain ⟨h, -, r, hr, hd⟩ := editGate_ok he
      obtain rfl : id = rqstId := h.symm.trans hid
      exact rqstStatus_of_get? hr hd
    | deleteItem ctx id itemId =>
      refine holds_goOn fun u hu => ⟨by simp, fun hid => ?_, by simp [RequestTask.rqst?], by simp⟩
      obtain ⟨r, hr, hd⟩ := deleteGate_ok hu
      obtain rfl : id = rqstId := hid
      exact rqstStatus_of_get? hr hd
    | submitRequest ctx id version =>
      refine holds_goOn fun p hp => ⟨by simp, fun h => h.elim, fun r hr => ?_, by simp⟩
      cases hr
      exact ⟨Table.seen_of_get? (submitGate_ok hp).1, (submitGate_ok hp).2⟩
  | editing e =>
    refine ⟨fun e' i h => ?_, hx.draft, by simp [RequestTask.act, RequestTask.rqst?], by simp [RequestTask.act]⟩
    simp only [RequestTask.act, RequestTask.writing.injEq] at h
    obtain ⟨rfl, h⟩ := h
    exact Table.key_of_get? h
  | deleting id itemId =>
    refine holds_goOn fun i hi => ⟨by simp, fun hid => hx.draft ?_, by simp [RequestTask.rqst?], by simp⟩
    have hk : key i = (id, itemId) := Table.key_of_get? (require_ok.1 hi)
    exact (congrArg Prod.fst hk).symm.trans hid
  | submitting r current =>
    refine holds_goOn fun u hu => ⟨by simp, fun h => h.elim, fun r' hr => hx.seen r' hr, fun r' h hid _ => ?_⟩
    cases h
    simp only [submitItems, bind_ok, check_ok] at hu
    obtain ⟨_, ⟨i, hi, -⟩, -⟩ := hu
    exact List.ne_nil_of_mem (hid ▸ hi)
  | writing | removing | posting | ended => exact RequestTask.holds_ended rqstId _

/-- A commit of one submission makes what the others have read stale. -/
theorem not_current_awaiting {r' : ReliefRqst} (hcur : t.reliefrqst.Current r) (hseen : t.reliefrqst.Seen r')
    (hk : r'.reliefrqstId = r.reliefrqstId) : ¬ (t.reliefrqst.set r.awaiting).Current r' := by
  intro hc
  obtain ⟨old, hold, hv⟩ := Option.map_eq_some_iff.1 hcur
  have hle := (hseen old ((congrArg t.reliefrqst.get? hk).trans hold)).1
  have hset : (t.reliefrqst.set r.awaiting).get? (key r') = some r.awaiting :=
    Table.get?_set_of_get? ((congrArg t.reliefrqst.get? hk).trans hold) hk.symm
  rw [Table.Current, hset] at hc
  have hc : r.versionNbr + 1 = r'.versionNbr := Option.some.inj hc
  have hv : old.versionNbr = r.versionNbr := hv
  have hle : r'.versionNbr ≤ old.versionNbr := hle
  omega

theorem seen_awaiting {r' : ReliefRqst} (hcur : t.reliefrqst.Current r) (hseen : t.reliefrqst.Seen r') :
    (t.reliefrqst.set r.awaiting).Seen r' := by
  obtain ⟨old, hold, hv⟩ := Option.map_eq_some_iff.1 hcur
  have hv : old.versionNbr = r.versionNbr := hv
  have hlt : old.versionNbr < r.awaiting.versionNbr := hv.trans_lt (Nat.lt_succ_self r.versionNbr)
  exact hseen.set hold hlt

/-- Where no request is written, a session still knows what it has read. -/
theorem RequestTask.Holds.of_rqst (hy : y.Holds rqstId t) (hr : t'.reliefrqst = t.reliefrqst)
    (hitems : y.Posting rqstId → t.rqstItems rqstId ≠ [] → t'.rqstItems rqstId ≠ []) : y.Holds rqstId t' := by
  refine ⟨hy.keys, fun hed => ?_, fun r hyr => hr ▸ hy.seen r hyr, fun r hp hid hc => ?_⟩
  · rw [Tables.rqstStatus, hr]
    exact hy.draft hed
  · subst hp
    exact hitems hid (hy.items r rfl hid (hr ▸ hc))

/-- A turn of another session leaves what a session knows, unless it crosses a submission. -/
theorem RequestsStep.holds (h : RequestsStep x t t') (hy : y.Holds rqstId t)
    (hposting : ∀ r, x = .posting r → r.reliefrqstId = rqstId → t.reliefrqst.Current r → ¬ y.Editing rqstId)
    (hremoving : ∀ seen, x = .removing seen → seen.reliefrqstId = rqstId → t.reliefrqstItem.Current seen →
      (∀ i ∈ t.rqstItems rqstId, key i = key seen) → ¬ y.Posting rqstId) : y.Holds rqstId t' := by
  cases h with
  | same h => exact h ▸ hy
  | @edit id _ hr hothers hne =>
    refine hy.of_rqst hr fun _ hold => ?_
    by_cases he : rqstId = id
    · subst he
      exact hne hold
    · rwa [hothers rqstId he]
  | @delete seen hx hcur hr hothers hne =>
    refine hy.of_rqst hr fun hpost hold => ?_
    by_cases he : rqstId = seen.reliefrqstId
    · subst he
      refine hne (by_contra fun hlast => ?_)
      push Not at hlast
      exact hremoving seen hx rfl hcur hlast hpost
    · rwa [hothers rqstId he]
  | @submit r hx hcur hr hitems =>
    refine ⟨hy.keys, fun hed => ?_, fun r' hyr => ?_, fun r' hp hid hc => ?_⟩
    · have hne : r.reliefrqstId ≠ rqstId := fun he => hposting r hx he hcur hed
      rw [Tables.rqstStatus, hr, Table.get?_set_of_ne (show key r.awaiting ≠ rqstId from hne)]
      exact hy.draft hed
    · exact ⟨hr ▸ seen_awaiting hcur (hy.seen r' hyr).1, (hy.seen r' hyr).2⟩
    · rw [hitems]
      have hseen : t.reliefrqst.Seen r' := (hy.seen r' (hp ▸ rfl)).1
      by_cases he : r'.reliefrqstId = r.reliefrqstId
      · exact absurd (hr ▸ hc) (not_current_awaiting hcur hseen he)
      · refine hy.items r' hp hid ?_
        rw [Table.Current, hr, Table.get?_set_of_ne (show key r.awaiting ≠ key r' from Ne.symm he)] at hc
        exact hc

end

/-! ## Every run -/

def RequestsValid (rqstId : Nat) : RequestWorld → Prop :=
  Sessions.Valid (fun _ => True) fun _ db x => x.Holds rqstId db.tables

theorem nextRequests_valid {rqstId : Nat} (w : RequestWorld) (t : Turn RequestOp) (hw : RequestsValid rqstId w)
    (hu : Uncrossed rqstId w t) : RequestsValid rqstId (nextRequests w t) := by
  refine Sessions.rule (P := Uncrossed rqstId) ?_ ?_ ?_ w t hw hu
  · intro w op _ _
    exact ⟨by simp, fun h => h.elim, by simp [RequestTask.rqst?], by simp⟩
  · intro w n x _ hw hx
    exact ⟨trivial, RequestTask.act_holds (hw.2 n x hx)⟩
  · intro w n x m y hu hw hx hy _
    have hmem : y ∈ w.sessions := List.mem_of_getElem? hy
    refine (RequestTask.act_step (hw.2 n x hx)).holds (hw.2 m y hy) (fun r hr hid hc => ?_) fun seen hr hid hc hlast => ?_
    · subst hr
      simp only [Uncrossed, hx] at hu
      exact hu hid hc y hmem
    · subst hr
      simp only [Uncrossed, hx] at hu
      exact hu hid hc hlast y hmem

theorem nextRequests_step {rqstId : Nat} {w : RequestWorld} (hw : RequestsValid rqstId w) (t : Turn RequestOp) :
    ∃ x, x.Holds rqstId w.store.tables ∧ RequestsStep x w.store.tables (nextRequests w t).store.tables := by
  refine Sessions.next_store (R := fun (db db' : Database) => ∃ x : RequestTask, x.Holds rqstId db.tables ∧
    RequestsStep x db.tables db'.tables) ⟨.ended, RequestTask.holds_ended rqstId _, .same rfl⟩ fun n x _ hx => ?_
  exact ⟨x, hw.2 n x hx, RequestTask.act_step (hw.2 n x hx)⟩

/-- The turn submits the request. -/
def Submits (rqstId : Nat) (w : RequestWorld) (t : Turn RequestOp) : Prop :=
  w.store.tables.rqstStatus rqstId = some .draft ∧ (nextRequests w t).store.tables.rqstStatus rqstId ≠ some .draft

/-- A submission finds an item, and a request that is no draft keeps its status and its items. -/
structure KeepsSubmitted (rqstId : Nat) (w : RequestWorld) (t : Turn RequestOp) : Prop where
  nonempty : Submits rqstId w t → (nextRequests w t).store.tables.rqstItems rqstId ≠ []
  status : w.store.tables.rqstStatus rqstId ≠ some .draft →
    (nextRequests w t).store.tables.rqstStatus rqstId = w.store.tables.rqstStatus rqstId
  frozen : w.store.tables.rqstStatus rqstId ≠ some .draft →
    (nextRequests w t).store.tables.rqstItems rqstId = w.store.tables.rqstItems rqstId

instance (rqstId : Nat) (w : RequestWorld) (t : Turn RequestOp) : Decidable (Submits rqstId w t) := by
  unfold Submits
  infer_instance

instance (rqstId : Nat) (w : RequestWorld) (t : Turn RequestOp) : Decidable (KeepsSubmitted rqstId w t) :=
  decidable_of_iff
    ((Submits rqstId w t → (nextRequests w t).store.tables.rqstItems rqstId ≠ []) ∧
      (w.store.tables.rqstStatus rqstId ≠ some .draft →
        (nextRequests w t).store.tables.rqstStatus rqstId = w.store.tables.rqstStatus rqstId) ∧
      (w.store.tables.rqstStatus rqstId ≠ some .draft →
        (nextRequests w t).store.tables.rqstItems rqstId = w.store.tables.rqstItems rqstId))
    ⟨fun ⟨h1, h2, h3⟩ => ⟨h1, h2, h3⟩, fun ⟨h1, h2, h3⟩ => ⟨h1, h2, h3⟩⟩

section
variable {t t' : Tables} {rqstId : Nat} {x : RequestTask}

/-- The status changes when a session that checked the items of a draft commits. -/
theorem RequestsStep.status (h : RequestsStep x t t') (hx : x.Holds rqstId t) :
    t'.rqstStatus rqstId = t.rqstStatus rqstId ∨
    (t.rqstStatus rqstId = some .draft ∧ t.rqstItems rqstId ≠ [] ∧ t'.rqstItems rqstId = t.rqstItems rqstId) := by
  cases h with
  | same h => exact .inl (h ▸ rfl)
  | edit _ hr | delete _ _ hr => exact .inl (by rw [Tables.rqstStatus, hr]; rfl)
  | @submit r hp hcur hr hitems =>
    by_cases hid : r.reliefrqstId = rqstId
    · obtain ⟨hseen, hd⟩ := hx.seen r (hp ▸ rfl)
      exact .inr ⟨rqstStatus_of_get? (hid ▸ hseen.eq hcur) hd, hx.items r hp hid hcur, hitems rqstId⟩
    · refine .inl ?_
      rw [Tables.rqstStatus, hr, Table.get?_set_of_ne (show key r.awaiting ≠ rqstId from hid)]
      rfl

theorem RequestsStep.frozen (h : RequestsStep x t t') (hx : x.Holds rqstId t)
    (hd : t.rqstStatus rqstId ≠ some .draft) : t'.rqstItems rqstId = t.rqstItems rqstId := by
  cases h with
  | same h => rw [h]
  | @edit id hed _ hothers =>
    refine hothers rqstId fun he => hd (hx.draft ?_)
    exact he ▸ hed
  | @delete seen hp _ _ hothers =>
    refine hothers rqstId fun he => hd (hx.draft ?_)
    rw [hp, he]
    rfl
  | submit _ _ _ hitems => exact hitems rqstId

theorem RequestsStep.keeps {w : RequestWorld} {turn : Turn RequestOp}
    (h : RequestsStep x w.store.tables (nextRequests w turn).store.tables) (hx : x.Holds rqstId w.store.tables) :
    KeepsSubmitted rqstId w turn := by
  refine ⟨fun ⟨hd, hd'⟩ => ?_, fun hd => ?_, h.frozen hx⟩
  · rcases h.status hx with hs | ⟨-, hne, hitems⟩
    · exact absurd (hs.trans hd) hd'
    · rwa [hitems]
  · rcases h.status hx with hs | ⟨hs, -⟩
    · exact hs
    · exact absurd hs hd

end

/-- **A submitted request is frozen** along every run of edits, deletions and submissions that do not cross. -/
theorem submitted_items_frozen (db : Database) (rqstId : Nat) (turns : List (Turn RequestOp))
    (h : Along nextRequests (Uncrossed rqstId) ⟨db, []⟩ turns) :
    Along nextRequests (KeepsSubmitted rqstId) ⟨db, []⟩ turns := by
  refine Along.imp (I := RequestsValid rqstId) nextRequests_valid (fun w t hw _ => ?_) ⟨trivial, by simp⟩ h
  obtain ⟨x, hx, hstep⟩ := nextRequests_step hw t
  exact hstep.keeps hx

namespace Site

/-- A draft with one item. -/
def draft : Database := run step blank (life.take 2)

def agency : Ctx := user "AG" false false

/-- An edit of the draft's only item. -/
def editTo (q : ℚ) : RequestOp := .editItems agency 1 ⟨some 1, some (.finite q), "M", "", .blank⟩

/-- The edit commits, the request is submitted, and a second edit is turned away. -/
def inOrder : List (Turn RequestOp) :=
  [.start (editTo 7), .start (.submitRequest agency 1 .absent), .turn 0, .turn 0, .turn 0, .turn 1, .turn 1, .turn 1,
    .start (editTo 9), .turn 2, .turn 2, .turn 2]

/-- The edit passes its draft check before the submission commits. -/
def editAcross : List (Turn RequestOp) :=
  [.start (editTo 7), .start (.submitRequest agency 1 .absent), .turn 0, .turn 1, .turn 1, .turn 1, .turn 0, .turn 0]

/-- The only item is deleted between the check of the submission and its commit. -/
def deleteAcross : List (Turn RequestOp) :=
  [.start (.deleteItem agency 1 1), .start (.submitRequest agency 1 .absent), .turn 0, .turn 0, .turn 1, .turn 1,
    .turn 0, .turn 1]

end Site

theorem submitted_items_frozen_site :
    Along nextRequests (KeepsSubmitted 1) ⟨Site.draft, []⟩ Site.inOrder ∧
    ((run nextRequests ⟨Site.draft, []⟩ Site.inOrder).store.tables.rqstItems 1).map ReliefRqstItem.requestQty = [7] :=
  ⟨submitted_items_frozen Site.draft 1 Site.inOrder (by decide +kernel), by decide +kernel⟩

/-- An edit changes a submitted request; a request is submitted without items. -/
theorem submitted_items_changed :
    ¬ Along nextRequests (KeepsSubmitted 1) ⟨Site.draft, []⟩ Site.editAcross ∧
    ¬ Along nextRequests (KeepsSubmitted 1) ⟨Site.draft, []⟩ Site.deleteAcross ∧
    (run nextRequests ⟨Site.draft, []⟩ Site.deleteAcross).store.tables.rqstItems 1 = [] := by
  refine ⟨?_, ?_, ?_⟩ <;> decide +kernel

end Dmis
