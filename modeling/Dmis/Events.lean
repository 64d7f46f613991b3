import Dmis.Requests
import Dmis.Lib.Sessions

/-!
# The life of an event

`app/features/events.py`: events are created active, edited while active, and closed once. The routes run
as sessions: `edit_event` loads the event when the page is posted, waits for the row lock, and commits;
`close_event` reads the event for the first time under the lock. A locked read of an event the session has
loaded before may give the object with its old values (`refresh` says whether it does not).

| here | there |
| --- | --- |
| `validateEventData` | `validate_event_data` (`:38-126`) |
| `newEvent` | `create_event` (`:179-241`) |
| `EventRow.edited` | `edit_event` (`:255-345`) |
| `EventRow.closed` | `close_event` (`:350-402`) |
| `EventRow.Check` | `c_event_2`, `c_event_4a`, `c_event_4b`, the columns of `event` |

`event_lifecycle`: whatever the order of the turns, a closed event has its date and reason, was not closed
before it started, and never changes again.
-/

namespace Dmis

open Relational Keyed

/-! ## Events and forms -/

inductive EventType where
  | storm | hurricane | tornado | flood | tsunami | fire | earthquake | war | epidemic | adhoc
  deriving DecidableEq, Repr

/-- `status_code`: A, C. -/
inductive EventStatus where
  | active | closed
  deriving DecidableEq, Repr

structure EventRow where
  eventId : Nat
  eventType : EventType
  startDate : Day
  eventName : String
  eventDesc : String
  impactDesc : String
  statusCode : EventStatus
  closedDate : Option Day
  reasonDesc : Option String
  createById : String
  createDtime : Instant
  updateById : String
  updateDtime : Instant
  versionNbr : Nat
  deriving DecidableEq, Repr

instance : Keyed EventRow Nat := ⟨EventRow.eventId⟩
instance : Versioned EventRow := ⟨EventRow.versionNbr⟩

/-- A posted code: blank, one of the allowed values, or any other text. -/
inductive CodeField (α : Type) where
  | blank | other
  | code (a : α)
  deriving DecidableEq, Repr

/-- The event form; texts are stripped. -/
structure EventForm where
  eventType : CodeField EventType
  startDate : DateField
  eventName : String
  eventDesc : String
  impactDesc : String
  statusCode : CodeField EventStatus
  closedDate : DateField
  reasonDesc : String
  versionNbr : VersionField

/-- The poster and the clock. -/
structure Poster where
  /-- `user_name.upper().strip()`; `none` for a blank user name, on which `add_audit_fields` raises. -/
  auditId : Option String
  today : Day
  now : Instant

/-! ## Validation -/

def eventTypeError : CodeField EventType → Option String
  | .blank => some "Event type is required"
  | .other => some ("Event type must be one of: " ++
      "STORM, HURRICANE, TORNADO, FLOOD, TSUNAMI, FIRE, EARTHQUAKE, WAR, EPIDEMIC, ADHOC")
  | .code _ => none

def startDateError (today : Day) : DateField → Option String
  | .blank => some "Start date is required"
  | .malformed => some "Invalid date format"
  | .day d => if today < d then some "Start date cannot be in the future" else none

/-- A required text of at most `limit` characters. -/
def textError (label : String) (limit : Option Nat) (text : String) : Option String :=
  if text = "" then some (label ++ " is required")
  else match limit with
    | some n => if n < text.length then some (label ++ " must not exceed " ++ toString n ++ " characters") else none
    | none => none

def statusCodeError : CodeField EventStatus → Option String
  | .blank => some "Status is required"
  | .other => some "Status must be A (Active) or C (Closed)"
  | .code _ => none

/-- The rules between status, closing date and start date. -/
def closedDateError (f : EventForm) : Option String :=
  match f.statusCode, f.closedDate, f.startDate with
  | .code .closed, .blank, _ => some "Closed date is required for closed events"
  | .code .closed, .malformed, _ | .code .closed, .day _, .malformed => some "Invalid date format"
  | .code .closed, .day d, .day s => if d < s then some "Closed date cannot be earlier than start date" else none
  | .code .active, .malformed, _ | .code .active, .day _, _ => some "Active events cannot have a closed date"
  | _, _, _ => none

def reasonDescError (f : EventForm) : Option String :=
  match f.statusCode with
  | .code .closed =>
    if f.reasonDesc = "" then some "Reason for closure is required for closed events"
    else if 255 < f.reasonDesc.length then some "Reason must not exceed 255 characters" else none
  | .code .active => if f.reasonDesc = "" then none else some "Active events cannot have a closure reason"
  | _ => none

/-- `validate_event_data`: the errors by field. -/
def validateEventData (today : Day) (f : EventForm) (isUpdate : Bool) : List (String × String) :=
  let required : List (String × Option String) :=
    [("event_type", eventTypeError f.eventType), ("start_date", startDateError today f.startDate),
      ("event_name", textError "Event name" (some 60) f.eventName),
      ("event_desc", textError "Event description" (some 255) f.eventDesc),
      ("impact_desc", textError "Impact description" none f.impactDesc)]
  let status : List (String × Option String) :=
    [("status_code", statusCodeError f.statusCode), ("closed_date", closedDateError f),
      ("reason_desc", reasonDescError f)]
  (required ++ if isUpdate then [] else status).filterMap fun e => e.2.map fun m => (e.1, m)

/-! ## Rows -/

/-- A valid form names a type and a day. -/
def EventForm.parsed (f : EventForm) : Option (EventType × Day) :=
  match f.eventType, f.startDate with
  | .code t, .day d => some (t, d)
  | _, _ => none

def newEvent (id : Nat) (audit : String) (now : Instant) (f : EventForm) (type : EventType) (start : Day) : EventRow :=
  { eventId := id
    eventType := type
    startDate := start
    eventName := f.eventName
    eventDesc := f.eventDesc
    impactDesc := f.impactDesc
    statusCode := .active
    closedDate := none
    reasonDesc := none
    createById := audit
    createDtime := now
    updateById := audit
    updateDtime := now
    versionNbr := 1 }

def EventRow.edited (audit : String) (now : Instant) (f : EventForm) (type : EventType) (start : Day) (e : EventRow) :
    EventRow :=
  { e with
    eventType := type
    startDate := start
    eventName := f.eventName
    eventDesc := f.eventDesc
    impactDesc := f.impactDesc
    updateById := audit
    updateDtime := now
    versionNbr := e.versionNbr + 1 }

def EventRow.closed (audit : String) (now : Instant) (closedDate : Day) (reason : String) (e : EventRow) : EventRow :=
  { e with
    statusCode := .closed
    closedDate := some closedDate
    reasonDesc := some reason
    updateById := audit
    updateDtime := now
    versionNbr := e.versionNbr + 1 }

/-- `c_event_4a` and `c_event_4b`. -/
def EventRow.C4 (e : EventRow) : Prop :=
  ((e.statusCode = .active ∧ e.closedDate = none) ∨ (e.statusCode = .closed ∧ e.closedDate.isSome)) ∧
  ((e.reasonDesc = none ∧ e.closedDate = none) ∨ (e.reasonDesc.isSome ∧ e.closedDate.isSome))

/-- What the table accepts: `c_event_2` with the day of the commit, `c_event_4a`, `c_event_4b` and the widths of the
text columns. -/
structure EventRow.Check (today : Day) (e : EventRow) : Prop where
  c2 : e.startDate ≤ today
  c4 : e.C4
  eventName : e.eventName.length ≤ 60
  eventDesc : e.eventDesc.length ≤ 255
  reasonDesc : ∀ r ∈ e.reasonDesc, r.length ≤ 255
  createById : e.createById.length ≤ 20
  updateById : e.updateById.length ≤ 20

instance (e : EventRow) : Decidable e.C4 := by unfold EventRow.C4; infer_instance
instance (today : Day) (e : EventRow) : Decidable (e.Check today) :=
  decidable_of_iff (e.startDate ≤ today ∧ e.C4 ∧ e.eventName.length ≤ 60 ∧ e.eventDesc.length ≤ 255 ∧
      (∀ r ∈ e.reasonDesc, r.length ≤ 255) ∧ e.createById.length ≤ 20 ∧ e.updateById.length ≤ 20)
    ⟨fun ⟨h1, h2, h3, h4, h5, h6, h7⟩ => ⟨h1, h2, h3, h4, h5, h6, h7⟩,
      fun h => ⟨h.c2, h.c4, h.eventName, h.eventDesc, h.reasonDesc, h.createById, h.updateById⟩⟩

/-! ## Sessions -/

structure EventStore where
  events : Table EventRow
  nextEventId : Nat
  /-- The session that holds the lock of an event's row. -/
  holder : Nat → Option Nat

def EventStore.lockedByOther (s : EventStore) (n eventId : Nat) : Bool :=
  match s.holder eventId with
  | some m => m ≠ n
  | none => false

def EventStore.lock (s : EventStore) (n eventId : Nat) : EventStore :=
  { s with holder := fun id => if id = eventId then some n else s.holder id }

def EventStore.unlock (s : EventStore) (eventId : Nat) : EventStore :=
  { s with holder := fun id => if id = eventId then none else s.holder id }

/-- A post. -/
inductive EventOp where
  | create (ctx : Poster) (form : EventForm)
  | edit (ctx : Poster) (eventId : Nat) (form : EventForm) (refresh : Bool)
  | close (ctx : Poster) (eventId : Nat) (closedDate : DateField) (reason : String)

/-- How far a session is. -/
inductive EventTask where
  | begun (op : EventOp)
  /-- The page's checks passed on `seen`; the locked read comes next. -/
  | loaded (ctx : Poster) (form : EventForm) (refresh : Bool) (seen : EventRow)
  /-- The lock is held; `row` is to be written over `seen`. -/
  | locked (today : Day) (seen row : EventRow)
  | ended

/-- `create_event`, in one turn. -/
def createEvent (ctx : Poster) (form : EventForm) (s : EventStore) : Option EventStore := do
  if validateEventData ctx.today { form with statusCode := .code .active } false ≠ [] then none
  let (type, start) ← form.parsed
  let audit ← ctx.auditId
  let e := newEvent s.nextEventId audit ctx.now form type start
  if ¬ e.Check ctx.today then none
  let events ← s.events.insert e
  pure { s with events := events, nextEventId := s.nextEventId + 1 }

/-- `edit_event` up to the locked read. -/
def loadEvent (ctx : Poster) (eventId : Nat) (form : EventForm) (refresh : Bool) (s : EventStore) : EventTask :=
  match s.events.get? eventId with
  | none => .ended
  | some e =>
    if e.statusCode = .closed ∨ safeVersionNumber form.versionNbr ≠ e.versionNbr ∨
        validateEventData ctx.today form true ≠ [] then .ended
    else .loaded ctx form refresh e

/-- The rest of `edit_event`: the checks on what the locked read returned, and the new row. -/
def editLocked (ctx : Poster) (form : EventForm) (fresh : EventRow) : Option EventRow := do
  if safeVersionNumber form.versionNbr ≠ fresh.versionNbr ∨ fresh.statusCode = .closed then none
  let (type, start) ← form.parsed
  let audit ← ctx.auditId
  pure (fresh.edited audit ctx.now form type start)

/-- The closing date of the form; without one it is today. -/
def closingDay (ctx : Poster) : DateField → Option Day
  | .blank => some ctx.today
  | .malformed => none
  | .day d => some d

/-- `close_event` on the row it locked. -/
def closeLocked (ctx : Poster) (closedDate : DateField) (reason : String) (e : EventRow) : Option EventRow := do
  if reason = "" then none
  let day ← closingDay ctx closedDate
  if e.statusCode = .closed ∨ day < e.startDate then none
  let audit ← ctx.auditId
  pure (e.closed audit ctx.now day reason)

/-- A locked read of `eventId`: it waits for the lock; if nothing is written the lock goes with the rollback. -/
def lockRow (n eventId : Nat) (today : Day) (next : EventRow → Option (EventRow × EventRow)) (s : EventStore)
    (x : EventTask) : EventStore × EventTask :=
  if s.lockedByOther n eventId then (s, x)
  else match (s.events.get? eventId).bind next with
    | none => (s, .ended)
    | some (seen, row) => (s.lock n eventId, .locked today seen row)

/-- `db.session.commit()`: the `UPDATE` needs the version that was read, and the row its constraints. -/
def commitRow (today : Day) (seen row : EventRow) (s : EventStore) : EventStore :=
  match s.events.update? seen row with
  | some events => if row.Check today then { s with events := events } else s
  | none => s

/-- One turn of session `n`. -/
def EventTask.act (n : Nat) (s : EventStore) : EventTask → EventStore × EventTask
  | .begun (.create ctx form) => ((createEvent ctx form s).getD s, .ended)
  | .begun (.edit ctx eventId form refresh) => (s, loadEvent ctx eventId form refresh s)
  | .begun (.close ctx eventId closedDate reason) =>
    lockRow n eventId ctx.today (fun e => (closeLocked ctx closedDate reason e).map fun row => (e, row)) s
      (.begun (.close ctx eventId closedDate reason))
  | .loaded ctx form refresh seen =>
    lockRow n seen.eventId ctx.today (fun e =>
      let fresh := if refresh then e else seen
      (editLocked ctx form fresh).map fun row => (fresh, row)) s (.loaded ctx form refresh seen)
  | .locked today seen row => ((commitRow today seen row s).unlock seen.eventId, .ended)
  | .ended => (s, .ended)

abbrev EventWorld := Sessions EventStore EventTask

def nextEvents : EventWorld → Turn EventOp → EventWorld := Sessions.next EventTask.begun EventTask.act

/-! ## What a turn does to the events -/

/-- Allowed by the constraints, and not closed before it started. -/
structure EventRow.Lawful (e : EventRow) : Prop where
  c4 : e.C4
  dates : ∀ d ∈ e.closedDate, e.startDate ≤ d

/-- A turn leaves the events alone, adds one, or rewrites one that is active. -/
inductive EventsStep : Table EventRow → Table EventRow → Prop where
  | same {es} : EventsStep es es
  | create {es es' e} (insert : es.insert e = some es') (lawful : e.Lawful) : EventsStep es es'
  | update {es seen row} (current : es.get? seen.eventId = some seen) (active : seen.statusCode = .active)
      (id : row.eventId = seen.eventId) (version : seen.versionNbr < row.versionNbr) (lawful : row.Lawful) :
      EventsStep es (es.set row)

/-- An active event the session has read. -/
structure ReadActive (es : Table EventRow) (e : EventRow) : Prop where
  seen : es.Seen e
  exists' : e.eventId ∈ es.keys
  active : e.statusCode = .active
  undated : e.closedDate = none

/-- What a session knows at its next turn. -/
def EventTask.Holds (es : Table EventRow) : EventTask → Prop
  | .loaded _ _ _ seen => ReadActive es seen
  | .locked _ seen row => ReadActive es seen ∧ row.eventId = seen.eventId ∧ seen.versionNbr < row.versionNbr ∧
      ∀ d ∈ row.closedDate, row.startDate ≤ d
  | .begun _ | .ended => True

section
variable {es es' : Table EventRow} {s : EventStore} {e seen row : EventRow} {n : Nat} {ctx : Poster} {form : EventForm}

theorem readActive_of_get? (hl : ∀ e ∈ es.rows, e.Lawful) {id : Nat} (h : es.get? id = some e)
    (ha : e.statusCode ≠ .closed) : ReadActive es e := by
  have hact : e.statusCode = .active := by cases hs : e.statusCode <;> simp_all
  refine ⟨Table.seen_of_get? h, List.mem_map_of_mem (f := key) (Table.mem_of_get? h), hact, ?_⟩
  rcases (hl e (Table.mem_of_get? h)).c4.1 with ⟨-, hd⟩ | ⟨hc, -⟩
  · exact hd
  · exact absurd hc ha

theorem EventsStep.readActive (h : EventsStep es es') (hr : ReadActive es e) : ReadActive es' e := by
  cases h with
  | same => exact hr
  | create hins =>
    obtain ⟨hnew, hrows⟩ := Table.insert_eq_some.1 hins
    refine ⟨hr.seen.insert hins fun hk => hnew (hk ▸ hr.exists'), ?_, hr.active, hr.undated⟩
    simp only [Table.keys, hrows, List.map_append, List.mem_append]
    exact .inl hr.exists'
  | @update seen row hcur _ hid hv =>
    have hold : es.get? (key row) = some seen := (congrArg es.get? hid).trans hcur
    exact ⟨hr.seen.set hold hv, by rw [Table.keys_set]; exact hr.exists', hr.active, hr.undated⟩

theorem EventsStep.holds (h : EventsStep es es') {x : EventTask} (hx : x.Holds es) : x.Holds es' := by
  cases x with
  | loaded => exact h.readActive hx
  | locked => exact ⟨h.readActive hx.1, hx.2⟩
  | begun | ended => trivial

theorem EventsStep.lawful (h : EventsStep es es') (hl : ∀ e ∈ es.rows, e.Lawful) : ∀ e ∈ es'.rows, e.Lawful := by
  intro e he
  cases h with
  | same => exact hl e he
  | create hins hnew =>
    rw [(Table.insert_eq_some.1 hins).2, List.mem_append, List.mem_singleton] at he
    rcases he with he | rfl
    · exact hl e he
    · exact hnew
  | update _ _ _ _ hrow =>
    rcases Table.mem_set he with rfl | ⟨he, -⟩
    · exact hrow
    · exact hl e he

theorem EventsStep.closed_kept (h : EventsStep es es') (he : e ∈ es.rows) (hc : e.statusCode = .closed) :
    es'.get? e.eventId = some e := by
  have hget : es.get? e.eventId = some e := Table.get?_key he
  cases h with
  | same => exact hget
  | create hins =>
    have hne : key _ ≠ e.eventId := fun hk =>
      (Table.insert_eq_some.1 hins).1 (hk ▸ List.mem_map_of_mem (f := key) he)
    rw [Table.get?_insert hins, if_neg hne]
    exact hget
  | @update seen row hcur hact hid =>
    have hne : key row ≠ e.eventId := fun hk => by
      -- the row under that key would be active and closed
      have hsame : seen.eventId = e.eventId := hid.symm.trans hk
      rw [hsame, hget] at hcur
      cases hcur
      rw [hact] at hc
      cases hc
    rw [Table.get?_set_of_ne hne]
    exact hget

/-! ## What a session does -/

theorem newEvent_lawful (id : Nat) (audit : String) (now : Instant) (form : EventForm) (type : EventType) (start : Day) :
    (newEvent id audit now form type start).Lawful :=
  ⟨by simp [EventRow.C4, newEvent], by simp [newEvent]⟩

theorem createEvent_step {s' : EventStore} (h : createEvent ctx form s = some s') :
    EventsStep s.events s'.events := by
  simp only [createEvent, Option.bind_eq_bind, Option.pure_def] at h
  split at h
  · simp at h
  · obtain ⟨⟨type, start⟩, -, h⟩ := Option.bind_eq_some_iff.1 h
    obtain ⟨audit, -, h⟩ := Option.bind_eq_some_iff.1 h
    split at h
    · simp at h
    · obtain ⟨events, hins, h⟩ := Option.bind_eq_some_iff.1 h
      cases h
      exact .create hins (newEvent_lawful ..)

theorem loadEvent_holds (hl : ∀ e ∈ s.events.rows, e.Lawful) (id : Nat) (refresh : Bool) :
    (loadEvent ctx id form refresh s).Holds s.events := by
  unfold loadEvent
  split
  · trivial
  · rename_i e he
    split
    · trivial
    · rename_i hok
      exact readActive_of_get? hl he fun hc => hok (.inl hc)

/-- An edit leaves the status and the closing date of the row it was given. -/
theorem editLocked_eq {fresh : EventRow} (h : editLocked ctx form fresh = some row) :
    fresh.statusCode ≠ .closed ∧ row.eventId = fresh.eventId ∧ fresh.versionNbr < row.versionNbr ∧
    row.closedDate = fresh.closedDate := by
  simp only [editLocked, Option.bind_eq_bind, Option.pure_def] at h
  split at h
  · simp at h
  · rename_i hok
    obtain ⟨⟨type, start⟩, -, h⟩ := Option.bind_eq_some_iff.1 h
    obtain ⟨audit, -, h⟩ := Option.bind_eq_some_iff.1 h
    cases h
    exact ⟨fun hc => hok (.inr hc), rfl, Nat.lt_succ_self _, rfl⟩

/-- A close checks the day against the row it holds the lock of. -/
theorem closeLocked_eq {day : DateField} {reason : String} (h : closeLocked ctx day reason e = some row) :
    e.statusCode ≠ .closed ∧ row.eventId = e.eventId ∧ e.versionNbr < row.versionNbr ∧
    ∀ d ∈ row.closedDate, row.startDate ≤ d := by
  simp only [closeLocked, Option.bind_eq_bind, Option.pure_def] at h
  split at h
  · simp at h
  · obtain ⟨d, -, h⟩ := Option.bind_eq_some_iff.1 h
    split at h
    · simp at h
    · rename_i hok
      obtain ⟨audit, -, h⟩ := Option.bind_eq_some_iff.1 h
      cases h
      refine ⟨fun hc => hok (.inl hc), rfl, Nat.lt_succ_self _, fun d' hd => ?_⟩
      cases hd
      exact not_lt.1 fun hlt => hok (.inr hlt)

theorem lockRow_events (n id : Nat) (today : Day) (next : EventRow → Option (EventRow × EventRow)) (s : EventStore)
    (x : EventTask) : (lockRow n id today next s x).1.events = s.events := by
  unfold lockRow
  split
  · rfl
  · split <;> rfl

theorem lockRow_holds {id : Nat} {today : Day} {next : EventRow → Option (EventRow × EventRow)} {x : EventTask}
    (hx : x.Holds s.events)
    (hnext : ∀ e seen row, s.events.get? id = some e → next e = some (seen, row) →
      (EventTask.locked today seen row).Holds s.events) :
    (lockRow n id today next s x).2.Holds s.events := by
  unfold lockRow
  split
  · exact hx
  · split
    · trivial
    · rename_i seen row h
      obtain ⟨e, he, hr⟩ := Option.bind_eq_some_iff.1 h
      exact hnext e seen row he hr

theorem commitRow_step {today : Day} (h : (EventTask.locked today seen row).Holds s.events) :
    EventsStep s.events (commitRow today seen row s).events := by
  obtain ⟨hread, hid, hv, hdates⟩ := h
  unfold commitRow Table.update?
  by_cases hcur : s.events.Current seen
  · rw [if_pos hcur]
    dsimp only
    by_cases hc : row.Check today
    · rw [if_pos hc]
      exact .update (hread.seen.eq hcur) hread.active hid hv ⟨hc.c4, hdates⟩
    · rw [if_neg hc]
      exact .same
  · rw [if_neg hcur]
    exact .same

theorem EventTask.act_step (hl : ∀ e ∈ s.events.rows, e.Lawful) {x : EventTask} (hx : x.Holds s.events) :
    EventsStep s.events (x.act n s).1.events ∧ (x.act n s).2.Holds (x.act n s).1.events := by
  cases x with
  | begun op =>
    cases op with
    | create ctx form =>
      refine ⟨?_, trivial⟩
      simp only [EventTask.act]
      cases h : createEvent ctx form s with
      | none => exact .same
      | some s' => exact createEvent_step h
    | edit ctx id form refresh => exact ⟨.same, loadEvent_holds hl id refresh⟩
    | close ctx id day reason =>
      simp only [EventTask.act]
      rw [lockRow_events]
      refine ⟨.same, lockRow_holds trivial fun e seen row he h => ?_⟩
      obtain ⟨row', hrow, h⟩ := Option.map_eq_some_iff.1 h
      cases h
      obtain ⟨hact, hid, hv, hdates⟩ := closeLocked_eq hrow
      exact ⟨readActive_of_get? hl he hact, hid, hv, hdates⟩
  | loaded ctx form refresh old =>
    simp only [EventTask.act]
    rw [lockRow_events]
    refine ⟨.same, lockRow_holds hx fun e seen row he h => ?_⟩
    obtain ⟨row', hrow, h⟩ := Option.map_eq_some_iff.1 h
    cases h
    obtain ⟨hact, hid, hv, hd⟩ := editLocked_eq hrow
    -- whichever of the two rows the locked read returned, it is active and was read from the table
    have hread : ReadActive s.events (if refresh then e else old) := by
      cases refresh with
      | true => exact readActive_of_get? hl he hact
      | false => exact hx
    exact ⟨hread, hid, hv, by rw [hd, hread.undated]; simp⟩
  | locked today seen row => exact ⟨commitRow_step hx, trivial⟩
  | ended => exact ⟨.same, trivial⟩

end

/-! ## Every run -/

def EventsValid : EventWorld → Prop :=
  Sessions.Valid (fun s => ∀ e ∈ s.events.rows, e.Lawful) fun _ s x => x.Holds s.events

theorem nextEvents_step {w : EventWorld} (hw : EventsValid w) (t : Turn EventOp) :
    EventsStep w.store.events (nextEvents w t).store.events :=
  Sessions.next_store (R := fun s s' => EventsStep s.events s'.events) .same
    fun n x _ hx => (EventTask.act_step hw.1 (hw.2 n x hx)).1

theorem nextEvents_valid (w : EventWorld) (t : Turn EventOp) (hw : EventsValid w) : EventsValid (nextEvents w t) := by
  refine Sessions.rule (P := fun _ _ => True) ?_ ?_ ?_ w t hw trivial
  · intro w op _ _
    trivial
  · intro w n x _ hw hx
    have hact := EventTask.act_step (n := n) hw.1 (hw.2 n x hx)
    exact ⟨hact.1.lawful hw.1, hact.2⟩
  · intro w n x m y _ hw hx hy _
    exact (EventTask.act_step hw.1 (hw.2 n x hx)).1.holds (hw.2 m y hy)

/-- **The life of an event**: after any turns of any sessions, an event is closed exactly when it has a closing
date and a reason, and not before it started; and no turn changes a closed event. -/
theorem event_lifecycle (s : EventStore) (hs : ∀ e ∈ s.events.rows, e.Lawful) (turns : List (Turn EventOp)) :
    (∀ e ∈ (run nextEvents ⟨s, []⟩ turns).store.events.rows,
      (e.statusCode = .closed ↔ e.closedDate.isSome ∧ e.reasonDesc.isSome) ∧
      (e.statusCode = .closed → ∃ d ∈ e.closedDate, e.startDate ≤ d)) ∧
    Along nextEvents (fun w t => ∀ e ∈ w.store.events.rows, e.statusCode = .closed →
      (nextEvents w t).store.events.get? e.eventId = some e) ⟨s, []⟩ turns := by
  have h0 : EventsValid ⟨s, []⟩ := ⟨hs, by simp⟩
  constructor
  · intro e he
    have hlaw : e.Lawful :=
      (run_invariant (fun w t hw => nextEvents_valid w t hw) h0 turns).1 e he
    have hc4 := hlaw.c4
    constructor
    · rcases hc4 with ⟨⟨hs, hd⟩ | ⟨hs, hd⟩, ⟨hr, hd'⟩ | ⟨hr, hd'⟩⟩ <;> simp_all
    · intro hc
      rcases hc4.1 with ⟨ha, -⟩ | ⟨-, hd⟩
      · rw [ha] at hc
        cases hc
      · obtain ⟨d, hd⟩ := Option.isSome_iff_exists.1 hd
        exact ⟨d, hd, hlaw.dates d hd⟩
  · exact Along.imp (P := fun _ _ => True) (fun w t hw _ => nextEvents_valid w t hw)
      (fun w t hw _ e he hc => (nextEvents_step hw t).closed_kept he hc) h0 (.of_forall (fun _ _ => trivial) turns _)

/-! ## A page posted after a close -/

namespace Site

def flood : EventRow where
  eventId := 1
  eventType := .flood
  startDate := 80
  eventName := "FLOOD"
  eventDesc := "RIVER"
  impactDesc := "ROADS"
  statusCode := .active
  closedDate := none
  reasonDesc := none
  createById := "LO"
  createDtime := 0
  updateById := "LO"
  updateDtime := 0
  versionNbr := 1

def floodStore : EventStore := ⟨⟨[flood], by simp⟩, 2, fun _ => none⟩

/-- An edit page of version 1 that moves the start past the closing date of the other session. -/
def floodForm : EventForm where
  eventType := .code .flood
  startDate := .day 98
  eventName := "FLOOD"
  eventDesc := "RIVER"
  impactDesc := "BRIDGES"
  statusCode := .blank
  closedDate := .blank
  reasonDesc := ""
  versionNbr := .num 1

def poster (name : String) : Poster := ⟨some name, 100, 1000⟩

/-- The edit passes its checks, the close takes the lock and commits, and the edit goes on. -/
def editWhileClosing : List (Turn EventOp) :=
  [.start (.edit (poster "LO") 1 floodForm false), .start (.close (poster "LM") 1 (.day 90) "OVER"),
    .turn 0, .turn 1, .turn 0, .turn 1, .turn 0, .turn 0]

end Site

theorem event_lifecycle_site :
    (run nextEvents ⟨Site.floodStore, []⟩ Site.editWhileClosing).store.events.rows =
      [Site.flood.closed "LM" 1000 90 "OVER"] ∧
    Along nextEvents (fun w t => ∀ e ∈ w.store.events.rows, e.statusCode = .closed →
      (nextEvents w t).store.events.get? e.eventId = some e) ⟨Site.floodStore, []⟩ Site.editWhileClosing :=
  ⟨by decide +kernel,
    (event_lifecycle Site.floodStore (by
      intro e he
      obtain rfl : e = Site.flood := by simpa [Site.floodStore] using he
      exact ⟨by decide, by simp [Site.flood]⟩) Site.editWhileClosing).2⟩

end Dmis
