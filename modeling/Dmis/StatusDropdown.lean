import Dmis.ItemStatus
import Dmis.Lib.Run

/-!
# The status drop-down

The packaging pages decide in the browser which statuses of an item may be chosen, from the quantity that is allocated
(`static/js/prepare.js:187-262`, the same text in `approve.js:195-270`); the server decides again when the form is
posted. The page recomputes when it is loaded and after each use of the batch drawer, whose fallback calls
`updateStatusDropdown` (`batch-allocation.js:722-742`; nothing defines `window.updateAllocation`).

| here | there |
| --- | --- |
| `pageAuto`, `pageAllowed` | the two case distinctions of `prepare.js` |
| `updateAllowedStatusOptions`, `updateStatusDropdown` | the functions of that name |
| `rendered` | the `<select>` of `prepare.html:665-682` and `approve.html:634-648` |
| `Page.step` | a use of the drawer, a choice of the user |

The server's table has a case for an item whose drawer was used; the page's has not, and for an allocated item the page
adds the statuses that "can override any allocation". Main theorem `page_agrees_iff`: page and server agree exactly
while nothing is allocated and the drawer was never used.
-/

namespace Dmis

open Relational

namespace StatusDropdown

/-! ## The page's table -/

def pageAuto (allocated requested : ℚ) : ItemStatus :=
  if allocated = 0 then .requested else if requested ≤ allocated then .filled else .partlyFilled

/-- `allowedCodes`. -/
def pageAllowed (allocated requested : ℚ) : List ItemStatus :=
  if allocated = 0 then [.requested, .denied, .unavailable, .waiting]
  else if requested ≤ allocated then [.filled, .limitAllowed, .denied, .unavailable, .waiting]
  else [.partlyFilled, .limitAllowed, .denied, .unavailable, .waiting]

/-! ## The drop-down -/

/-- The `<select>` element; `value` is `none` where no option is selected. -/
structure Dropdown where
  options : List ItemStatus
  value : Option ItemStatus
  /-- `data-auto-status`. -/
  autoStatus : ItemStatus
  /-- `data-allowed-codes`. -/
  allowedCodes : List ItemStatus
  deriving DecidableEq, Repr

/-- `select.value = s`: nothing is selected if there is no such option. -/
def Dropdown.setValue (d : Dropdown) (s : ItemStatus) : Dropdown :=
  { d with value := if s ∈ d.options then some s else none }

/-- The user picks one of the options. -/
def Dropdown.choose (d : Dropdown) (s : ItemStatus) : Dropdown :=
  if s ∈ d.options then { d with value := some s } else d

/-- The form can be posted with this status: left selected, or chosen before. -/
def Dropdown.Submits (d : Dropdown) (s : ItemStatus) : Prop := d.value = some s ∨ s ∈ d.options

/-- `finalAllowedCodes`: the selected status stays, allowed or not. -/
def finalAllowedCodes (allowed : List ItemStatus) (currentValue : Option ItemStatus) : List ItemStatus :=
  match currentValue with
  | some s => if s ∈ allowed then allowed else allowed ++ [s]
  | none => allowed

/-- The browser selects the first option where none is selected. -/
def updateAllowedStatusOptions (allocated requested : ℚ) (d : Dropdown) : Dropdown :=
  let options := finalAllowedCodes (pageAllowed allocated requested) d.value
  { d with
    options := options
    value := if d.value.isSome then d.value else options.head?
    allowedCodes := pageAllowed allocated requested }

def autoStatuses : List ItemStatus := [.requested, .partlyFilled, .filled]

/-- Only an automatic status is replaced by the new one. -/
def updateStatusDropdown (allocated requested : ℚ) (d : Dropdown) : Dropdown :=
  let updated :=
    updateAllowedStatusOptions allocated requested { d with autoStatus := pageAuto allocated requested }
  if ∃ s ∈ autoStatuses, d.value = some s then updated.setValue (pageAuto allocated requested) else updated

/-! ## The page -/

/-- An item as the server renders it. -/
structure Shown where
  itemId : ℕ
  statusCode : ItemStatus
  requested : ℚ
  allocated : ℚ
  /-- A package item is recorded for it. -/
  hasActivity : Bool
  deriving DecidableEq, Repr

def rendered (active : List ItemStatus) (item : Shown) : Dropdown :=
  let (auto, allowed) := computeAllowedStatuses active item.allocated item.requested item.hasActivity
  { options := allowed
    value := if item.statusCode ∈ allowed then some item.statusCode else allowed.head?
    autoStatus := auto
    allowedCodes := allowed }

structure Page where
  dropdown : Dropdown
  allocated : ℚ
  /-- Recorded before, or the drawer was used. -/
  hasActivity : Bool
  deriving DecidableEq, Repr

inductive Event where
  /-- The drawer is used and leaves this total. -/
  | applyDrawer (allocated : ℚ)
  | choose (s : ItemStatus)
  deriving DecidableEq, Repr

/-- The page after `updateItemCalculations`, which runs when it is loaded. -/
def load (active : List ItemStatus) (item : Shown) : Page :=
  { dropdown := updateStatusDropdown item.allocated item.requested (rendered active item)
    allocated := item.allocated
    hasActivity := item.hasActivity }

def Page.step (requested : ℚ) (p : Page) : Event → Page
  | .applyDrawer allocated =>
    { dropdown := updateStatusDropdown allocated requested p.dropdown, allocated := allocated, hasActivity := true }
  | .choose s => { p with dropdown := p.dropdown.choose s }

/-- The page after the events. -/
def pageAfter (active : List ItemStatus) (item : Shown) (events : List Event) : Page :=
  run (Page.step item.requested) (load active item) events

/-- Page and server allow the same. -/
structure Agrees (active : List ItemStatus) (item : Shown) (p : Page) : Prop where
  allowed : ∀ s, s ∈ p.dropdown.allowedCodes ↔
    s ∈ (computeAllowedStatuses active p.allocated item.requested p.hasActivity).2
  auto : p.dropdown.autoStatus = (computeAllowedStatuses active p.allocated item.requested p.hasActivity).1
  accepted : ∀ s, p.dropdown.Submits s →
    validateStatusTransition active item.itemId item.statusCode (.code s) p.allocated item.requested p.hasActivity =
      .ok s

/-! ## The two tables -/

section
variable {a r : ℚ} {act : Bool} {s : ItemStatus}

/-- Whatever the server allows, the page allows. -/
theorem mem_pageAllowed_of_server (h : s ∈ (statusOptions a r act).2) : s ∈ pageAllowed a r := by
  by_cases h0 : a = 0
  · simp only [statusOptions, pageAllowed, h0, if_true] at h ⊢
    cases act <;> simp at h ⊢ <;> tauto
  · rcases lt_trichotomy a r with hlt | rfl | hgt
    · simp [statusOptions, pageAllowed, h0, hlt, hlt.ne, hlt.not_ge] at h ⊢
      tauto
    · simp [statusOptions, pageAllowed, h0] at h ⊢
      tauto
    · simp [statusOptions, pageAllowed, h0, hgt.ne', hgt.not_gt, hgt.le] at h ⊢
      tauto

theorem denied_mem_pageAllowed : ItemStatus.denied ∈ pageAllowed a r := by
  unfold pageAllowed
  split_ifs <;> decide

/-- The tables are the same for an untouched item, and for no other. -/
theorem pageAllowed_eq_iff : (∀ s, s ∈ pageAllowed a r ↔ s ∈ (statusOptions a r act).2) ↔ a = 0 ∧ act = false := by
  constructor
  · intro h
    have h0 : a = 0 := by
      by_contra h0
      have hdenied := (h .denied).1 denied_mem_pageAllowed
      unfold statusOptions at hdenied
      split_ifs at hdenied <;> simp at hdenied
    refine ⟨h0, ?_⟩
    subst h0
    cases act with
    | false => rfl
    | true => exact absurd ((h .requested).1 (by simp [pageAllowed])) (by simp [statusOptions])
  · rintro ⟨rfl, rfl⟩ s
    simp only [pageAllowed, statusOptions, if_true, Bool.false_eq_true, if_false]
    cases s <;> decide

theorem pageAuto_untouched : pageAuto 0 r = (statusOptions 0 r false).1 := by
  simp [pageAuto, statusOptions]

end

/-! ## What the page holds -/

section
variable {active : List ItemStatus} {item : Shown} {a r : ℚ} {d : Dropdown} {p : Page} {events : List Event}

@[simp] theorem updateStatusDropdown_options :
    (updateStatusDropdown a r d).options = finalAllowedCodes (pageAllowed a r) d.value := by
  unfold updateStatusDropdown
  split <;> rfl

@[simp] theorem updateStatusDropdown_allowedCodes : (updateStatusDropdown a r d).allowedCodes = pageAllowed a r := by
  unfold updateStatusDropdown
  split <;> rfl

@[simp] theorem updateStatusDropdown_autoStatus : (updateStatusDropdown a r d).autoStatus = pageAuto a r := by
  unfold updateStatusDropdown
  split <;> rfl

@[simp] theorem choose_options {s : ItemStatus} : (d.choose s).options = d.options := by
  unfold Dropdown.choose
  split <;> rfl

@[simp] theorem choose_allowedCodes {s : ItemStatus} : (d.choose s).allowedCodes = d.allowedCodes := by
  unfold Dropdown.choose
  split <;> rfl

@[simp] theorem choose_autoStatus {s : ItemStatus} : (d.choose s).autoStatus = d.autoStatus := by
  unfold Dropdown.choose
  split <;> rfl

/-- No option is added for a selection that is allowed. -/
theorem finalAllowedCodes_eq {allowed : List ItemStatus} {current : Option ItemStatus}
    (h : ∀ s ∈ current, s ∈ allowed) : finalAllowedCodes allowed current = allowed := by
  unfold finalAllowedCodes
  split
  · rw [if_pos (h _ rfl)]
  · rfl

theorem mem_finalAllowedCodes {allowed : List ItemStatus} {s : ItemStatus} :
    s ∈ finalAllowedCodes allowed (some s) := by
  simp only [finalAllowedCodes]
  split
  · assumption
  · simp

theorem pageAuto_mem : pageAuto a r ∈ pageAllowed a r := by
  unfold pageAuto pageAllowed
  split_ifs <;> decide

theorem mem_finalAllowedCodes_of_mem {allowed : List ItemStatus} {current : Option ItemStatus} {s : ItemStatus}
    (h : s ∈ allowed) : s ∈ finalAllowedCodes allowed current := by
  unfold finalAllowedCodes
  split
  · split
    · exact h
    · exact List.mem_append_left _ h
  · exact h

/-- What is selected is an option. -/
theorem updateStatusDropdown_value {s : ItemStatus} (h : (updateStatusDropdown a r d).value = some s) :
    s ∈ (updateStatusDropdown a r d).options := by
  rw [updateStatusDropdown_options]
  unfold updateStatusDropdown at h
  split at h
  · simp only [Dropdown.setValue] at h
    split at h
    · cases h
      exact mem_finalAllowedCodes_of_mem pageAuto_mem
    · cases h
  · simp only [updateAllowedStatusOptions] at h
    cases hd : d.value with
    | none =>
      rw [hd] at h
      exact List.mem_of_mem_head? h
    | some v =>
      rw [hd] at h
      cases h
      exact mem_finalAllowedCodes

theorem choose_value {s v : ItemStatus} (hd : ∀ v, d.value = some v → v ∈ d.options)
    (h : (d.choose s).value = some v) : v ∈ d.options := by
  unfold Dropdown.choose at h
  split at h
  · cases h
    assumption
  · exact hd v h

/-- The server selects one of the statuses it allows. -/
theorem rendered_value {s : ItemStatus} (h : (rendered active item).value = some s) :
    s ∈ (computeAllowedStatuses active item.allocated item.requested item.hasActivity).2 := by
  simp only [rendered] at h
  split at h
  · cases h
    assumption
  · exact List.mem_of_mem_head? h

/-- What the page shows belongs to the quantity, and only the drawer brings an option that is not allowed. -/
structure InStep (requested : ℚ) (p : Page) : Prop where
  allowed : p.dropdown.allowedCodes = pageAllowed p.allocated requested
  auto : p.dropdown.autoStatus = pageAuto p.allocated requested
  options : p.hasActivity = false → p.dropdown.options = pageAllowed p.allocated requested
  value : ∀ s, p.dropdown.value = some s → s ∈ p.dropdown.options

theorem load_inStep : InStep item.requested (load active item) where
  allowed := updateStatusDropdown_allowedCodes
  auto := updateStatusDropdown_autoStatus
  options _ := by
    rw [load, updateStatusDropdown_options]
    exact finalAllowedCodes_eq fun s hs => mem_pageAllowed_of_server (statusOptions_of_allowed (rendered_value hs))
  value _ := updateStatusDropdown_value

theorem step_inStep (h : InStep r p) (e : Event) : InStep r (p.step r e) := by
  cases e with
  | applyDrawer b =>
    exact ⟨updateStatusDropdown_allowedCodes, updateStatusDropdown_autoStatus, (nomatch ·), fun _ =>
      updateStatusDropdown_value⟩
  | choose s =>
    refine ⟨?_, ?_, ?_, fun v hv => ?_⟩
    · simpa [Page.step] using h.allowed
    · simpa [Page.step] using h.auto
    · simpa [Page.step] using h.options
    · rw [Page.step, choose_options]
      exact choose_value h.value hv

theorem pageAfter_inStep (active : List ItemStatus) (item : Shown) (events : List Event) :
    InStep item.requested (pageAfter active item events) :=
  run_invariant (I := InStep item.requested) (fun _ e h => step_inStep h e) load_inStep events

/-- Nothing allocated and no use of the drawer, recorded or on this page. -/
def Untouched (item : Shown) (events : List Event) : Prop :=
  item.allocated = 0 ∧ item.hasActivity = false ∧ ∀ e ∈ events, ∃ s, e = .choose s

theorem run_untouched_iff : ∀ {events : List Event} {p : Page},
    (run (Page.step r) p events).allocated = 0 ∧ (run (Page.step r) p events).hasActivity = false ↔
      p.allocated = 0 ∧ p.hasActivity = false ∧ ∀ e ∈ events, ∃ s, e = .choose s
  | [], p => by simp
  | e :: events, p => by
    rw [run_cons, run_untouched_iff]
    cases e with
    | applyDrawer b => simp [Page.step]
    | choose s => simp [Page.step]

variable (active) in
theorem pageAfter_untouched_iff :
    (pageAfter active item events).allocated = 0 ∧ (pageAfter active item events).hasActivity = false ↔
      Untouched item events :=
  run_untouched_iff

theorem validateStatusTransition_of_allowed {itemId : ℕ} {current s : ItemStatus} {act : Bool}
    (h : s ∈ (computeAllowedStatuses active a r act).2) :
    validateStatusTransition active itemId current (.code s) a r act = .ok s := by
  simp only [validateStatusTransition, h, or_true, if_true]

/-- **Page and server allow the same** exactly while nothing is allocated and the drawer was never used, in every state
the page reaches. -/
theorem page_agrees_iff (hactive : ∀ s, s ∈ active) (item : Shown) (events : List Event) :
    Agrees active item (pageAfter active item events) ↔ Untouched item events := by
  have hstep := pageAfter_inStep active item events
  have hserver : ∀ {b : ℚ} {act : Bool},
      computeAllowedStatuses active b item.requested act = statusOptions b item.requested act := by
    intro b act
    simp [computeAllowedStatuses, hactive]
  rw [← pageAfter_untouched_iff active]
  constructor
  · intro h
    have hallowed := h.allowed
    rw [hserver, hstep.allowed] at hallowed
    exact pageAllowed_eq_iff.1 hallowed
  · intro h
    have hsame := (pageAllowed_eq_iff (r := item.requested)).2 h
    refine ⟨fun s => ?_, ?_, fun s hs => validateStatusTransition_of_allowed ?_⟩
    · rw [hserver, hstep.allowed]
      exact hsame s
    · rw [hserver, hstep.auto, h.1, h.2]
      exact pageAuto_untouched
    · have hoption : s ∈ (pageAfter active item events).dropdown.options := hs.elim (hstep.value s) id
      rw [hstep.options h.2] at hoption
      rw [hserver]
      exact (hsame s).1 hoption

end

/-! ## Ten blankets -/

namespace DropdownSite

def allStatuses : List ItemStatus :=
  [.requested, .unavailable, .waiting, .denied, .partlyFilled, .limitAllowed, .filled]

/-- Ten requested, nothing allocated. -/
def fresh : Shown := { itemId := 7, statusCode := .requested, requested := 10, allocated := 0, hasActivity := false }

end DropdownSite

/-- On a fresh page the user turns to "denied" and back. -/
theorem page_agrees_site :
    Agrees DropdownSite.allStatuses DropdownSite.fresh
      (pageAfter DropdownSite.allStatuses DropdownSite.fresh [.choose .denied, .choose .requested]) :=
  (page_agrees_iff (fun s => by cases s <;> decide) DropdownSite.fresh _).2 ⟨rfl, rfl, by simp⟩

/-- Four of ten are allocated in the drawer: the page offers "denied", and the server refuses it. -/
theorem denied_offered_and_refused :
    ItemStatus.denied ∈ (pageAfter DropdownSite.allStatuses DropdownSite.fresh [.applyDrawer 4]).dropdown.options ∧
      validateStatusTransition DropdownSite.allStatuses 7 .requested (.code .denied) 4 10 true =
        .error (.statusNotAllowed 7 (.code .denied) [.partlyFilled, .limitAllowed]) ∧
      ¬ Agrees DropdownSite.allStatuses DropdownSite.fresh
        (pageAfter DropdownSite.allStatuses DropdownSite.fresh [.applyDrawer 4]) := by
  refine ⟨by decide +kernel, by decide +kernel, fun h => ?_⟩
  have hdenied := h.accepted .denied (.inr (by decide +kernel))
  revert hdenied
  decide +kernel

end StatusDropdown

end Dmis
