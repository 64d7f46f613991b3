import Dmis.Session

/-!
# Item statuses

`app/services/item_status_service.py`: which status an item of a request may be given, as a
function of what is allocated to it.
-/

namespace Dmis

open Relational

/-- `compute_allowed_statuses` before the filter on active codes: the automatic status and the
codes that may be chosen. -/
def statusOptions (total requested : ℚ) (hasActivity : Bool) : ItemStatus × List ItemStatus :=
  if total = 0 then
    if hasActivity then (.unavailable, [.unavailable, .denied, .waiting])
    else (.requested, [.requested, .unavailable, .denied, .waiting])
  else if total = requested then (.filled, [.filled])
  else if total < requested then (.partlyFilled, [.partlyFilled, .limitAllowed])
  else (.filled, [.filled])

/-- `compute_allowed_statuses` (`item_status_service.py:47-110`). -/
def computeAllowedStatuses (active : List ItemStatus) (total requested : ℚ) (hasActivity : Bool) :
    ItemStatus × List ItemStatus :=
  let (auto, allowed) := statusOptions total requested hasActivity
  (auto, allowed.filter (· ∈ active))

/-- `validate_status_transition` (`item_status_service.py:112-160`). Keeping the status is always
allowed. -/
def validateStatusTransition (active : List ItemStatus) (itemId : Nat) (current : ItemStatus)
    (new : FormStatus) (total requested : ℚ) (hasActivity : Bool) : Except Err ItemStatus :=
  let allowed := (computeAllowedStatuses active total requested hasActivity).2
  match new with
  | .other => .error (.statusNotAllowed itemId .other allowed)
  | .code s =>
    if s = current ∨ s ∈ allowed then .ok s else .error (.statusNotAllowed itemId (.code s) allowed)

/-- `validate_quantity_limit`. -/
def validateQuantityLimit (itemId : Nat) (total requested : ℚ) : Except Err Unit :=
  check (¬ requested < total) (.exceedsRequested itemId total requested)

/-- What passes: the old status, or one that is allowed. -/
theorem validateStatusTransition_allowed {active : List ItemStatus} {itemId : Nat} {current s : ItemStatus}
    {new : FormStatus} {total requested : ℚ} {a : Bool}
    (h : validateStatusTransition active itemId current new total requested a = .ok s) :
    new = .code s ∧ (s = current ∨ s ∈ (computeAllowedStatuses active total requested a).2) := by
  unfold validateStatusTransition at h
  cases new with
  | other => cases h
  | code s' =>
    simp only at h
    split at h
    · rename_i hs
      cases h
      exact ⟨rfl, hs⟩
    · cases h

theorem statusOptions_of_allowed {active : List ItemStatus} {s : ItemStatus} {total requested : ℚ} {a : Bool}
    (h : s ∈ (computeAllowedStatuses active total requested a).2) : s ∈ (statusOptions total requested a).2 :=
  (List.mem_filter.1 h).1

theorem validateStatusTransition_ok {active : List ItemStatus} {itemId : Nat} {current s : ItemStatus}
    {new : FormStatus} {total requested : ℚ} {a : Bool}
    (h : validateStatusTransition active itemId current new total requested a = .ok s) :
    new = .code s ∧ (s = current ∨ s ∈ (statusOptions total requested a).2) :=
  (validateStatusTransition_allowed h).imp_right fun hs => hs.imp_right statusOptions_of_allowed

/-- A status that was newly chosen fits the allocation: none allocated, all of it, or part. -/
theorem mem_statusOptions {total requested : ℚ} {a : Bool} {s : ItemStatus}
    (hle : total ≤ requested) (h : s ∈ (statusOptions total requested a).2) :
    (total = 0 ∧ s ∈ [ItemStatus.requested, .unavailable, .denied, .waiting]) ∨
    (total ≠ 0 ∧ total = requested ∧ s = .filled) ∨
    (total ≠ 0 ∧ total < requested ∧ s ∈ [ItemStatus.partlyFilled, .limitAllowed]) := by
  unfold statusOptions at h
  split_ifs at h with h0 ha he hl
  · exact .inl ⟨h0, by simp at h ⊢; tauto⟩
  · exact .inl ⟨h0, h⟩
  · exact .inr (.inl ⟨h0, he, by simpa using h⟩)
  · exact .inr (.inr ⟨h0, hl, h⟩)
  · exact absurd (lt_of_le_of_ne hle he) hl

end Dmis
