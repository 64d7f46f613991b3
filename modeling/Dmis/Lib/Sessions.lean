import Dmis.Lib.Run
import Dmis.Lib.Table

/-!
# Sessions over a shared store

Any number of sessions work on one store, one turn at a time and in any order. A session has its own
state, which holds what it has read so far; a turn runs its next piece against the store as it is now.
`Sessions.rule` is the proof rule: an assertion about the store and one about each session, which the
session's own turns establish and the turns of the others do not disturb.

Optimistic locking on top of it: a `Versioned` row carries a version number, and `update?`, `delete?` act
only on a row that still has the version that was read. `Seen` is the assertion such a read leaves behind.
-/

namespace Relational

/-! ## Turns -/

structure Sessions (σ τ : Type) where
  store : σ
  sessions : List τ

/-- A new session, or the next turn of an old one. -/
inductive Turn (ι : Type) where
  | start (i : ι)
  | turn (n : Nat)
  deriving DecidableEq, Repr

namespace Sessions

variable {σ τ ι : Type} (enter : ι → τ) (act : Nat → σ → τ → σ × τ)

/-- `act n` is one turn of session `n`. -/
def next (w : Sessions σ τ) : Turn ι → Sessions σ τ
  | .start i => { w with sessions := w.sessions ++ [enter i] }
  | .turn n =>
    match w.sessions[n]? with
    | none => w
    | some x => ⟨(act n w.store x).1, w.sessions.set n (act n w.store x).2⟩

/-- The store satisfies `I`, and every session `n` satisfies `J n`. -/
def Valid (I : σ → Prop) (J : Nat → σ → τ → Prop) (w : Sessions σ τ) : Prop :=
  I w.store ∧ ∀ n x, w.sessions[n]? = some x → J n w.store x

variable {enter act} {I : σ → Prop} {J : Nat → σ → τ → Prop} {w : Sessions σ τ}

theorem next_turn {n : Nat} {x : τ} (h : w.sessions[n]? = some x) :
    next enter act w (.turn n) = ⟨(act n w.store x).1, w.sessions.set n (act n w.store x).2⟩ := by
  simp only [next, h]

theorem next_absent {n : Nat} (h : w.sessions[n]? = none) : next enter act w (.turn n) = w := by
  simp only [next, h]

@[simp] theorem next_first (s : σ) (i : ι) : next enter act ⟨s, []⟩ (.start i) = ⟨s, [enter i]⟩ := rfl

@[simp] theorem next_only (s : σ) (x : τ) :
    next enter act ⟨s, [x]⟩ (.turn 0 : Turn ι) = ⟨(act 0 s x).1, [(act 0 s x).2]⟩ := rfl

/-- A property of the step between two stores holds of every turn, if it holds of the turns of sessions and of
nothing happening. -/
theorem next_store {R : σ → σ → Prop} {t : Turn ι} (hrefl : R w.store w.store)
    (h : ∀ n x, t = .turn n → w.sessions[n]? = some x → R w.store (act n w.store x).1) :
    R w.store (next enter act w t).store := by
  cases t with
  | start i => exact hrefl
  | turn n =>
    cases hx : w.sessions[n]? with
    | none => rw [next_absent hx]; exact hrefl
    | some x => rw [next_turn hx]; exact h n x rfl hx

/-- **The rule.** New sessions satisfy their assertion, a turn keeps the assertion of the store and of its own
session, and it does not disturb the assertion of another session. -/
theorem rule {P : Sessions σ τ → Turn ι → Prop}
    (hstart : ∀ w i, I w.store → P w (.start i) → J w.sessions.length w.store (enter i))
    (hown : ∀ w n x, P w (.turn n) → Valid I J w → w.sessions[n]? = some x →
      I (act n w.store x).1 ∧ J n (act n w.store x).1 (act n w.store x).2)
    (hother : ∀ w n x m y, P w (.turn n) → Valid I J w → w.sessions[n]? = some x → w.sessions[m]? = some y →
      m ≠ n → J m (act n w.store x).1 y)
    (w : Sessions σ τ) (t : Turn ι) (hv : Valid I J w) (hP : P w t) : Valid I J (next enter act w t) := by
  cases t with
  | start i =>
    refine ⟨hv.1, fun n x hx => ?_⟩
    simp only [next] at hx ⊢
    by_cases hn : n < w.sessions.length
    · rw [List.getElem?_append_left hn] at hx
      exact hv.2 n x hx
    · rw [List.getElem?_append_right (not_lt.1 hn)] at hx
      obtain ⟨h0, rfl⟩ := List.getElem?_eq_some_iff.1 hx
      simp only [List.length_singleton] at h0
      obtain rfl : n = w.sessions.length := by omega
      simpa using hstart w i hv.1 hP
  | turn n =>
    cases hx : w.sessions[n]? with
    | none => rwa [next_absent hx]
    | some x =>
      rw [next_turn hx]
      obtain ⟨hI, hJ⟩ := hown w n x hP hv hx
      refine ⟨hI, fun m y hy => ?_⟩
      by_cases hm : m = n
      · subst hm
        obtain ⟨hlt, -⟩ := List.getElem?_eq_some_iff.1 hx
        rw [List.getElem?_set_self hlt] at hy
        cases hy
        exact hJ
      · rw [List.getElem?_set_ne (Ne.symm hm)] at hy
        exact hother w n x m y hP hv hx hy hm

/-- From `w` to `w'` by turns of the first session only. -/
def Alone (enter : ι → τ) (act : Nat → σ → τ → σ × τ) (w w' : Sessions σ τ) : Prop :=
  ∃ m : Nat, run (next enter act) w (List.replicate m (.turn 0)) = w'

theorem Alone.refl (w : Sessions σ τ) : Alone enter act w w := ⟨0, rfl⟩

theorem Alone.head {s s' : σ} {x x' : τ} {w' : Sessions σ τ} (hact : act 0 s x = (s', x'))
    (h : Alone enter act ⟨s', [x']⟩ w') : Alone enter act ⟨s, [x]⟩ w' := by
  obtain ⟨m, h⟩ := h
  refine ⟨m + 1, ?_⟩
  rw [List.replicate_succ, run_cons, next_only, hact]
  exact h

theorem Alone.trans {w₁ w₂ w₃ : Sessions σ τ} (h : Alone enter act w₁ w₂) (h' : Alone enter act w₂ w₃) :
    Alone enter act w₁ w₃ := by
  obtain ⟨m, rfl⟩ := h
  obtain ⟨m', rfl⟩ := h'
  exact ⟨m + m', by rw [List.replicate_add, run_append]⟩

/-- A session that runs alone ends as an outcome says. -/
def AloneEnds {ε β : Type} (enter : ι → τ) (act : Nat → σ → τ → σ × τ) (s : σ) (x : τ) (o : Except ε β)
    (good : β → σ → τ → Prop) (bad : σ → τ → Prop) : Prop :=
  ∃ s' x', Alone enter act ⟨s, [x]⟩ ⟨s', [x']⟩ ∧
    match o with
    | .ok b => good b s' x'
    | .error _ => bad s' x'

section
variable {ε β : Type} {s s' : σ} {x x' : τ} {o : Except ε β} {good : β → σ → τ → Prop} {bad : σ → τ → Prop}

theorem AloneEnds.trans (h : Alone enter act ⟨s, [x]⟩ ⟨s', [x']⟩) (hends : AloneEnds enter act s' x' o good bad) :
    AloneEnds enter act s x o good bad := by
  obtain ⟨s'', x'', ha, hout⟩ := hends
  exact ⟨s'', x'', h.trans ha, hout⟩

theorem AloneEnds.head (hact : act 0 s x = (s', x')) (hends : AloneEnds enter act s' x' o good bad) :
    AloneEnds enter act s x o good bad :=
  .trans (.head hact (.refl _)) hends

end

end Sessions

/-! ## Versioned rows -/

open Keyed

class Versioned (ρ : Type) where
  version : ρ → Nat

open Versioned

variable {ρ κ : Type} [Keyed ρ κ] [Versioned ρ] [DecidableEq κ]

namespace Table

/-- The row that was read is still there, with the version that was read. -/
def Current (t : Table ρ) (seen : ρ) : Prop := (t.get? (key seen)).map version = some (version seen)

instance (t : Table ρ) (seen : ρ) : Decidable (t.Current seen) := inferInstanceAs (Decidable (_ = _))

/-- `UPDATE … WHERE key = … AND version_nbr = …`; `none` is a `StaleDataError`. -/
def update? (t : Table ρ) (seen r : ρ) : Option (Table ρ) := if t.Current seen then some (t.set r) else none

/-- `DELETE … WHERE key = … AND version_nbr = …`. -/
def delete? (t : Table ρ) (seen : ρ) : Option (Table ρ) :=
  if t.Current seen then some (t.deleteWhere fun r => key r = key seen) else none

theorem update?_eq_some {t t' : Table ρ} {seen r : ρ} :
    t.update? seen r = some t' ↔ t.Current seen ∧ t.set r = t' := by
  unfold update?
  split <;> simp_all

theorem delete?_eq_some {t t' : Table ρ} {seen : ρ} :
    t.delete? seen = some t' ↔ t.Current seen ∧ (t.deleteWhere fun r => key r = key seen) = t' := by
  unfold delete?
  split <;> simp_all

/-- What reading a row establishes: the row under its key has not got an older version since, and with the same
version it is the same row. -/
def Seen (t : Table ρ) (seen : ρ) : Prop :=
  ∀ r, t.get? (key seen) = some r → version seen ≤ version r ∧ (version r = version seen → r = seen)

theorem seen_of_get? {t : Table ρ} {k : κ} {r : ρ} (h : t.get? k = some r) : t.Seen r := by
  intro r' hr'
  rw [key_of_get? h, h] at hr'
  cases hr'
  exact ⟨le_rfl, fun _ => rfl⟩

theorem current_of_get? {t : Table ρ} {k : κ} {r : ρ} (h : t.get? k = some r) : t.Current r := by
  unfold Current
  rw [key_of_get? h, h]
  rfl

/-- A row that is still current is the row that was read. -/
theorem Seen.eq {t : Table ρ} {seen : ρ} (h : t.Seen seen) (hc : t.Current seen) : t.get? (key seen) = some seen := by
  unfold Current at hc
  cases hg : t.get? (key seen) with
  | none => rw [hg] at hc; cases hc
  | some r =>
    rw [hg] at hc
    rw [(h r hg).2 (Option.some.inj hc)]

/-- An update that raises the version keeps what others have seen. -/
theorem Seen.set {t : Table ρ} {seen old r : ρ} (h : t.Seen seen) (hold : t.get? (key r) = some old)
    (hv : version old < version r) : (t.set r).Seen seen := by
  intro x hx
  rw [get?_set] at hx
  by_cases hk : key r = key seen
  · rw [if_pos hk, ← hk, hold] at hx
    cases hx
    have hle := (h old (hk ▸ hold)).1
    exact ⟨hle.trans hv.le, fun e => absurd (e ▸ hv) (not_lt.2 hle)⟩
  · rw [if_neg hk] at hx
    exact h x hx

theorem Seen.deleteWhere {t : Table ρ} {seen : ρ} (h : t.Seen seen) (p : ρ → Bool) : (t.deleteWhere p).Seen seen := by
  intro x hx
  rw [get?_deleteWhere, Option.filter_eq_some_iff] at hx
  exact h x hx.1

/-- A new row keeps what others have seen, if it has a key of its own. -/
theorem Seen.insert {t t' : Table ρ} {seen r : ρ} (h : t.Seen seen) (hi : t.insert r = some t')
    (hk : key r ≠ key seen) : t'.Seen seen := by
  intro x hx
  rw [get?_insert hi, if_neg hk] at hx
  exact h x hx

/-- The version under each key. -/
def versions (t : Table ρ) (k : κ) : Option Nat := (t.get? k).map version

end Table

/-! ## The writes of a commit -/

/-- A write the session has collected. -/
inductive Write (ρ : Type) where
  | insert (r : ρ)
  | update (seen r : ρ)
  | delete (seen : ρ)

namespace Write

def target : Write ρ → κ
  | .insert r => key r
  | .update seen _ | .delete seen => key seen

/-- The row the write leaves. -/
def row? : Write ρ → Option ρ
  | .insert r | .update _ r => some r
  | .delete _ => none

/-- An update writes back the row that was read. -/
def Keeps : Write ρ → Prop
  | .update seen r => key r = key seen
  | _ => True

/-- What the write asks of the versions it meets. -/
def Fits (v : κ → Option Nat) : Write ρ → Prop
  | .insert r => v (key r) = none
  | .update seen _ | .delete seen => v (key seen) = some (version seen)

instance (v : κ → Option Nat) : DecidablePred (Fits (ρ := ρ) v) := fun w => by
  unfold Fits
  split <;> infer_instance

end Write

namespace Table

variable {t t' : Table ρ} {w : Write ρ} {ws : List (Write ρ)}

def write? (t : Table ρ) : Write ρ → Option (Table ρ)
  | .insert r => t.insert r
  | .update seen r => t.update? seen r
  | .delete seen => t.delete? seen

/-- All of them, or none. -/
def flush (t : Table ρ) : List (Write ρ) → Option (Table ρ)
  | [] => some t
  | w :: ws => (t.write? w).bind fun t => t.flush ws

/-- A write goes through only where it fits. -/
theorem fits_of_write? (h : t.write? w = some t') : w.Fits t.versions := by
  cases w with
  | insert r =>
    have hk := (insert_eq_some.1 h).1
    simp [Write.Fits, versions, get?_eq_none.2 hk]
  | update seen r => exact (update?_eq_some.1 h).1
  | delete seen => exact (delete?_eq_some.1 h).1

theorem get?_write? (hw : w.Keeps) (h : t.write? w = some t') (k : κ) :
    t'.get? k = if w.target = k then w.row? else t.get? k := by
  have hfits := fits_of_write? h
  cases w with
  | insert r => exact get?_insert h k
  | update seen r =>
    obtain ⟨-, rfl⟩ := update?_eq_some.1 h
    have hkey : key r = key seen := hw
    have hset : (t.set r).get? k = if key seen = k then (t.get? k).map fun _ => r else t.get? k := by rw [get?_set, hkey]
    by_cases hk : key seen = k
    · obtain ⟨old, hold, -⟩ := Option.map_eq_some_iff.1 hfits
      rw [hset, if_pos hk, ← hk, hold]
      exact (if_pos rfl).symm
    · rw [hset, if_neg hk]
      exact (if_neg hk).symm
  | delete seen =>
    obtain ⟨-, rfl⟩ := delete?_eq_some.1 h
    rw [get?_deleteWhere]
    by_cases hk : (Write.delete seen).target = k
    · rw [if_pos hk]
      refine Option.filter_eq_none_iff.2 fun r hr => ?_
      have hkr : key r = key seen := (key_of_get? hr).trans hk.symm
      simp [hkr]
    · rw [if_neg hk]
      cases hg : t.get? k with
      | none => rfl
      | some r =>
        have hkr : key r ≠ key seen := fun e => hk (e.symm.trans (key_of_get? hg))
        simp [hkr]

/-- **What a flush leaves** under each key, if no two of its writes meet. -/
theorem get?_flush (hw : ∀ w ∈ ws, w.Keeps) (hn : (ws.map Write.target).Nodup) (h : t.flush ws = some t') (k : κ) :
    t'.get? k = match ws.find? fun w => decide (w.target = k) with
      | some w => w.row?
      | none => t.get? k := by
  induction ws generalizing t with
  | nil => cases h; rfl
  | cons w ws ih =>
    simp only [List.map_cons, List.nodup_cons] at hn
    obtain ⟨t₁, h₁, h⟩ := Option.bind_eq_some_iff.1 h
    have hstep := get?_write? (hw w (by simp)) h₁ k
    rw [ih (fun x hx => hw x (by simp [hx])) hn.2 h, List.find?_cons]
    by_cases hk : w.target = k
    · have hnone : ws.find? (fun w => decide (w.target = k)) = none := by
        rw [List.find?_eq_none]
        intro x hx hxk
        exact hn.1 (hk ▸ of_decide_eq_true hxk ▸ List.mem_map_of_mem hx)
      rw [hnone, decide_eq_true hk]
      simp only [hstep, if_pos hk]
    · rw [decide_eq_false hk]
      simp only [hstep, if_neg hk]

end Table

end Relational
