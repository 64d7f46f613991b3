import Mathlib.Init

/-!
# Fallible steps

`check`, `checkAll` and `require` are the guards a transaction is made of; the `_ok` lemmas read a
successful run backwards: what was checked holds, what was looked up exists. The `_error` lemmas find the step that failed.
-/

namespace Relational

variable {ε α β : Type}

/-- Raise `e` unless `c`. -/
def check (c : Prop) [Decidable c] (e : ε) : Except ε Unit := if c then .ok () else .error e

/-- Raise `e` on an absent value. -/
def require (o : Option α) (e : ε) : Except ε α :=
  match o with
  | some a => .ok a
  | none => .error e

/-- `for a in as: if not c a: raise e a`. -/
def checkAll (c : α → Prop) [DecidablePred c] (e : α → ε) : List α → Except ε Unit
  | [] => .ok ()
  | a :: as => if c a then checkAll c e as else .error (e a)

theorem checkAll_ok {c : α → Prop} [DecidablePred c] {e : α → ε} {u : Unit} :
    ∀ {as : List α}, checkAll c e as = .ok u ↔ ∀ a ∈ as, c a
  | [] => by simp [checkAll]
  | a :: as => by
    have ih : checkAll c e as = .ok u ↔ ∀ a ∈ as, c a := checkAll_ok
    unfold checkAll
    split <;> simp_all

theorem check_ok {c : Prop} [Decidable c] {e : ε} {u : Unit} : check c e = .ok u ↔ c := by
  unfold check; split <;> simp_all

theorem require_ok {o : Option α} {e : ε} {a : α} : require o e = .ok a ↔ o = some a := by
  unfold require; cases o <;> simp

theorem bind_ok {x : Except ε α} {f : α → Except ε β} {b : β} :
    (x >>= f) = .ok b ↔ ∃ a, x = .ok a ∧ f a = .ok b := by
  cases x with
  | error e =>
    constructor
    · intro h; cases h
    · rintro ⟨_, h, _⟩; cases h
  | ok a =>
    constructor
    · exact fun h => ⟨a, rfl, h⟩
    · rintro ⟨_, h, hf⟩; cases h; exact hf

theorem check_error {c : Prop} [Decidable c] {e e' : ε} : check c e = .error e' ↔ ¬ c ∧ e = e' := by
  unfold check; split <;> simp_all

theorem require_error {o : Option α} {e e' : ε} : require o e = .error e' ↔ o = none ∧ e = e' := by
  unfold require; cases o <;> simp

/-- A run fails where its first failing step does. -/
theorem bind_error {x : Except ε α} {f : α → Except ε β} {e : ε} :
    (x >>= f) = .error e ↔ x = .error e ∨ ∃ a, x = .ok a ∧ f a = .error e := by
  cases x with
  | error e' =>
    constructor
    · intro h; cases h; exact .inl rfl
    · rintro (h | ⟨_, ha, _⟩)
      · cases h; rfl
      · cases ha
  | ok a =>
    constructor
    · exact fun h => .inr ⟨a, rfl, h⟩
    · rintro (h | ⟨_, ha, h⟩)
      · cases h
      · cases ha; exact h

theorem pure_ok {a b : α} : (pure a : Except ε α) = .ok b ↔ a = b := by
  constructor
  · intro h; cases h; rfl
  · rintro rfl; rfl

/-! ## Steps that are all taken -/

/-- The results of the steps that succeeded. -/
def oks (l : List (Except ε α)) : List α := l.filterMap Except.toOption

def error? : Except ε α → Option ε
  | .error e => some e
  | .ok _ => none

/-- The errors of the steps that failed. -/
def errors (l : List (Except ε α)) : List ε := l.filterMap error?

theorem mem_oks {l : List (Except ε α)} {a : α} : a ∈ oks l ↔ .ok a ∈ l := by
  unfold oks
  rw [List.mem_filterMap]
  constructor
  · rintro ⟨x, hx, h⟩
    cases x with
    | error e => cases h
    | ok b => cases h; exact hx
  · intro h
    exact ⟨_, h, rfl⟩

/-- Without an error every step has a result; what the results tell of their steps, they tell in order. -/
theorem map_oks {γ : Type} {f : β → Except ε α} {g : α → γ} {h : β → γ} :
    ∀ {bs : List β}, (∀ b ∈ bs, ∀ a, f b = .ok a → g a = h b) → errors (bs.map f) = [] →
      (oks (bs.map f)).map g = bs.map h
  | [], _, _ => rfl
  | b :: bs, hg, hbs => by
    cases hb : f b with
    | error e => simp [errors, error?, hb] at hbs
    | ok a =>
      have hrest : errors (bs.map f) = [] := by simpa [errors, error?, hb] using hbs
      have hcons : oks ((b :: bs).map f) = a :: oks (bs.map f) := by simp [oks, hb, Except.toOption]
      rw [hcons, List.map_cons, List.map_cons, hg b List.mem_cons_self a hb,
        map_oks (fun c hc => hg c (List.mem_cons_of_mem b hc)) hrest]

end Relational
