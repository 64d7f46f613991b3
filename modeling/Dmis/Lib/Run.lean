import Mathlib.Data.List.Basic

/-!
# Runs of a deterministic machine

A machine is a function `step : σ → ι → σ`; a run is a list of inputs. `Along` says that something
holds at every step of a run, and the rules below turn what one step does into what a run does:
`Along.invariant` for an invariant, `Along.imp` for a property of the steps, `count_le_one` for an event
that ends its own precondition. `Happens` is the other side: an event at some step of the run. `trace` are the outputs
for the inputs that concern a party, and `unwinding` says when those inputs alone give them.
-/

namespace Relational

variable {σ ι : Type} {step : σ → ι → σ}

/-- The state after the inputs `is`. -/
def run (step : σ → ι → σ) (s : σ) (is : List ι) : σ := is.foldl step s

/-- `P` holds of every step of the run: of the state before it and its input. -/
def Along (step : σ → ι → σ) (P : σ → ι → Prop) : σ → List ι → Prop
  | _, [] => True
  | s, i :: is => P s i ∧ Along step P (step s i) is

instance Along.decidable {P : σ → ι → Prop} [∀ s i, Decidable (P s i)] : ∀ s is, Decidable (Along step P s is)
  | _, [] => .isTrue trivial
  | s, i :: is =>
    haveI : Decidable (Along step P (step s i) is) := Along.decidable (step s i) is
    inferInstanceAs (Decidable (P s i ∧ Along step P (step s i) is))

/-- How many steps of the run are `E`-steps. -/
def count (step : σ → ι → σ) (E : σ → ι → Prop) [∀ s i, Decidable (E s i)] : σ → List ι → Nat
  | _, [] => 0
  | s, i :: is => (if E s i then 1 else 0) + count step E (step s i) is

@[simp] theorem run_nil (s : σ) : run step s [] = s := rfl
@[simp] theorem run_cons (s : σ) (i : ι) (is : List ι) : run step s (i :: is) = run step (step s i) is := rfl

theorem run_append (s : σ) (is js : List ι) : run step s (is ++ js) = run step (run step s is) js :=
  List.foldl_append

theorem Along.append {P : σ → ι → Prop} : ∀ {is : List ι} {s : σ} {js : List ι},
    Along step P s (is ++ js) ↔ Along step P s is ∧ Along step P (run step s is) js
  | [], _, _ => by simp [Along]
  | i :: is, s, js => by simp only [List.cons_append, Along, Along.append, run_cons, and_assoc]

/-- What holds along a run holds of the step after any of its beginnings. -/
theorem Along.after {P : σ → ι → Prop} {s : σ} (is : List ι) {i : ι} {js : List ι}
    (h : Along step P s (is ++ i :: js)) : P (run step s is) i := (Along.append.1 h).2.1

/-- Along a run is after each of its beginnings. -/
theorem along_iff {P : σ → ι → Prop} : ∀ {is : List ι} {s : σ},
    Along step P s is ↔ ∀ pre i post, is = pre ++ i :: post → P (run step s pre) i
  | [], s => ⟨fun _ pre i post he => absurd he (by simp), fun _ => trivial⟩
  | j :: is, s => by
    refine ⟨fun h pre i post he => ?_, fun h => ⟨h [] j is rfl, along_iff.2 fun pre i post he => ?_⟩⟩
    · rw [he] at h
      exact h.after pre
    · exact h (j :: pre) i post (by rw [he, List.cons_append])

/-- `E` holds of some step of the run. -/
def Happens (step : σ → ι → σ) (E : σ → ι → Prop) (s : σ) (is : List ι) : Prop :=
  ∃ pre i post, is = pre ++ i :: post ∧ E (run step s pre) i

theorem happens_nil {E : σ → ι → Prop} {s : σ} : ¬ Happens step E s [] := by
  rintro ⟨pre, i, post, he, -⟩
  simp at he

theorem run_snoc (s : σ) (is : List ι) (i : ι) : run step s (is ++ [i]) = step (run step s is) i := run_append s is [i]

/-- It happened before the last step, or at it. -/
theorem happens_snoc {E : σ → ι → Prop} {s : σ} {is : List ι} {i : ι} :
    Happens step E s (is ++ [i]) ↔ Happens step E s is ∨ E (run step s is) i := by
  constructor
  · rintro ⟨pre, j, post, he, hE⟩
    rcases List.eq_nil_or_concat post with rfl | ⟨post, k, rfl⟩
    · obtain ⟨rfl, hij⟩ := List.append_inj' he rfl
      cases hij
      exact .inr hE
    · rw [List.concat_eq_append, ← List.cons_append, ← List.append_assoc] at he
      exact .inl ⟨pre, j, post, (List.append_inj' he rfl).1, hE⟩
  · rintro (⟨pre, j, post, rfl, hE⟩ | hE)
    · exact ⟨pre, j, post ++ [i], by simp, hE⟩
    · exact ⟨is, i, [], rfl, hE⟩

theorem Along.and {P Q : σ → ι → Prop} : ∀ {is : List ι} {s : σ}, Along step P s is → Along step Q s is →
    Along step (fun s i => P s i ∧ Q s i) s is
  | [], _, _, _ => trivial
  | _ :: _, _, hP, hQ => ⟨⟨hP.1, hQ.1⟩, Along.and hP.2 hQ.2⟩

/-- **The invariant rule**: what every step under `P` preserves, a run under `P` preserves. -/
theorem Along.invariant {P : σ → ι → Prop} {I : σ → Prop} (hstep : ∀ s i, I s → P s i → I (step s i))
    {is : List ι} {s : σ} (h : I s) (ha : Along step P s is) : I (run step s is) := by
  induction is generalizing s with
  | nil => exact h
  | cons i is ih => exact ih (hstep s i h ha.1) ha.2

/-- A property every step has in the states of an invariant holds along the run. -/
theorem Along.imp {P Q : σ → ι → Prop} {I : σ → Prop} (hstep : ∀ s i, I s → P s i → I (step s i))
    (hQ : ∀ s i, I s → P s i → Q s i) {is : List ι} {s : σ} (h : I s) (ha : Along step P s is) :
    Along step Q s is := by
  induction is generalizing s with
  | nil => trivial
  | cons i is ih => exact ⟨hQ s i h ha.1, ih (hstep s i h ha.1) ha.2⟩

/-- Two properties that agree at every step of a run hold along it together. -/
theorem Along.congr {P Q R : σ → ι → Prop} (h : ∀ s i, P s i → (Q s i ↔ R s i)) {is : List ι} {s : σ}
    (ha : Along step P s is) : Along step Q s is ↔ Along step R s is := by
  induction is generalizing s with
  | nil => exact Iff.rfl
  | cons i is ih => exact and_congr (h s i ha.1) (ih ha.2)

theorem Along.of_forall {P : σ → ι → Prop} (hP : ∀ s i, P s i) (is : List ι) (s : σ) : Along step P s is := by
  induction is generalizing s with
  | nil => trivial
  | cons i is ih => exact ⟨hP s i, ih (step s i)⟩

/-- What every step preserves, every run preserves. -/
theorem run_invariant {I : σ → Prop} (hstep : ∀ s i, I s → I (step s i)) {s : σ} (h : I s) (is : List ι) :
    I (run step s is) :=
  Along.invariant (P := fun _ _ => True) (I := I) (fun s i hs _ => hstep s i hs) h
    (.of_forall (fun _ _ => trivial) is s)

section
variable {P E : σ → ι → Prop} [∀ s i, Decidable (E s i)] {I D : σ → Prop}

theorem count_eq_zero (hinv : ∀ s i, I s → P s i → I (step s i))
    (hstay : ∀ s i, I s → D s → P s i → D (step s i)) (hnot : ∀ s i, I s → D s → P s i → ¬ E s i)
    {is : List ι} {s : σ} (h : I s) (hd : D s) (ha : Along step P s is) : count step E s is = 0 := by
  induction is generalizing s with
  | nil => rfl
  | cons i is ih =>
    rw [count, if_neg (hnot s i h hd ha.1), Nat.zero_add]
    exact ih (hinv s i h ha.1) (hstay s i h hd ha.1) ha.2

/-- An event that marks the state with something no step removes: it did not happen, or the mark is there. -/
theorem count_eq_zero_or (hinv : ∀ s i, I s → P s i → I (step s i))
    (hdone : ∀ s i, I s → P s i → E s i → D (step s i))
    (hstay : ∀ s i, I s → D s → P s i → D (step s i))
    {is : List ι} {s : σ} (h : I s) (ha : Along step P s is) : count step E s is = 0 ∨ D (run step s is) := by
  induction is generalizing s with
  | nil => exact .inl rfl
  | cons i is ih =>
    unfold count
    by_cases hE : E s i
    · have hboth : ∀ s i, I s ∧ D s → P s i → I (step s i) ∧ D (step s i) := fun s i hs hp =>
        ⟨hinv s i hs.1 hp, hstay s i hs.1 hs.2 hp⟩
      have hnext : I (step s i) ∧ D (step s i) := ⟨hinv s i h ha.1, hdone s i h ha.1 hE⟩
      exact .inr (Along.invariant (I := fun s => I s ∧ D s) hboth hnext ha.2).2
    · rw [if_neg hE, Nat.zero_add]
      exact (ih (hinv s i h ha.1) ha.2)

/-- **The at-most-once rule**: an event that brings about a state in which it cannot happen again, and
that no step leaves, happens at most once in a run. -/
theorem count_le_one (hinv : ∀ s i, I s → P s i → I (step s i))
    (hdone : ∀ s i, I s → P s i → E s i → D (step s i))
    (hstay : ∀ s i, I s → D s → P s i → D (step s i)) (hnot : ∀ s i, I s → D s → P s i → ¬ E s i)
    {is : List ι} {s : σ} (h : I s) (ha : Along step P s is) : count step E s is ≤ 1 := by
  induction is generalizing s with
  | nil => simp [count]
  | cons i is ih =>
    unfold count
    by_cases hE : E s i
    · have hz : count step E (step s i) is = 0 :=
        count_eq_zero hinv hstay hnot (hinv s i h ha.1) (hdone s i h ha.1 hE) ha.2
      rw [if_pos hE]
      omega
    · rw [if_neg hE, Nat.zero_add]
      exact ih (hinv s i h ha.1) ha.2

end

/-! ## What a party sees

Some inputs of a run concern a party and the others do not. Two runs look alike to the party if a relation between the
states is kept: by an input that concerns it, with the same output, and on one side alone by any other. The inputs to
come may have to fit the state (`Q`). -/

section
variable {ω : Type}

/-- The outputs for the inputs that concern the party. -/
def trace (step : σ → ι → σ) (out : σ → ι → ω) (concerns : ι → Bool) : σ → List ι → List ω
  | _, [] => []
  | s, i :: is =>
    if concerns i then out s i :: trace step out concerns (step s i) is else trace step out concerns (step s i) is

variable {out : σ → ι → ω} {concerns : ι → Bool} {R : σ → σ → Prop} {Q : σ → List ι → Prop}

/-- **The unwinding rule**: a run looks to the party as the run of those inputs alone that concern it. -/
theorem unwinding (htail : ∀ s i is, Q s (i :: is) → Q (step s i) is)
    (hseen : ∀ s s' i is js, R s s' → Q s (i :: is) → Q s' (i :: js) → concerns i = true →
      R (step s i) (step s' i) ∧ out s i = out s' i)
    (hunseen : ∀ s s' i is, R s s' → Q s (i :: is) → concerns i = false → R (step s i) s')
    {is : List ι} {s s' : σ} (h : R s s') (hQ : Q s is) (hQ' : Q s' (is.filter concerns)) :
    R (run step s is) (run step s' (is.filter concerns)) ∧
      trace step out concerns s is = trace step out concerns s' (is.filter concerns) := by
  induction is generalizing s s' with
  | nil => exact ⟨h, rfl⟩
  | cons i is ih =>
    cases hi : concerns i with
    | true =>
      rw [List.filter_cons_of_pos hi] at hQ' ⊢
      obtain ⟨hR, ho⟩ := hseen s s' i is _ h hQ hQ' hi
      obtain ⟨hrun, htrace⟩ := ih hR (htail _ _ _ hQ) (htail _ _ _ hQ')
      exact ⟨hrun, by simp [trace, hi, ho, htrace]⟩
    | false =>
      have hne : ¬ concerns i = true := by simp [hi]
      rw [List.filter_cons_of_neg hne] at hQ' ⊢
      obtain ⟨hrun, htrace⟩ := ih (hunseen s s' i is h hQ hi) (htail _ _ _ hQ) hQ'
      exact ⟨hrun, by simpa [trace, hi] using htrace⟩

end

end Relational
