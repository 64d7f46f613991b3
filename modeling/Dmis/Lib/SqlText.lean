import Mathlib.Data.List.Infix
import Mathlib.Logic.Basic

/-!
# Text in SQL

`like` is the `LIKE` operator with the standard escape character. A string literal doubles every quote
(`escape`); `unescape` reads the text between the outer quotes of a literal back, and has no result when a
quote ends the literal early.
-/

namespace Relational

/-- `LIKE`: `%` is any text, `_` any character, and a backslash takes the next character as it is. -/
def like : List Char → List Char → Bool
  | [], s => s.isEmpty
  | '%' :: p, s => s.tails.any (like p)
  | '_' :: p, s => !s.isEmpty && like p s.tail
  | ['\\'], _ => false
  | '\\' :: c :: p, s => s.head? = some c && like p s.tail
  | c :: p, s => s.head? = some c && like p s.tail

/-- `text.replace("'", "''")`. -/
def escape (s : List Char) : List Char := s.flatMap fun c => if c = '\'' then ['\'', '\''] else [c]

/-- The value of a string literal with `s` between its quotes. -/
def unescape : List Char → Option (List Char)
  | [] => some []
  | '\'' :: '\'' :: s => (unescape s).map ('\'' :: ·)
  | '\'' :: _ => none
  | c :: s => (unescape s).map (c :: ·)

theorem unescape_cons {c : Char} (h : c ≠ '\'') (s : List Char) : unescape (c :: s) = (unescape s).map (c :: ·) := by
  rw [unescape.eq_4]
  · intro s' hc
    exact absurd hc h
  · intro hc
    exact absurd hc h

/-- **A literal with its quotes doubled reads back.** -/
theorem unescape_escape (s : List Char) : unescape (escape s) = some s := by
  induction s with
  | nil => rfl
  | cons c s ih =>
    unfold escape at *
    by_cases h : c = '\''
    · subst h
      simp only [List.flatMap_cons, if_true, List.cons_append, List.nil_append]
      rw [unescape, ih]
      rfl
    · rw [List.flatMap_cons, if_neg h, List.singleton_append, unescape_cons h, ih]
      rfl

theorem length_le_of_unescape {s v : List Char} (h : unescape s = some v) :
    v.length ≤ s.length ∧ ('\'' ∈ s → v.length < s.length) := by
  induction s using unescape.induct generalizing v with
  | case1 =>
    cases h
    simp
  | case2 s ih =>
    rw [unescape] at h
    obtain ⟨w, hw, rfl⟩ := Option.map_eq_some_iff.1 h
    have hle := (ih hw).1
    simp only [List.length_cons]
    omega
  | case3 s hs =>
    rw [unescape.eq_3 _ hs] at h
    cases h
  | case4 c s h1 h2 ih =>
    have hc : c ≠ '\'' := fun he => h2 he
    rw [unescape_cons hc] at h
    obtain ⟨w, hw, rfl⟩ := Option.map_eq_some_iff.1 h
    obtain ⟨hle, hlt⟩ := ih hw
    refine ⟨by simpa using hle, fun hm => ?_⟩
    have hmem : '\'' ∈ s := (List.mem_cons.1 hm).resolve_left hc.symm
    simpa using hlt hmem

/-- A text without escaping is read as itself exactly when it has no quote. -/
theorem unescape_eq_self_iff {s : List Char} : unescape s = some s ↔ '\'' ∉ s := by
  constructor
  · intro h hm
    exact lt_irrefl _ ((length_le_of_unescape h).2 hm)
  · intro h
    have hs : escape s = s := by
      unfold escape
      induction s with
      | nil => rfl
      | cons c s ih =>
        obtain ⟨hc, hs⟩ := not_or.1 (fun hm => h (List.mem_cons.2 hm))
        rw [List.flatMap_cons, if_neg (Ne.symm hc), ih hs]
        rfl
    rw [← hs]
    rw [unescape_escape, hs]

end Relational
