import Dmis.Lib.Fields
import Mathlib.Data.List.Basic
import Mathlib.Data.List.DropRight
import Mathlib.Data.List.Infix

/-!
# POSIX path texts

`basename`, `join`, `normpath` and `abspath` of `posixpath`, on lists of characters. A rooted path in normal form is
`render n cs`: one or two slashes and the names `cs` between slashes, none of them empty, `.` or `..`. Every absolute
path normalises to one (`exists_render`); joining names to one appends them (`joinAll_render`), and normalising
drops the dots among them (`normpath_render`).
-/

namespace Posix

abbrev Path := List Char

def dot : Path := ['.']

def dotdot : Path := ['.', '.']

def isabs (p : Path) : Prop := p.head? = some '/'

instance (p : Path) : Decidable (isabs p) := inferInstanceAs (Decidable (_ = _))

/-- What follows the last slash. -/
def basename (p : Path) : Path := p.rtakeWhile (· ≠ '/')

/-- `os.path.join` of two paths; an absolute one starts afresh. -/
def join (a b : Path) : Path :=
  if isabs b then b else if a = [] ∨ a.getLast? = some '/' then a ++ b else a ++ '/' :: b

def joinAll (a : Path) (bs : List Path) : Path := bs.foldl join a

/-- Two slashes in front are kept, three or more count as one. -/
def leadingSlashes : Path → ℕ
  | '/' :: '/' :: '/' :: _ => 1
  | '/' :: '/' :: _ => 2
  | '/' :: _ => 1
  | _ => 0

/-- One component in the loop of `normpath`. -/
def push (rooted : Bool) (acc : List Path) (c : Path) : List Path :=
  if c = [] ∨ c = dot then acc
  else if c ≠ dotdot ∨ (rooted = false ∧ acc = []) ∨ acc.getLast? = some dotdot then acc ++ [c]
  else acc.dropLast

def components (p : Path) : List Path := (p.splitOn '/').foldl (push (leadingSlashes p ≠ 0)) []

/-- Slashes, and components between slashes. -/
def render (n : ℕ) (cs : List Path) : Path := List.replicate n '/' ++ ['/'].intercalate cs

def normpath (p : Path) : Path :=
  let r := render (leadingSlashes p) (components p)
  if p = [] ∨ r = [] then dot else r

/-- `os.path.abspath` in the working directory `cwd`. -/
def abspath (cwd p : Path) : Path := normpath (if isabs p then p else join cwd p)

/-! ## Names -/

/-- A component that can be joined and stands for itself or for nothing. -/
structure Piece (c : Path) : Prop where
  ne_nil : c ≠ []
  ne_dotdot : c ≠ dotdot
  slash : '/' ∉ c

/-- A component of a normal path. -/
structure Name (c : Path) : Prop extends Piece c where
  ne_dot : c ≠ dot

theorem slash_notMem_basename (p : Path) : '/' ∉ basename p := by
  intro h
  have := List.mem_rtakeWhile_imp h
  simp at this

theorem basename_of_notMem {p : Path} (h : '/' ∉ p) : basename p = p := by
  unfold basename
  rw [List.rtakeWhile_eq_self_iff]
  intro c hc
  simp only [ne_eq, decide_eq_true_eq]
  rintro rfl
  exact h hc

/-! ## Normal paths -/

/-- From a rooted path only names are left. -/
theorem push_names {acc : List Path} {c : Path} (hacc : ∀ d ∈ acc, Name d) (hc : '/' ∉ c) :
    ∀ d ∈ push true acc c, Name d := by
  unfold push
  split_ifs with hskip hkeep
  · exact hacc
  · rw [not_or] at hskip
    intro d hd
    rcases List.mem_append.1 hd with hd | hd
    · exact hacc d hd
    · obtain rfl := List.mem_singleton.1 hd
      refine ⟨⟨hskip.1, ?_, hc⟩, hskip.2⟩
      rcases hkeep with hkeep | hkeep | hkeep
      · exact hkeep
      · simp at hkeep
      · exact absurd rfl (hacc _ (List.mem_of_getLast? hkeep)).ne_dotdot
  · exact fun d hd => hacc d (List.dropLast_subset acc hd)

theorem foldl_push_names {cs : List Path} (hcs : ∀ c ∈ cs, '/' ∉ c) :
    ∀ {acc : List Path}, (∀ d ∈ acc, Name d) → ∀ d ∈ cs.foldl (push true) acc, Name d := by
  induction cs with
  | nil =>
    intro acc hacc
    exact hacc
  | cons c cs ih =>
    intro acc hacc
    rw [List.foldl_cons]
    exact ih (fun d hd => hcs d (by simp [hd])) (push_names hacc (hcs c (by simp)))

theorem leadingSlashes_of_isabs {p : Path} (h : isabs p) : leadingSlashes p = 1 ∨ leadingSlashes p = 2 := by
  cases p with
  | nil => simp [isabs] at h
  | cons c p =>
    obtain rfl : c = '/' := by simpa [isabs] using h
    unfold leadingSlashes
    split <;> simp_all

/-- **An absolute path normalises to slashes and names.** -/
theorem exists_render {p : Path} (h : isabs p) :
    ∃ n cs, (n = 1 ∨ n = 2) ∧ (∀ c ∈ cs, Name c) ∧ normpath p = render n cs := by
  have hn := leadingSlashes_of_isabs h
  have hp : p ≠ [] := by
    rintro rfl
    simp [isabs] at h
  have hne : leadingSlashes p ≠ 0 := by omega
  refine ⟨leadingSlashes p, components p, hn, ?_, ?_⟩
  · unfold components
    rw [show decide (leadingSlashes p ≠ 0) = true by simpa using hne]
    exact foldl_push_names (fun c hc => Fields.sep_notMem_of_splitOn hc) (by simp)
  · have hr : render (leadingSlashes p) (components p) ≠ [] := by
      unfold render
      rcases hn with hn | hn <;> simp [hn, List.replicate]
    simp only [normpath, hp, hr, or_self, if_false]

theorem isabs_join {a b : Path} (h : isabs a) : isabs (join a b) := by
  unfold join
  split_ifs with hb
  · exact hb
  all_goals
    cases a with
    | nil => simp [isabs] at h
    | cons c a => simpa [isabs] using h

theorem exists_abspath {cwd : Path} (hcwd : isabs cwd) (p : Path) :
    ∃ n cs, (n = 1 ∨ n = 2) ∧ (∀ c ∈ cs, Name c) ∧ abspath cwd p = render n cs := by
  unfold abspath
  split_ifs with hp
  · exact exists_render hp
  · exact exists_render (isabs_join hcwd)

/-! ## Pieces below a normal path -/

theorem not_isabs {c : Path} (h : Piece c) : ¬ isabs c := by
  cases c with
  | nil => simp [isabs]
  | cons a c =>
    intro ha
    obtain rfl : a = '/' := by simpa [isabs] using ha
    exact h.slash List.mem_cons_self

theorem intercalate_append : ∀ {cs ds : List Path}, cs ≠ [] → ds ≠ [] →
    ['/'].intercalate (cs ++ ds) = ['/'].intercalate cs ++ '/' :: ['/'].intercalate ds
  | [], _, h, _ => absurd rfl h
  | [c], ds, _, h => by simp [List.intercalate_cons_of_ne_nil h]
  | c :: d :: cs, ds, _, h => by
    have ih := intercalate_append (List.cons_ne_nil d cs) h
    simp only [List.cons_append, List.intercalate_cons_cons] at ih ⊢
    simp [ih]

theorem render_append {n : ℕ} {cs ds : List Path} (hcs : cs ≠ []) (hds : ds ≠ []) :
    render n (cs ++ ds) = render n cs ++ '/' :: ['/'].intercalate ds := by
  unfold render
  rw [intercalate_append hcs hds, List.append_assoc]

theorem getLast?_render {cs : List Path} (hcs : ∀ c ∈ cs, Piece c) (hne : cs ≠ []) (n : ℕ) :
    (render n cs).getLast? ≠ some '/' := by
  obtain ⟨ds, d, rfl⟩ := (List.eq_nil_or_concat' cs).resolve_left hne
  have hd := hcs d (by simp)
  have hlast : ∃ l, render n (ds ++ [d]) = l ++ d := by
    by_cases h : ds = []
    · exact ⟨List.replicate n '/', by simp [h, render]⟩
    · exact ⟨render n ds ++ ['/'], by simp [render_append h]⟩
  obtain ⟨l, hl⟩ := hlast
  intro h
  rw [hl, List.getLast?_append_of_ne_nil l hd.ne_nil] at h
  exact hd.slash (List.mem_of_getLast? h)

/-- **Joining a piece appends it.** -/
theorem join_render {n : ℕ} (hn : 0 < n) {cs : List Path} (hcs : ∀ c ∈ cs, Piece c) {d : Path} (hd : Piece d) :
    join (render n cs) d = render n (cs ++ [d]) := by
  unfold join
  rw [if_neg (not_isabs hd)]
  by_cases h : cs = []
  · obtain ⟨m, rfl⟩ := Nat.exists_eq_add_of_lt hn
    simp [h, render, List.replicate_succ']
  · have hne : render n cs ≠ [] := by
      intro he
      have : '/' ∈ render n cs := by simp [render]; omega
      simp [he] at this
    rw [if_neg (by simp [hne, getLast?_render hcs h n]), render_append h (by simp)]
    simp

theorem joinAll_render {n : ℕ} (hn : 0 < n) {ds : List Path} (hds : ∀ d ∈ ds, Piece d) :
    ∀ {cs : List Path}, (∀ c ∈ cs, Piece c) → joinAll (render n cs) ds = render n (cs ++ ds) := by
  induction ds with
  | nil =>
    intro cs _
    simp [joinAll]
  | cons d ds ih =>
    intro cs hcs
    have hd := hds d (by simp)
    have hcsd : ∀ c ∈ cs ++ [d], Piece c := by
      intro c hc
      rcases List.mem_append.1 hc with hc | hc
      · exact hcs c hc
      · simpa [List.mem_singleton.1 hc] using hd
    have ih := ih (fun c hc => hds c (by simp [hc])) hcsd
    rw [joinAll, List.foldl_cons, join_render hn hcs hd]
    simpa [joinAll] using ih

/-! ## Normalising a rendered path -/

theorem foldl_push_pieces {rooted : Bool} {cs : List Path} (hcs : ∀ c ∈ cs, Piece c) :
    ∀ {acc : List Path}, cs.foldl (push rooted) acc = acc ++ cs.filter (· ≠ dot) := by
  induction cs with
  | nil => simp
  | cons c cs ih =>
    intro acc
    have hc := hcs c (by simp)
    rw [List.foldl_cons, ih fun d hd => hcs d (by simp [hd])]
    by_cases h : c = dot
    · simp [push, h]
    · simp [push, h, hc.ne_nil, hc.ne_dotdot]

theorem splitOn_render {cs : List Path} (hcs : ∀ c ∈ cs, Piece c) (n : ℕ) :
    (render n cs).splitOn '/' = List.replicate n [] ++ if cs = [] then [[]] else cs := by
  induction n with
  | zero =>
    unfold render
    by_cases h : cs = []
    · simp [h]
    · simpa [h] using List.splitOn_intercalate '/' (fun c hc => (hcs c hc).slash) h
  | succ n ih =>
    have hcons : render (n + 1) cs = [] ++ '/' :: render n cs := by simp [render, List.replicate_succ]
    rw [hcons, List.splitOn_append_cons_self, ih]
    simp [List.replicate_succ]

theorem leadingSlashes_render {n : ℕ} (hn : n = 1 ∨ n = 2) {cs : List Path} (hcs : ∀ c ∈ cs, Piece c) :
    leadingSlashes (render n cs) = n := by
  have hhead : ∀ t, ['/'].intercalate cs ≠ '/' :: t := by
    intro t ht
    cases cs with
    | nil => simp at ht
    | cons c cs =>
      have hc := hcs c (by simp)
      obtain ⟨a, c, rfl⟩ := List.exists_cons_of_ne_nil hc.ne_nil
      have ha : a ≠ '/' := fun h => hc.slash (by simp [h])
      cases cs <;> simp [List.intercalate_cons_cons, ha] at ht
  unfold render
  rcases hn with rfl | rfl
  · cases h : ['/'].intercalate cs with
    | nil => rfl
    | cons a t =>
      have ha : a ≠ '/' := fun he => hhead t (by rw [h, he])
      simp [leadingSlashes, ha]
  · cases h : ['/'].intercalate cs with
    | nil => rfl
    | cons a t =>
      have ha : a ≠ '/' := fun he => hhead t (by rw [h, he])
      simp [leadingSlashes, List.replicate, ha]

/-- **Normalising drops the dots.** -/
theorem normpath_render {n : ℕ} (hn : n = 1 ∨ n = 2) {cs : List Path} (hcs : ∀ c ∈ cs, Piece c) :
    normpath (render n cs) = render n (cs.filter (· ≠ dot)) := by
  have hcomps : components (render n cs) = cs.filter (· ≠ dot) := by
    have hskip : ∀ {m : ℕ} {b : Bool} {l : List Path},
        (List.replicate m [] ++ l).foldl (push b) [] = l.foldl (push b) [] := by
      intro m b l
      induction m with
      | zero => simp
      | succ m ih => simpa [List.replicate_succ, push] using ih
    unfold components
    rw [splitOn_render hcs, hskip]
    by_cases h : cs = []
    · simp [h, push]
    · rw [if_neg h, foldl_push_pieces hcs, List.nil_append]
  have hne : ∀ ds, render n ds ≠ [] := by
    intro ds
    unfold render
    rcases hn with rfl | rfl <;> simp [List.replicate]
  simp only [normpath, leadingSlashes_render hn hcs, hcomps, hne, or_self, if_false]

theorem isabs_render {n : ℕ} (hn : 0 < n) (cs : List Path) : isabs (render n cs) := by
  obtain ⟨m, rfl⟩ := Nat.exists_eq_add_of_lt hn
  simp [isabs, render, List.replicate_succ]

end Posix
