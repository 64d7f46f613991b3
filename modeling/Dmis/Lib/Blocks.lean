import Mathlib.Data.List.Basic
import Mathlib.Data.List.Infix

/-!
# Lines with blocks

A list of lines in which some lines open a block: the lines of the block follow, up to one that closes it. `parse` finds
the parts and `render` writes them out again; the two are inverse to each other (`render_parse` for every list of lines,
`parse_render` for parts that look like what they are). `edit` goes through the lines once and drops the bodies of some
blocks: it is `cut` on the parts (`edit_eq_render`, `parse_edit`), so a second pass changes nothing (`edit_edit`).
-/

namespace Blocks

variable {α : Type}

/-- A line of its own, or a block; the last block of a list may have no closing line. -/
inductive Piece (α : Type) where
  | plain (line : α)
  | block (head : α) (body : List α) (last : Option α)
  deriving DecidableEq, Repr

def Piece.lines : Piece α → List α
  | .plain line => [line]
  | .block head body last => head :: (body ++ last.toList)

def render (ps : List (Piece α)) : List α := ps.flatMap Piece.lines

@[simp] theorem render_nil : render ([] : List (Piece α)) = [] := rfl
@[simp] theorem render_cons (p : Piece α) (ps : List (Piece α)) : render (p :: ps) = p.lines ++ render ps := rfl

/-- The part without its body, if its head is not one of those kept. -/
def Piece.cut (keep : α → Bool) : Piece α → Piece α
  | .plain line => .plain line
  | .block head body last => .block head (if keep head then body else []) last

@[simp] theorem cut_cut (keep : α → Bool) (p : Piece α) : (p.cut keep).cut keep = p.cut keep := by
  cases p with
  | plain line => rfl
  | block head body last => cases h : keep head <;> simp [Piece.cut, h]

section
variable (opens closes : α → Bool)

/-- What follows the head of a block: its body, its closing line and the other parts. -/
abbrev Opened (α : Type) := List α × Option α × List (Piece α)

mutual

/-- The parts of lines that stand outside of any block. -/
def parse : List α → List (Piece α)
  | [] => []
  | l :: ls =>
    if opens l then
      let (body, last, ps) := parseBlock ls
      .block l body last :: ps
    else .plain l :: parse ls

def parseBlock : List α → Opened α
  | [] => ([], none, [])
  | l :: ls =>
    if closes l then ([], some l, parse ls)
    else
      let (body, last, ps) := parseBlock ls
      (l :: body, last, ps)

end

mutual

/-- The lines, without the bodies of the blocks that are not kept. -/
def edit (keep : α → Bool) : List α → List α
  | [] => []
  | l :: ls => if opens l then l :: editBlock keep (keep l) ls else l :: edit keep ls

def editBlock (keep : α → Bool) (kept : Bool) : List α → List α
  | [] => []
  | l :: ls =>
    if closes l then l :: edit keep ls
    else if kept then l :: editBlock keep kept ls
    else editBlock keep kept ls

end

/-- A line of its own opens no block; a block has a head, a closing line and none in its body. -/
def Piece.Closed : Piece α → Prop
  | .plain line => opens line = false
  | .block head body last => opens head = true ∧ (∀ l ∈ body, closes l = false) ∧ ∃ l ∈ last, closes l = true

end

variable {opens closes : α → Bool} {keep : α → Bool}

/-! ## Parsing and writing -/

/-- **Parsing loses nothing**, whatever the lines are. -/
theorem render_parse (ls : List α) : render (parse opens closes ls) = ls := by
  suffices h : render (parse opens closes ls) = ls ∧
      (parseBlock opens closes ls).1 ++ (parseBlock opens closes ls).2.1.toList ++
        render (parseBlock opens closes ls).2.2 = ls from h.1
  induction ls with
  | nil => simp [parse, parseBlock]
  | cons l ls ih =>
    obtain ⟨hout, hin⟩ := ih
    constructor
    · by_cases ho : opens l
      · simpa [parse, ho, Piece.lines] using hin
      · simp [parse, ho, Piece.lines, hout]
    · by_cases hc : closes l
      · simp [parseBlock, hc, hout]
      · simpa [parseBlock, hc] using hin

theorem parseBlock_append {body : List α} (hbody : ∀ l ∈ body, closes l = false) {last : α} (hlast : closes last = true)
    (ls : List α) : parseBlock opens closes (body ++ last :: ls) = (body, some last, parse opens closes ls) := by
  induction body with
  | nil => simp [parseBlock, hlast]
  | cons l body ih =>
    have hl := hbody l List.mem_cons_self
    simp [parseBlock, hl, ih fun m hm => hbody m (List.mem_cons_of_mem l hm)]

theorem parse_append {p : Piece α} (hp : p.Closed opens closes) (ls : List α) :
    parse opens closes (p.lines ++ ls) = p :: parse opens closes ls := by
  cases p with
  | plain line =>
    have hline : opens line = false := hp
    simp [Piece.lines, parse, hline]
  | block head body last =>
    obtain ⟨hhead, hbody, l, rfl, hl⟩ := hp
    simp [Piece.lines, parse, hhead, parseBlock_append hbody hl]

/-- **Closed parts read back.** -/
theorem parse_render {ps : List (Piece α)} (h : ∀ p ∈ ps, p.Closed opens closes) :
    parse opens closes (render ps) = ps := by
  induction ps with
  | nil => simp [parse]
  | cons p ps ih =>
    rw [render_cons, parse_append (h p List.mem_cons_self), ih fun q hq => h q (List.mem_cons_of_mem p hq)]

/-! ## One pass over the lines -/

/-- The pass and the parts, outside of a block and in one. -/
theorem parse_edit_both (ls : List α) :
    parse opens closes (edit opens closes keep ls) = (parse opens closes ls).map (Piece.cut keep) ∧
    ∀ kept, parseBlock opens closes (editBlock opens closes keep kept ls) =
      (if kept then (parseBlock opens closes ls).1 else [], (parseBlock opens closes ls).2.1,
        (parseBlock opens closes ls).2.2.map (Piece.cut keep)) := by
  induction ls with
  | nil => simp [parse, parseBlock, edit, editBlock]
  | cons l ls ih =>
    obtain ⟨hout, hin⟩ := ih
    constructor
    · by_cases ho : opens l
      · simp [parse, edit, ho, hin, Piece.cut]
      · simp [parse, edit, ho, hout, Piece.cut]
    · intro kept
      by_cases hc : closes l
      · simp [parseBlock, editBlock, hc, hout]
      · cases kept <;> simp [parseBlock, editBlock, hc, hin]

theorem parse_edit (ls : List α) :
    parse opens closes (edit opens closes keep ls) = (parse opens closes ls).map (Piece.cut keep) :=
  (parse_edit_both ls).1

theorem edit_eq_render (ls : List α) :
    edit opens closes keep ls = render ((parse opens closes ls).map (Piece.cut keep)) := by
  rw [← parse_edit, render_parse]

/-- **A second pass changes nothing**, whatever the lines are. -/
theorem edit_edit (ls : List α) :
    edit opens closes keep (edit opens closes keep ls) = edit opens closes keep ls := by
  rw [edit_eq_render, parse_edit, List.map_map, edit_eq_render]
  congr 2
  funext p
  simp

/-- **Closed parts are cut one by one.** -/
theorem edit_render {ps : List (Piece α)} (h : ∀ p ∈ ps, p.Closed opens closes) :
    edit opens closes keep (render ps) = render (ps.map (Piece.cut keep)) := by
  rw [edit_eq_render, parse_render h]

theorem lines_cut_sublist (p : Piece α) : ((p.cut keep).lines).Sublist p.lines := by
  cases p with
  | plain line => exact .refl _
  | block head body last =>
    cases hk : keep head
    · simp [Piece.cut, Piece.lines, hk]
    · simp [Piece.cut, Piece.lines, hk]

/-- Lines are dropped, none is added or moved. -/
theorem edit_sublist (ls : List α) : (edit opens closes keep ls).Sublist ls := by
  have h : ∀ ps : List (Piece α), (render (ps.map (Piece.cut keep))).Sublist (render ps) := by
    intro ps
    induction ps with
    | nil => simp
    | cons p ps ih => simpa using (lines_cut_sublist p).append ih
  rw [edit_eq_render]
  simpa only [render_parse] using h (parse opens closes ls)

end Blocks
