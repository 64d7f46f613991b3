import Mathlib.Data.List.Basic
import Mathlib.Data.List.TakeWhile

/-!
# Lines of named values

A line joins fields `name=value` with a separator. `parse` reads it from the left: the line is split at every
separator, and each token at its first equals sign. Fields without separators read back as they were written
(`parse_line`), whatever follows them (`parse_line_append`); and no value that is read holds a separator
(`sep_notMem_of_parse`), so one that was written with a separator does not come back.
-/

namespace Fields

variable {α : Type} [DecidableEq α]

def field (eq : α) (f : List α × List α) : List α := f.1 ++ eq :: f.2

/-- Name and value of a token; `none` without an equals sign. -/
def field? (eq : α) (token : List α) : Option (List α × List α) :=
  if eq ∈ token then some (token.takeWhile (· ≠ eq), (token.dropWhile (· ≠ eq)).tail) else none

def parse (sep eq : α) (line : List α) : List (List α × List α) := (line.splitOn sep).filterMap (field? eq)

/-- The fields before the first one of this name. -/
def before (stop : List α) (fields : List (List α × List α)) : List (List α × List α) :=
  fields.takeWhile fun f => f.1 ≠ stop

def valuesOf (name : List α) (fields : List (List α × List α)) : List (List α) :=
  (fields.filter fun f => f.1 = name).map Prod.snd

/-- A name can be read, and the value stays in its token. -/
structure Readable (sep eq : α) (f : List α × List α) : Prop where
  eq_name : eq ∉ f.1
  sep_name : sep ∉ f.1
  sep_value : sep ∉ f.2

variable {sep eq : α}

/-! ## Tokens -/

theorem sep_notMem_of_splitOn : ∀ {line : List α} {token : List α}, token ∈ line.splitOn sep → sep ∉ token
  | [], token, h => by
    rw [List.splitOn_nil, List.mem_singleton] at h
    simp [h]
  | a :: line, token, h => by
    rw [List.splitOn_cons_eq_if_modifyHead] at h
    by_cases ha : a = sep
    · rw [if_pos (by simpa using ha)] at h
      rcases List.mem_cons.1 h with rfl | h
      · simp
      · exact sep_notMem_of_splitOn h
    · rw [if_neg (by simpa using ha)] at h
      obtain ⟨t, ts, hts⟩ := List.exists_cons_of_ne_nil (List.splitOn_ne_nil sep line)
      rw [hts, List.modifyHead_cons] at h
      rcases List.mem_cons.1 h with rfl | h
      · have htoken : t ∈ line.splitOn sep := by simp [hts]
        have ht : sep ∉ t := sep_notMem_of_splitOn htoken
        simp [ht, Ne.symm ha]
      · have htoken : token ∈ line.splitOn sep := by simp [hts, h]
        exact sep_notMem_of_splitOn htoken

theorem field?_field {f : List α × List α} (h : eq ∉ f.1) : field? eq (field eq f) = some f := by
  have hname : ∀ a ∈ f.1, decide (a ≠ eq) = true := fun a ha => decide_eq_true fun he => h (he ▸ ha)
  unfold field? field
  rw [if_pos (by simp), List.takeWhile_append_of_pos hname, List.dropWhile_append_of_pos hname]
  simp

/-! ## Lines -/

/-- No value that is read holds a separator. -/
theorem sep_notMem_of_parse {line : List α} {f : List α × List α} (h : f ∈ parse sep eq line) : sep ∉ f.2 := by
  obtain ⟨token, htoken, hf⟩ := List.mem_filterMap.1 h
  have hsep := sep_notMem_of_splitOn htoken
  unfold field? at hf
  split at hf
  · cases hf
    intro hm
    exact hsep ((List.dropWhile_suffix _).mem (List.mem_of_mem_tail hm))
  · cases hf

/-- A field in front of a separator is read, and reading goes on behind it. -/
theorem parse_field_append {f : List α × List α} (h : Readable sep eq f) (hne : sep ≠ eq) (rest : List α) :
    parse sep eq (field eq f ++ sep :: rest) = f :: parse sep eq rest := by
  have hsep : sep ∉ field eq f := by simp [field, h.sep_name, h.sep_value, hne]
  rw [parse, List.splitOn_append_cons_self_of_not_mem hsep, List.filterMap_cons_some (field?_field h.eq_name)]
  rfl

/-- **Readable fields read back**, with anything behind them. -/
theorem parse_line_append (hne : sep ≠ eq) (rest : List α) : ∀ {fs : List (List α × List α)},
    (∀ f ∈ fs, Readable sep eq f) → fs ≠ [] →
      parse sep eq ([sep].intercalate (fs.map (field eq) ++ [rest])) = fs ++ parse sep eq rest
  | [], _, h => absurd rfl h
  | [f], hf, _ => by
    have h := hf f List.mem_cons_self
    simpa [List.intercalate_cons_cons] using parse_field_append h hne rest
  | f :: g :: fs, hf, _ => by
    have h := hf f List.mem_cons_self
    have ih := parse_line_append hne rest (fun x hx => hf x (List.mem_cons_of_mem f hx))
      (List.cons_ne_nil g fs)
    rw [List.map_cons, List.cons_append, List.intercalate_cons_of_ne_nil (by simp), List.append_assoc,
      List.singleton_append, parse_field_append h hne, ih]
    rfl

/-- **Readable fields read back.** -/
theorem parse_line (hne : sep ≠ eq) {fs : List (List α × List α)} (hf : ∀ f ∈ fs, Readable sep eq f) (h : fs ≠ []) :
    parse sep eq ([sep].intercalate (fs.map (field eq))) = fs := by
  have hsep : ∀ t ∈ fs.map (field eq), sep ∉ t := by
    intro t ht
    obtain ⟨f, hmem, rfl⟩ := List.mem_map.1 ht
    have hread := hf f hmem
    simp [field, hread.sep_name, hread.sep_value, hne]
  rw [parse, List.splitOn_intercalate sep hsep (by simpa using h), List.filterMap_map]
  calc fs.filterMap (field? eq ∘ field eq) = fs.filterMap some :=
        List.filterMap_congr fun f hmem => field?_field (hf f hmem).eq_name
    _ = fs := List.filterMap_some

/-- What is read of a field that holds separators: its name, and the value up to the first. -/
theorem parse_field {name value : List α} (heq : eq ∉ name) (hsep : sep ∉ name) (hne : sep ≠ eq) :
    ∃ value' rest, parse sep eq (field eq (name, value)) = (name, value') :: rest := by
  by_cases h : sep ∈ value
  · obtain ⟨v, w, rfl, hv⟩ := List.eq_append_cons_of_mem h
    have hread : Readable sep eq (name, v) := ⟨heq, hsep, hv⟩
    have hsplit : field eq (name, v ++ sep :: w) = field eq (name, v) ++ sep :: w := by simp [field]
    exact ⟨v, parse sep eq w, by rw [hsplit, parse_field_append hread hne]⟩
  · have hread : ∀ f ∈ [(name, value)], Readable sep eq f := by simpa using ⟨heq, hsep, h⟩
    have hline := parse_line hne hread (List.cons_ne_nil _ _)
    exact ⟨value, [], by simpa using hline⟩

/-- Fields of other names stand before the first of this name. -/
theorem before_append {stop value : List α} {fs rest : List (List α × List α)} (h : ∀ f ∈ fs, f.1 ≠ stop) :
    before stop (fs ++ (stop, value) :: rest) = fs := by
  unfold before
  rw [List.takeWhile_append_of_pos fun f hf => decide_eq_true (h f hf)]
  simp

theorem before_eq_self {stop : List α} {fs : List (List α × List α)} (h : ∀ f ∈ fs, f.1 ≠ stop) :
    before stop fs = fs :=
  List.takeWhile_eq_self_iff.2 fun f hf => decide_eq_true (h f hf)

theorem valuesOf_append (name : List α) (fs gs : List (List α × List α)) :
    valuesOf name (fs ++ gs) = valuesOf name fs ++ valuesOf name gs := by
  unfold valuesOf
  rw [List.filter_append, List.map_append]

theorem valuesOf_cons (name m v : List α) (fs : List (List α × List α)) :
    valuesOf name ((m, v) :: fs) = (if m = name then [v] else []) ++ valuesOf name fs := by
  unfold valuesOf
  rw [List.filter_cons]
  by_cases h : m = name
  · rw [if_pos (by simpa using h), if_pos h]
    rfl
  · rw [if_neg (by simpa using h), if_neg h]
    rfl

/-- The values under one name. -/
theorem valuesOf_map_mk (name m : List α) (vs : List (List α)) :
    valuesOf name (vs.map (Prod.mk m)) = if m = name then vs else [] := by
  induction vs with
  | nil => simp [valuesOf]
  | cons v vs ih =>
    rw [List.map_cons, valuesOf_cons, ih]
    split_ifs <;> rfl

/-- A value that is read in front of the stop holds no separator. -/
theorem sep_notMem_of_valuesOf {stop name line value : List α}
    (h : value ∈ valuesOf name (before stop (parse sep eq line))) : sep ∉ value := by
  obtain ⟨f, hf, rfl⟩ := List.mem_map.1 h
  exact sep_notMem_of_parse ((List.takeWhile_prefix _).mem (List.mem_filter.1 hf).1)

end Fields
