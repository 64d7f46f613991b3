import Dmis.Lib.PythonText

/-!
# Rows in COPY text

The text format of `COPY`: a row is a line, its columns are separated by tabs, NULL is a backslash and an `N`, and in a
value the backslash and the control characters are written with a backslash. `readRow` reads a line back
(`readRow_rowLine`). No line of a row is the `\.` that ends the data, not even between white space
(`strip_rowLine_ne`), and none has a line break in it (`break_notMem_rowLine`).
-/

namespace CopyText

abbrev Text := List Char

/-- A column: NULL or a value. -/
abbrev Column := Option Text

/-! ## Writing -/

/-- The letter that stands for a character behind a backslash. -/
def letter? : Char → Option Char
  | '\\' => some '\\'
  | '\n' => some 'n'
  | '\t' => some 't'
  | '\r' => some 'r'
  | '\x08' => some 'b'
  | '\x0b' => some 'v'
  | '\x0c' => some 'f'
  | _ => none

def writeChar (c : Char) : Text :=
  match letter? c with
  | some l => ['\\', l]
  | none => [c]

def writeValue (s : Text) : Text := s.flatMap writeChar

def writeColumn : Column → Text
  | none => ['\\', 'N']
  | some s => writeValue s

/-- The line of a row, without its line break. -/
def rowLine (row : List Column) : Text := ['\t'].intercalate (row.map writeColumn)

/-! ## Reading -/

/-- The character a letter stands for behind a backslash; any other stands for itself. -/
def meant : Char → Char
  | 'n' => '\n'
  | 't' => '\t'
  | 'r' => '\r'
  | 'b' => '\x08'
  | 'v' => '\x0b'
  | 'f' => '\x0c'
  | c => c

/-- Octal and hexadecimal codes are not read: they are never written. -/
def readValue : Text → Text
  | [] => []
  | ['\\'] => ['\\']
  | '\\' :: c :: s => meant c :: readValue s
  | c :: s => c :: readValue s

def readColumn (s : Text) : Column := if s = ['\\', 'N'] then none else some (readValue s)

def readRow (line : Text) : List Column := (line.splitOn '\t').map readColumn

/-! ## What is written -/

theorem meant_letter {c l : Char} (h : letter? c = some l) : meant l = c := by
  unfold letter? at h
  split at h <;> cases h <;> rfl

theorem letter_ne_null {c l : Char} (h : letter? c = some l) : l ≠ 'N' ∧ l ≠ '.' := by
  unfold letter? at h
  split at h <;> cases h <;> decide

/-- A character without a letter is no backslash, tab or line break. -/
theorem letter?_eq_none {c : Char} (h : letter? c = none) : c ≠ '\\' ∧ c ≠ '\t' ∧ c ≠ '\n' ∧ c ≠ '\r' := by
  refine ⟨?_, ?_, ?_, ?_⟩ <;> (rintro rfl; cases h)

theorem letter_plain {c l : Char} (h : letter? c = some l) : l ≠ '\t' ∧ l ≠ '\n' ∧ l ≠ '\r' := by
  unfold letter? at h
  split at h <;> cases h <;> decide

/-- The characters of a written value. -/
theorem mem_writeValue {s : Text} {d : Char} (h : d ∈ writeValue s) : d ≠ '\t' ∧ d ≠ '\n' ∧ d ≠ '\r' := by
  obtain ⟨c, -, hd⟩ := List.mem_flatMap.1 h
  cases hl : letter? c with
  | none =>
    obtain ⟨-, htab, hlf, hcr⟩ := letter?_eq_none hl
    simp [writeChar, hl] at hd
    simp [hd, htab, hlf, hcr]
  | some l =>
    obtain ⟨htab, hlf, hcr⟩ := letter_plain hl
    simp [writeChar, hl] at hd
    rcases hd with rfl | rfl
    · decide
    · exact ⟨htab, hlf, hcr⟩

theorem mem_writeColumn {v : Column} {d : Char} (h : d ∈ writeColumn v) : d ≠ '\t' ∧ d ≠ '\n' ∧ d ≠ '\r' := by
  cases v with
  | none =>
    simp [writeColumn] at h
    rcases h with rfl | rfl <;> decide
  | some s => exact mem_writeValue h

theorem mem_intercalate {d : Char} : ∀ {cols : List Text}, d ∈ ['\t'].intercalate cols → d = '\t' ∨ ∃ t ∈ cols, d ∈ t
  | [], h => by simp at h
  | [t], h => .inr ⟨t, by simp, by simpa using h⟩
  | t :: u :: cols, h => by
    simp only [List.intercalate_cons_cons, List.mem_append, List.mem_singleton] at h
    rcases h with (h | h) | h
    · exact .inr ⟨t, by simp, h⟩
    · exact .inl h
    · rcases mem_intercalate h with h | ⟨x, hx, hd⟩
      · exact .inl h
      · exact .inr ⟨x, List.mem_cons_of_mem t hx, hd⟩

/-- A row is one line. -/
theorem break_notMem_rowLine (row : List Column) : '\n' ∉ rowLine row ∧ '\r' ∉ rowLine row := by
  have hmem : ∀ d ∈ rowLine row, d ≠ '\n' ∧ d ≠ '\r' := by
    intro d hd
    rcases mem_intercalate hd with rfl | ⟨t, ht, hd⟩
    · decide
    · obtain ⟨v, -, rfl⟩ := List.mem_map.1 ht
      exact (mem_writeColumn hd).2
  exact ⟨fun h => (hmem _ h).1 rfl, fun h => (hmem _ h).2 rfl⟩

/-! ## Reading back -/

theorem readValue_cons {c : Char} (h : c ≠ '\\') (s : Text) : readValue (c :: s) = c :: readValue s := by
  rw [readValue.eq_4]
  · intro hc
    exact absurd hc h
  · intro d t hc
    exact absurd hc h

theorem readValue_writeValue (s : Text) : readValue (writeValue s) = s := by
  induction s with
  | nil => rfl
  | cons c s ih =>
    unfold writeValue at ih ⊢
    cases hl : letter? c with
    | none => simp [writeChar, hl, readValue_cons (letter?_eq_none hl).1, ih]
    | some l => simp [writeChar, hl, readValue, meant_letter hl, ih]

/-- A value is not written as NULL. -/
theorem writeValue_ne_null (s : Text) : writeValue s ≠ ['\\', 'N'] := by
  intro h
  cases s with
  | nil => cases h
  | cons c s =>
    unfold writeValue at h
    cases hl : letter? c with
    | none =>
      simp [writeChar, hl] at h
      exact (letter?_eq_none hl).1 h.1
    | some l =>
      simp [writeChar, hl] at h
      exact (letter_ne_null hl).1 h.1

theorem readColumn_writeColumn (v : Column) : readColumn (writeColumn v) = v := by
  cases v with
  | none => rfl
  | some s => simp [readColumn, writeColumn, writeValue_ne_null, readValue_writeValue]

/-- **A row reads back from its line.** -/
theorem readRow_rowLine {row : List Column} (h : row ≠ []) : readRow (rowLine row) = row := by
  have htab : ∀ t ∈ row.map writeColumn, '\t' ∉ t := by
    intro t ht hm
    obtain ⟨v, -, rfl⟩ := List.mem_map.1 ht
    exact (mem_writeColumn hm).1 rfl
  rw [readRow, rowLine, List.splitOn_intercalate '\t' htab (by simpa using h), List.map_map]
  calc row.map (readColumn ∘ writeColumn) = row.map id :=
        List.map_congr_left fun v _ => readColumn_writeColumn v
    _ = row := List.map_id row

/-! ## The end of the data -/

/-- No backslash is followed by a point, if every one is read with the character behind it. -/
def Guarded : Text → Prop
  | [] => True
  | '\\' :: c :: s => c ≠ '.' ∧ Guarded s
  | _ :: s => Guarded s

theorem guarded_cons {c : Char} (h : c ≠ '\\') (s : Text) : Guarded (c :: s) ↔ Guarded s := by
  rw [Guarded.eq_3]
  intro d t hc
  exact absurd hc h

theorem isSpace_backslash : Python.isSpace '\\' = false := by decide

theorem guarded_space : ∀ {s : Text}, (∀ c ∈ s, Python.isSpace c = true) → Guarded s
  | [], _ => trivial
  | c :: s, h => by
    have hc : c ≠ '\\' := by
      rintro rfl
      simpa [isSpace_backslash] using h _ List.mem_cons_self
    exact (guarded_cons hc s).2 (guarded_space fun d hd => h d (List.mem_cons_of_mem c hd))

theorem guarded_writeValue_append (s : Text) {rest : Text} (h : Guarded rest) : Guarded (writeValue s ++ rest) := by
  induction s with
  | nil => exact h
  | cons c s ih =>
    unfold writeValue at ih ⊢
    cases hl : letter? c with
    | none => simpa [writeChar, hl, guarded_cons (letter?_eq_none hl).1] using ih
    | some l =>
      simp only [List.flatMap_cons, writeChar, hl, List.cons_append, List.nil_append]
      exact ⟨(letter_ne_null hl).2, ih⟩

theorem guarded_writeColumn_append (v : Column) {rest : Text} (h : Guarded rest) : Guarded (writeColumn v ++ rest) := by
  cases v with
  | none => exact ⟨by decide, h⟩
  | some s => exact guarded_writeValue_append s h

theorem guarded_rowLine_append (row : List Column) {rest : Text} (h : Guarded rest) :
    Guarded (rowLine row ++ rest) := by
  unfold rowLine
  induction row with
  | nil => exact h
  | cons v row ih =>
    cases row with
    | nil => simpa using guarded_writeColumn_append v h
    | cons w row =>
      simp only [List.map_cons, List.intercalate_cons_cons, List.append_assoc, List.singleton_append] at ih ⊢
      refine guarded_writeColumn_append v ?_
      rw [List.cons_append]
      exact (guarded_cons (by decide) _).2 ih

theorem not_guarded_dot : ∀ {space : Text} (rest : Text), '\\' ∉ space → ¬ Guarded (space ++ '\\' :: '.' :: rest)
  | [], rest, _, h => h.1 rfl
  | c :: space, rest, hs, h => by
    have hc : c ≠ '\\' := fun he => hs (he ▸ List.mem_cons_self)
    rw [List.cons_append, guarded_cons hc] at h
    exact not_guarded_dot rest (fun hm => hs (List.mem_cons_of_mem c hm)) h

/-- **No row is taken for the end of the data**, even by a reader that strips its lines. -/
theorem strip_rowLine_ne (row : List Column) {rest : Text} (hrest : ∀ c ∈ rest, Python.isSpace c = true) :
    Python.strip (rowLine row ++ rest) ≠ ['\\', '.'] := by
  intro h
  have hguarded : Guarded (rowLine row ++ rest) := guarded_rowLine_append row (guarded_space hrest)
  obtain ⟨before, after, hsplit, hbefore, -⟩ := Python.exists_strip (rowLine row ++ rest)
  rw [hsplit, h] at hguarded
  refine not_guarded_dot after (fun hm => ?_) (by simpa using hguarded)
  simpa [isSpace_backslash] using hbefore _ hm

end CopyText
