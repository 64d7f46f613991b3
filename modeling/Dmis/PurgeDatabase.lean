import Dmis.Lib.Blocks
import Dmis.Lib.CopyText
import Dmis.Lib.Lists
import Mathlib.Data.Char
import Mathlib.Data.List.Dedup
import Mathlib.Data.List.Lex

/-!
# Purging a database dump

`scripts/purge_database.py` reads a dump of `pg_dump` line by line and drops the rows of all tables but those of a list.

| here | there |
| --- | --- |
| `matchCopy` | `copy_pattern.match(line)`, with its group |
| `normalizeTableName`, `shouldPreserveTable` | `normalize_table_name`, `should_preserve_table` |
| `outside`, `inBlock` | the loop over the lines, its two inner loops |
| `processDump` | `process_dump`, the lines that are written and `stats` |

A dump is a list of SQL lines and of tables with their rows (`Dump`); `Dump.render` are its lines and `Dump.read` is what
`psql` makes of them. Which line opens the block of which table is up to `psql`: it is a parameter, a `Reader`. Main
theorem `dump_purged`: of a dump whose headers the script takes for what they are (`Dump.Recognised`), the lines that are
written are the dump with the rows of the purged tables left out and everything else as it was. The headers `pg_dump`
writes for the schema `public` are recognised, if the table is a word in lower case (`recognised_header`); those of other
schemas are not, and the rows below them stay. The script takes a line for the end of a block when it is `\.` but for
white space, `psql` only when it is nothing but that: no row that is dumped makes a difference
(`CopyText.strip_rowLine_ne`).
-/

namespace Dmis

namespace PurgeDatabase

open CopyText Blocks

/-! ## Lines -/

/-- `\w` and `str.lower`. -/
structure Letters where
  isWord : Char → Bool
  lower : Text → Text

/-- What a character counts as under `re.IGNORECASE`, as far as the letters of the pattern go. -/
def ignoreCase (c : Char) : Char := if c = 'ſ' then 's' else if c = 'ı' ∨ c = 'İ' then 'i' else c.toLower

/-- What follows a text of the pattern. -/
def literal (p : String) (s : Text) : Option Text :=
  if (s.take p.length).map ignoreCase = p.toList then some (s.drop p.length) else none

/-- What follows `\s+`. -/
def space (s : Text) : Option Text :=
  if s.takeWhile Python.isSpace = [] then none else some (s.dropWhile Python.isSpace)

/-- No repetition of the pattern can end before its longest match, so none is tried again. -/
def matchCopy (f : Letters) (line : Text) : Option Text := do
  let s ← literal "copy" line
  let s ← space s
  let s := (literal "public." s).getD s
  let name := s.takeWhile fun c => c = '"' || f.isWord c
  let s ← if name = [] then none else literal "(" ((s.drop name.length).dropWhile Python.isSpace)
  let s ← literal ")" (s.dropWhile (· ≠ ')'))
  let s ← space s
  let s ← literal "from" s
  let s ← space s
  let _ ← literal "stdin;" s
  pure name

/-- `TABLES_TO_PRESERVE`. -/
def tablesToPreserve : List Text :=
  ["country", "currency", "hadr_aid_movement_staging", "transaction", "inventory", "itembatch", "item", "itemcatg",
    "parish", "role", "unitofmeasure", "user_warehouse", "user", "user_role", "reliefrqstitem_status",
    "reliefrqst_status", "custodian", "warehouse"].map String.toList

def normalizeTableName (f : Letters) (name : Text) : Text :=
  let name := if '.' ∈ name then (name.splitOn '.').getLastD [] else name
  Python.strip (f.lower (name.filter fun c => c ≠ '"' && c ≠ '\''))

def shouldPreserveTable (f : Letters) (tableName : Text) : Bool :=
  tablesToPreserve.contains (normalizeTableName f tableName)

/-- `lines[i].strip() == '\\.'`. -/
def isTerminator (line : Text) : Bool := Python.strip line = ['\\', '.']

/-! ## The script -/

/-- `output_lines` and three entries of `stats`. -/
structure Progress where
  outputLines : List Text
  tablesPreserved : List Text
  tablesPurged : List Text
  copyBlocksProcessed : ℕ
  deriving DecidableEq, Repr

def Progress.none : Progress := ⟨[], [], [], 0⟩

def Progress.keepLine (line : Text) (p : Progress) : Progress := { p with outputLines := line :: p.outputLines }

/-- A line that opens a block of this table. -/
def Progress.keepHeader (f : Letters) (line name : Text) (p : Progress) : Progress :=
  { outputLines := line :: p.outputLines
    tablesPreserved :=
      if shouldPreserveTable f name then normalizeTableName f name :: p.tablesPreserved else p.tablesPreserved
    tablesPurged := if shouldPreserveTable f name then p.tablesPurged else normalizeTableName f name :: p.tablesPurged
    copyBlocksProcessed := p.copyBlocksProcessed + 1 }

mutual

/-- The loop, at a line that stands in no block. -/
def outside (f : Letters) : List Text → Progress
  | [] => .none
  | line :: lines =>
    match matchCopy f line with
    | some name => (inBlock f (shouldPreserveTable f name) lines).keepHeader f line name
    | none => (outside f lines).keepLine line

/-- An inner loop, which copies the lines of a block or skips them. -/
def inBlock (f : Letters) (kept : Bool) : List Text → Progress
  | [] => .none
  | line :: lines =>
    if isTerminator line then (outside f lines).keepLine line
    else if kept then (inBlock f kept lines).keepLine line
    else inBlock f kept lines

end

/-- `sorted(set(names))`, by code points. -/
def sortedSet (names : List Text) : List Text := names.dedup.mergeSort fun a b => a ≤ b

/-- The lines of the output file, and `stats`. -/
structure Processed where
  outputLines : List Text
  totalLines : ℕ
  tablesPreserved : List Text
  tablesPurged : List Text
  copyBlocksProcessed : ℕ
  deriving DecidableEq, Repr

def processDump (f : Letters) (lines : List Text) : Processed :=
  let p := outside f lines
  { outputLines := p.outputLines
    totalLines := lines.length
    tablesPreserved := sortedSet p.tablesPreserved
    tablesPurged := sortedSet p.tablesPurged
    copyBlocksProcessed := p.copyBlocksProcessed }

/-! ## Dumps -/

/-- The table whose rows `psql` reads from the lines after this one, if it does. -/
abbrev Reader := Text → Option Text

/-- A line that opens no block. -/
structure SqlLine (psql : Reader) where
  line : Text
  plain : psql line = none

/-- A line that opens the block of a table. -/
structure CopyHeader (psql : Reader) where
  line : Text
  table : Text
  copies : psql line = some table

@[ext] structure Row where
  columns : List Column
  nonempty : columns ≠ []

inductive Statement (psql : Reader) where
  | sql (s : SqlLine psql)
  | copy (header : CopyHeader psql) (rows : List Row)

abbrev Dump (psql : Reader) := List (Statement psql)

section
variable {f : Letters} {psql : Reader} {name columns table : Text}

def Row.line (r : Row) : Text := rowLine r.columns ++ ['\n']

/-- The line that ends the rows of a table. -/
def endOfData : Text := ['\\', '.', '\n']

def Statement.part : Statement psql → Piece Text
  | .sql s => .plain s.line
  | .copy header rows => .block header.line (rows.map Row.line) (some endOfData)

def Dump.render (d : Dump psql) : List Text := Blocks.render (d.map Statement.part)

def readRowLine (line : Text) : Row := ⟨readRow line.dropLast, by simp [readRow, List.splitOn_ne_nil]⟩

/-- A block without an end is no statement. -/
def readPart (psql : Reader) : Piece Text → Option (Statement psql)
  | .plain line => if h : psql line = none then some (.sql ⟨line, h⟩) else none
  | .block head body (some _) =>
    match h : psql head with
    | some table => some (.copy ⟨head, table, h⟩ (body.map readRowLine))
    | none => none
  | .block _ _ none => none

/-- What `psql` reads. -/
def Dump.read (psql : Reader) (lines : List Text) : Option (Dump psql) :=
  (parse (fun line => (psql line).isSome) (· = endOfData) lines).mapM (readPart psql)

/-! ## What a dump says -/

def Dump.sqlLines (d : Dump psql) : List (SqlLine psql) := d.filterMap fun
  | .sql s => some s
  | .copy _ _ => none

/-- The tables with rows to copy. -/
def Dump.tables (d : Dump psql) : List Text := d.filterMap fun
  | .sql _ => none
  | .copy header _ => some header.table

def Dump.rowsOf (table : Text) (d : Dump psql) : List Row := d.flatMap fun
  | .sql _ => []
  | .copy header rows => if header.table = table then rows else []

/-- The schema stands, the tables of the list keep their rows and the others have none. -/
structure Purges (d d' : Dump psql) : Prop where
  sqlLines : d'.sqlLines = d.sqlLines
  tables : d'.tables = d.tables
  preserved : ∀ table ∈ tablesToPreserve, d'.rowsOf table = d.rowsOf table
  purged : ∀ table ∉ tablesToPreserve, d'.rowsOf table = []

def Statement.purged : Statement psql → Statement psql
  | .sql s => .sql s
  | .copy header rows => .copy header (if tablesToPreserve.contains header.table then rows else [])

/-- The script takes a header for one, and names the table as `psql` does. -/
def Statement.Recognised (f : Letters) : Statement psql → Prop
  | .sql s => matchCopy f s.line = none
  | .copy header _ => (matchCopy f header.line).map (normalizeTableName f) = some header.table

def Dump.Recognised (f : Letters) (d : Dump psql) : Prop := ∀ s ∈ d, s.Recognised f

/-! ## The headers of `pg_dump` -/

/-- What follows the name. -/
def headerTail (columns : Text) : Text := " (".toList ++ (columns ++ ") FROM stdin;\n".toList)

/-- The header of a table of the schema `public`. -/
def headerLine (name columns : Text) : Text := "COPY ".toList ++ ("public.".toList ++ (name ++ headerTail columns))

/-- A word in lower case. -/
structure PlainName (f : Letters) (table : Text) : Prop where
  nonempty : table ≠ []
  word : ∀ c ∈ table, f.isWord c = true
  plain : ∀ c ∈ table, c ≠ '"' ∧ c ≠ '\'' ∧ c ≠ '.' ∧ Python.isSpace c = false
  lower : f.lower table = table

/-- `pg_dump` quotes a name that is a keyword. -/
def quoted (table : Text) : Text := '"' :: (table ++ ['"'])

theorem literal_append {p : String} {q : Text} (hq : q.map ignoreCase = p.toList) (s : Text) :
    literal p (q ++ s) = some s := by
  have hlen : q.length = p.length := by simpa [String.length_toList] using congrArg List.length hq
  simp [literal, ← hlen, hq]

/-- One blank, when no more of them follow. -/
theorem space_blank {c : Char} (hc : Python.isSpace c = false) (s : Text) : space (' ' :: c :: s) = some (c :: s) := by
  have hblank : Python.isSpace ' ' = true := by decide
  simp [space, hblank, hc]

theorem matchCopy_headerLine (hname : name ≠ []) (hword : ∀ c ∈ name, c = '"' ∨ f.isWord c = true)
    (hblank : f.isWord ' ' = false) (hcolumns : ')' ∉ columns) : matchCopy f (headerLine name columns) = some name := by
  have hcopy : literal "copy" (headerLine name columns) =
      some (' ' :: 'p' :: ("ublic.".toList ++ (name ++ headerTail columns))) :=
    literal_append (q := "COPY".toList) (by decide) _
  have hpublic : literal "public." ('p' :: ("ublic.".toList ++ (name ++ headerTail columns))) =
      some (name ++ headerTail columns) :=
    literal_append (q := "public.".toList) (by decide) _
  have htake : (name ++ headerTail columns).takeWhile (fun c => c = '"' || f.isWord c) = name := by
    rw [List.takeWhile_append_of_pos (by simpa using hword)]
    simp [headerTail, hblank]
  have hdrop : (headerTail columns).dropWhile Python.isSpace = '(' :: (columns ++ ") FROM stdin;\n".toList) := by
    have hspace : Python.isSpace ' ' = true := by decide
    have hparen : Python.isSpace '(' = false := by decide
    simp [headerTail, hspace, hparen]
  have hopen : literal "(" ('(' :: (columns ++ ") FROM stdin;\n".toList)) = some (columns ++ ") FROM stdin;\n".toList) :=
    literal_append (q := ['(']) (by decide) _
  have hclose : (columns ++ ") FROM stdin;\n".toList).dropWhile (· ≠ ')') = ") FROM stdin;\n".toList := by
    have hinside : ∀ c ∈ columns, decide (c ≠ ')') = true := fun c hc => decide_eq_true fun h => hcolumns (h ▸ hc)
    rw [List.dropWhile_append_of_pos hinside]
    decide
  unfold matchCopy
  rw [hcopy]
  simp only [Option.bind_eq_bind, Option.bind_some, space_blank (show Python.isSpace 'p' = false by decide), hpublic,
    Option.getD_some, htake, List.drop_left, hdrop, if_neg hname]
  rw [hopen, Option.bind_some, hclose]
  -- what is left is a closed text
  rfl

theorem PlainName.normalize (h : PlainName f table) :
    normalizeTableName f table = table ∧ normalizeTableName f (quoted table) = table := by
  have hdot : '.' ∉ table := fun hm => (h.plain _ hm).2.2.1 rfl
  have hkept : table.filter (fun c => c ≠ '"' && c ≠ '\'') = table :=
    List.filter_eq_self.2 fun c hc => by simp [h.plain c hc]
  have hunquoted : (quoted table).filter (fun c => c ≠ '"' && c ≠ '\'') = table := by
    rw [quoted, List.filter_cons_of_neg (by decide), List.filter_append, hkept]
    simp
  have hstrip : Python.strip table = table := Python.strip_of_no_space fun c hc => (h.plain c hc).2.2.2
  unfold normalizeTableName
  refine ⟨by simp only [if_neg hdot, hkept, h.lower, hstrip], ?_⟩
  have hdot' : '.' ∉ quoted table := by simp [quoted, hdot]
  simp only [if_neg hdot', hunquoted, h.lower, hstrip]

/-- **The script recognises the headers of `pg_dump`**, if `psql` takes them for those of their tables. -/
theorem recognised_header {header : CopyHeader psql} {rows : List Row} (h : PlainName f header.table)
    (hblank : f.isWord ' ' = false) (hcolumns : ')' ∉ columns)
    (hline : header.line = headerLine header.table columns ∨ header.line = headerLine (quoted header.table) columns) :
    (Statement.copy header rows).Recognised f := by
  change (matchCopy f header.line).map (normalizeTableName f) = some header.table
  rcases hline with hline | hline
  · rw [hline, matchCopy_headerLine h.nonempty (fun c hc => .inr (h.word c hc)) hblank hcolumns, Option.map_some,
      h.normalize.1]
  · have hword : ∀ c ∈ quoted header.table, c = '"' ∨ f.isWord c = true := by
      intro c hc
      rw [quoted, List.mem_cons, List.mem_append, List.mem_singleton] at hc
      rcases hc with rfl | hc | rfl
      · exact .inl rfl
      · exact .inr (h.word c hc)
      · exact .inl rfl
    have hne : quoted header.table ≠ [] := List.cons_ne_nil _ _
    rw [hline, matchCopy_headerLine hne hword hblank hcolumns, Option.map_some, h.normalize.2]

/-! ## Reading back -/

theorem readRowLine_line (r : Row) : readRowLine r.line = r := by
  have hback : readRow r.line.dropLast = r.columns := by
    rw [Row.line, List.dropLast_concat, readRow_rowLine r.nonempty]
  exact Row.ext hback

theorem isTerminator_line (r : Row) : isTerminator r.line = false := by
  have hbreak : ∀ c ∈ ['\n'], Python.isSpace c = true := by simp [Python.isSpace]
  exact decide_eq_false (strip_rowLine_ne r.columns hbreak)

theorem isTerminator_endOfData : isTerminator endOfData = true := by decide +kernel

theorem line_ne_endOfData (r : Row) : r.line ≠ endOfData := by
  intro he
  have hend := isTerminator_line r
  rw [he, isTerminator_endOfData] at hend
  cases hend

theorem closed_part (s : Statement psql) : s.part.Closed (fun line => (psql line).isSome) (· = endOfData) := by
  cases s with
  | sql s => simp [Statement.part, Piece.Closed, s.plain]
  | copy header rows =>
    refine ⟨by simp [header.copies], fun l hl => ?_, endOfData, rfl, decide_eq_true rfl⟩
    obtain ⟨r, -, rfl⟩ := List.mem_map.1 hl
    exact decide_eq_false (line_ne_endOfData r)

theorem readPart_part (s : Statement psql) : readPart psql s.part = some s := by
  cases s with
  | sql s => simp [Statement.part, readPart, s.plain]
  | copy header rows =>
    obtain ⟨line, table, h⟩ := header
    simp only [Statement.part, readPart]
    split
    · rename_i t ht
      have he : t = table := Option.some.inj (ht.symm.trans h)
      subst he
      have hrows : (rows.map Row.line).map readRowLine = rows := by
        simp [List.map_map, Function.comp_def, readRowLine_line]
      rw [hrows]
    · rename_i hnone
      rw [h] at hnone
      cases hnone

/-- **A dump reads back from its lines.** -/
theorem read_render (d : Dump psql) : Dump.read psql d.render = some d := by
  have hclosed : ∀ p ∈ d.map Statement.part, p.Closed (fun line => (psql line).isSome) (· = endOfData) := by
    intro p hp
    obtain ⟨s, -, rfl⟩ := List.mem_map.1 hp
    exact closed_part s
  rw [Dump.read, Dump.render, parse_render hclosed]
  induction d with
  | nil => rfl
  | cons s d ih =>
    have htail := ih fun p hp => hclosed p (List.mem_cons_of_mem _ hp)
    rw [List.map_cons, List.mapM_cons, readPart_part, htail]
    rfl

/-! ## The loops are one pass over the blocks -/

/-- A line the script takes for a header. -/
def opensCopy (f : Letters) (line : Text) : Bool := (matchCopy f line).isSome

/-- A line that opens a block of a preserved table. -/
def keepsRows (f : Letters) (line : Text) : Bool := (matchCopy f line).any (shouldPreserveTable f)

/-- The names in the headers. -/
def headerNames (f : Letters) (ps : List (Piece Text)) : List Text := ps.filterMap fun
  | .plain _ => none
  | .block head _ _ => matchCopy f head

theorem outputLines_both (lines : List Text) :
    (outside f lines).outputLines = edit (opensCopy f) isTerminator (keepsRows f) lines ∧
    ∀ kept, (inBlock f kept lines).outputLines = editBlock (opensCopy f) isTerminator (keepsRows f) kept lines := by
  induction lines with
  | nil => simp [outside, inBlock, edit, editBlock, Progress.none]
  | cons line lines ih =>
    obtain ⟨hout, hin⟩ := ih
    constructor
    · cases hm : matchCopy f line with
      | none => simp [outside, edit, opensCopy, hm, hout, Progress.keepLine]
      | some name => simp [outside, edit, opensCopy, keepsRows, hm, hin, Progress.keepHeader]
    · intro kept
      by_cases ht : isTerminator line
      · simp [inBlock, editBlock, ht, hout, Progress.keepLine]
      · cases kept <;> simp [inBlock, editBlock, ht, hin, Progress.keepLine]

/-- What is counted, by the blocks the lines have. -/
structure Counts (f : Letters) (p : Progress) (names : List Text) : Prop where
  preserved : p.tablesPreserved = (names.filter (shouldPreserveTable f)).map (normalizeTableName f)
  purged : p.tablesPurged = (names.filter fun name => !shouldPreserveTable f name).map (normalizeTableName f)
  blocks : p.copyBlocksProcessed = names.length

theorem Counts.keepLine {p : Progress} {names : List Text} (h : Counts f p names) (line : Text) :
    Counts f (p.keepLine line) names := ⟨h.preserved, h.purged, h.blocks⟩

theorem Counts.keepHeader {p : Progress} {names : List Text} (h : Counts f p names) (line name : Text) :
    Counts f (p.keepHeader f line name) (name :: names) := by
  cases hk : shouldPreserveTable f name
  · exact ⟨by simp [Progress.keepHeader, hk, h.preserved], by simp [Progress.keepHeader, hk, h.purged],
      by simp [Progress.keepHeader, h.blocks]⟩
  · exact ⟨by simp [Progress.keepHeader, hk, h.preserved], by simp [Progress.keepHeader, hk, h.purged],
      by simp [Progress.keepHeader, h.blocks]⟩

theorem counts_both (lines : List Text) :
    Counts f (outside f lines) (headerNames f (parse (opensCopy f) isTerminator lines)) ∧
    ∀ kept, Counts f (inBlock f kept lines) (headerNames f (parseBlock (opensCopy f) isTerminator lines).2.2) := by
  induction lines with
  | nil =>
    have hnone : Counts f .none [] := ⟨rfl, rfl, rfl⟩
    exact ⟨by simpa [outside, parse, headerNames] using hnone,
      fun kept => by simpa [inBlock, parseBlock, headerNames] using hnone⟩
  | cons line lines ih =>
    obtain ⟨hout, hin⟩ := ih
    constructor
    · cases hm : matchCopy f line with
      | none => simpa [outside, parse, opensCopy, hm, headerNames] using hout.keepLine line
      | some name =>
        simpa [outside, parse, opensCopy, hm, headerNames] using
          (hin (shouldPreserveTable f name)).keepHeader line name
    · intro kept
      by_cases ht : isTerminator line
      · simpa [inBlock, parseBlock, ht] using hout.keepLine line
      · cases kept
        · simpa [inBlock, parseBlock, ht] using hin false
        · simpa [inBlock, parseBlock, ht] using (hin true).keepLine line

/-! ## What is written -/

theorem processDump_outputLines (lines : List Text) :
    (processDump f lines).outputLines = edit (opensCopy f) isTerminator (keepsRows f) lines :=
  (outputLines_both lines).1

/-- A recognised statement looks to the script as it looks to `psql`. -/
theorem Statement.Recognised.closed {s : Statement psql} (h : s.Recognised f) :
    s.part.Closed (opensCopy f) isTerminator := by
  cases s with
  | sql s =>
    have hplain : matchCopy f s.line = none := h
    simp [Statement.part, Piece.Closed, opensCopy, hplain]
  | copy header rows =>
    obtain ⟨name, hname, -⟩ := Option.map_eq_some_iff.1 h
    refine ⟨by simp [opensCopy, hname], fun l hl => ?_, endOfData, rfl, isTerminator_endOfData⟩
    obtain ⟨r, -, rfl⟩ := List.mem_map.1 hl
    exact isTerminator_line r

theorem Dump.Recognised.closed {d : Dump psql} (h : d.Recognised f) :
    ∀ p ∈ d.map Statement.part, p.Closed (opensCopy f) isTerminator := by
  intro p hp
  obtain ⟨s, hs, rfl⟩ := List.mem_map.1 hp
  exact (h s hs).closed

theorem Statement.Recognised.cut_part {s : Statement psql} (h : s.Recognised f) :
    s.part.cut (keepsRows f) = s.purged.part := by
  cases s with
  | sql s => rfl
  | copy header rows =>
    obtain ⟨name, hname, htable⟩ := Option.map_eq_some_iff.1 h
    have hkeep : keepsRows f header.line = decide (header.table ∈ tablesToPreserve) := by
      simp [keepsRows, hname, shouldPreserveTable, htable]
    by_cases hm : header.table ∈ tablesToPreserve <;> simp [Statement.purged, Statement.part, Piece.cut, hkeep, hm]

theorem processDump_render {d : Dump psql} (h : d.Recognised f) :
    (processDump f d.render).outputLines = Dump.render (d.map Statement.purged) := by
  have hcut : (d.map Statement.part).map (Piece.cut (keepsRows f)) = (d.map Statement.purged).map Statement.part := by
    rw [List.map_map, List.map_map]
    exact List.map_congr_left fun s hs => (h s hs).cut_part
  rw [processDump_outputLines, Dump.render, edit_render h.closed, hcut, Dump.render]

theorem mem_sortedSet {names : List Text} {name : Text} : name ∈ sortedSet names ↔ name ∈ names := by
  simp [sortedSet]

theorem headerNames_parts {d : Dump psql} (h : d.Recognised f) :
    (headerNames f (d.map Statement.part)).map (normalizeTableName f) = d.tables := by
  induction d with
  | nil => rfl
  | cons s d ih =>
    have htail := ih fun x hx => h x (List.mem_cons_of_mem _ hx)
    cases s with
    | sql s => simpa [headerNames, Dump.tables, Statement.part] using htail
    | copy header rows =>
      obtain ⟨name, hname, htable⟩ := Option.map_eq_some_iff.1 (h _ List.mem_cons_self)
      simpa [headerNames, Dump.tables, Statement.part, hname, htable] using htail

theorem sqlLines_purged (d : Dump psql) : Dump.sqlLines (d.map Statement.purged) = d.sqlLines := by
  induction d with
  | nil => rfl
  | cons s d ih => cases s <;> simpa [Dump.sqlLines, Statement.purged] using ih

theorem tables_purged (d : Dump psql) : Dump.tables (d.map Statement.purged) = d.tables := by
  induction d with
  | nil => rfl
  | cons s d ih => cases s <;> simpa [Dump.tables, Statement.purged] using ih

theorem rowsOf_purged (d : Dump psql) (table : Text) :
    Dump.rowsOf table (d.map Statement.purged) = if table ∈ tablesToPreserve then d.rowsOf table else [] := by
  induction d with
  | nil => simp [Dump.rowsOf]
  | cons s d ih =>
    cases s with
    | sql s => simpa [Dump.rowsOf, Statement.purged] using ih
    | copy header rows =>
      unfold Dump.rowsOf at ih ⊢
      simp only [List.map_cons, List.flatMap_cons, Statement.purged, ih]
      by_cases ht : header.table = table
      · by_cases hm : table ∈ tablesToPreserve <;> simp [ht, hm]
      · by_cases hm : table ∈ tablesToPreserve <;> simp [ht, hm]

theorem purges (d : Dump psql) : Purges d (d.map Statement.purged) where
  sqlLines := sqlLines_purged d
  tables := tables_purged d
  preserved := by
    intro table ht
    simp [rowsOf_purged, ht]
  purged := by
    intro table ht
    simp [rowsOf_purged, ht]

theorem counts_render {d : Dump psql} (h : d.Recognised f) :
    Counts f (outside f d.render) (headerNames f (d.map Statement.part)) := by
  have hcounts : Counts f (outside f d.render) _ := (counts_both d.render).1
  rwa [Dump.render, parse_render h.closed] at hcounts

/-- The names of the blocks on one side of the list. -/
theorem mem_names (f : Letters) (names : List Text) (table : Text) (kept : Bool) :
    table ∈ (names.filter fun name => shouldPreserveTable f name == kept).map (normalizeTableName f) ↔
      table ∈ names.map (normalizeTableName f) ∧ decide (table ∈ tablesToPreserve) = kept := by
  simp only [List.mem_map, List.mem_filter, beq_iff_eq, shouldPreserveTable, List.contains_eq_mem]
  constructor
  · rintro ⟨name, ⟨hname, hkept⟩, rfl⟩
    exact ⟨⟨name, hname, rfl⟩, hkept⟩
  · rintro ⟨⟨name, hname, rfl⟩, hkept⟩
    exact ⟨name, ⟨hname, hkept⟩, rfl⟩

/-- **A purged dump is the dump without the rows of the purged tables**, if its headers are recognised, and the two lists
of `stats` share its tables out. Of any other lines, a second run at least takes no more away. -/
theorem dump_purged (f : Letters) (psql : Reader) :
    (∀ lines, let written := (processDump f lines).outputLines
      written.Sublist lines ∧ (processDump f written).outputLines = written) ∧
    ∀ d : Dump psql, d.Recognised f → let out := processDump f d.render
      Dump.read psql d.render = some d ∧ (∃ d', Dump.read psql out.outputLines = some d' ∧ Purges d d') ∧
      (∀ table, table ∈ out.tablesPreserved ↔ table ∈ d.tables ∧ table ∈ tablesToPreserve) ∧
      (∀ table, table ∈ out.tablesPurged ↔ table ∈ d.tables ∧ table ∉ tablesToPreserve) ∧
      out.copyBlocksProcessed = d.tables.length := by
  refine ⟨fun lines => ⟨?_, ?_⟩, fun d h => ?_⟩
  · simpa [processDump_outputLines] using edit_sublist lines
  · simp [processDump_outputLines, edit_edit]
  · have hcounts := counts_render h
    have hnames := headerNames_parts h
    refine ⟨read_render d, ⟨d.map Statement.purged, ?_, purges d⟩, fun table => ?_, fun table => ?_, ?_⟩
    · rw [processDump_render h, read_render]
    · have hkept := mem_names f (headerNames f (d.map Statement.part)) table true
      rw [hnames] at hkept
      simpa [processDump, mem_sortedSet, hcounts.preserved] using hkept
    · have hkept := mem_names f (headerNames f (d.map Statement.part)) table false
      rw [hnames] at hkept
      simpa [processDump, mem_sortedSet, hcounts.purged] using hkept
    · rw [← hnames, List.length_map]
      exact hcounts.blocks

/-- ASCII text. -/
def ascii : Letters := ⟨fun c => c.isAlphanum || c = '_', fun s => s.map Char.toLower⟩

/-- The headers of two tables. -/
def twoTables : Reader := fun line =>
  if line = headerLine (quoted "user".toList) "user_id".toList then some "user".toList
  else if line = headerLine "donor".toList "donor_id".toList then some "donor".toList
  else none

/-- A setting, a preserved table and one that is purged. -/
def dumpOfTwo : Dump twoTables :=
  [.sql ⟨"SET row_security = off;\n".toList, by decide +kernel⟩,
    .copy ⟨headerLine (quoted "user".toList) "user_id".toList, "user".toList, by decide +kernel⟩
      [⟨[some ['1']], by decide⟩, ⟨[some ['2']], by decide⟩],
    .copy ⟨headerLine "donor".toList "donor_id".toList, "donor".toList, by decide +kernel⟩ [⟨[some ['1']], by decide⟩]]

theorem dump_purged_two :
    ∃ d', Dump.read twoTables (processDump ascii dumpOfTwo.render).outputLines = some d' ∧ Purges dumpOfTwo d' := by
  have hblank : ascii.isWord ' ' = false := by decide
  have huser : PlainName ascii "user".toList :=
    ⟨by decide, Relational.forall_of_all (by decide), Relational.forall_of_all (by decide), by decide⟩
  have hdonor : PlainName ascii "donor".toList :=
    ⟨by decide, Relational.forall_of_all (by decide), Relational.forall_of_all (by decide), by decide⟩
  have hrec : dumpOfTwo.Recognised ascii := by
    intro s hs
    simp only [dumpOfTwo, List.mem_cons, List.not_mem_nil, or_false] at hs
    rcases hs with rfl | rfl | rfl
    · exact (by decide +kernel : matchCopy ascii "SET row_security = off;\n".toList = none)
    · exact recognised_header huser hblank (by decide) (.inr rfl)
    · exact recognised_header hdonor hblank (by decide) (.inl rfl)
  exact ((dump_purged ascii twoTables).2 dumpOfTwo hrec).2.1

/-- The row of a purged table goes, that of a preserved one stays, and so does one of another schema. -/
example :
    (processDump ascii (["COPY public.\"user\" (user_id) FROM stdin;\n", "1\n", "\\.\n",
      "COPY public.donor (donor_id) FROM stdin;\n", "1\n", "\\.\n",
      "COPY audit.log (id) FROM stdin;\n", "1\n", "\\.\n"].map String.toList)).outputLines =
    ["COPY public.\"user\" (user_id) FROM stdin;\n", "1\n", "\\.\n",
      "COPY public.donor (donor_id) FROM stdin;\n", "\\.\n",
      "COPY audit.log (id) FROM stdin;\n", "1\n", "\\.\n"].map String.toList := by
  decide +kernel

end

end PurgeDatabase

end Dmis
