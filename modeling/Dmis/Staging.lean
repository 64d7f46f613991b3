import Dmis.Lib.Binary64
import Dmis.Lib.Lists
import Dmis.Lib.SqlText
import Mathlib.Data.List.DropRight
import Mathlib.Data.List.Infix

/-!
# Staging records and their migration

`scripts/migrate_staging_to_transaction.py`: records of `hadr_aid_movement_staging` become rows of
`transaction`, either directly or through a generated SQL file.

| here | there |
| --- | --- |
| `Casing.normalize` | `name.upper().strip()` |
| `getLookupTablesInfo` | `get_lookup_tables_info` (`:36-136`) |
| `StagingRecord.notes` | the notes of `migrate_records` and `generate_sql_migration` (`:258-266`, `:352-359`) |
| `getExistingTransactions`, `buildTransactionSignature` | `:173-212` |
| `migrateLoop`, `migrateRecords` | `migrate_records` (`:215-322`) |
| `generateSqlMigration` | `generate_sql_migration` (`:325-383`) |
| `InsertStatement.exec`, `runScript` | PostgreSQL |

A float is the double's exact value. The column `transaction.qty` stores the decimal a double prints as, and the
driver returns that decimal, which is compared with a float by value. The columns that both ways leave NULL are
left out.
-/

namespace Dmis

open Relational

/-! ## Names -/

/-- `str.isspace`. -/
def isSpace (c : Char) : Bool :=
  let n := c.toNat
  (9 ≤ n && n ≤ 13) || (28 ≤ n && n ≤ 32) || n = 0x85 || n = 0xa0 || n = 0x1680 || (0x2000 ≤ n && n ≤ 0x200a) ||
    n = 0x2028 || n = 0x2029 || n = 0x202f || n = 0x205f || n = 0x3000

/-- `str.strip`. -/
def strip (s : List Char) : List Char := (s.dropWhile isSpace).rdropWhile isSpace

/-- The upper-case mapping of the Unicode tables, which `str.upper` applies letter by letter. -/
structure Casing where
  upper : Char → List Char
  /-- What letters are mapped to is upper case. -/
  upper_upper : ∀ c, ∀ d ∈ upper c, upper d = [d]

namespace Casing

variable (up : Casing)

/-- `name.upper().strip()`. -/
def normalize (s : String) : String := String.ofList (strip (s.toList.flatMap up.upper))

/-- The mapping on ASCII letters. -/
def ascii : Casing where
  upper c := if 97 ≤ c.toNat ∧ c.toNat ≤ 122 then [Char.ofNat (c.toNat - 32)] else [c]
  upper_upper c := by
    split
    · rename_i h
      have hvalid : (c.toNat - 32).isValidChar := Or.inl (by omega)
      have hnat : (Char.ofNat (c.toNat - 32)).toNat = c.toNat - 32 := by
        unfold Char.ofNat
        rw [dif_pos hvalid]
        rfl
      simp only [List.mem_singleton, forall_eq]
      rw [if_neg (by omega)]
    · rename_i h
      simp only [List.mem_singleton, forall_eq]
      rw [if_neg h]

end Casing

/-! ## Lookup tables -/

/-- The rows of the warehouse table: names with the code in parentheses, or a column with the code. -/
inductive WarehouseRows where
  | named (rows : List (ℤ × String))
  | coded (rows : List (ℤ × String))

/-- The item and warehouse tables of the database, as far as they are there. -/
structure LookupTables where
  items : Option (List (ℤ × String))
  warehouses : Option WarehouseRows

/-- `lookup_info`. -/
structure LookupInfo where
  items : String → Option ℤ
  warehouses : String → Option ℤ
  hasItemTable : Bool
  hasWarehouseTable : Bool

/-- `dict[key] = id` for every row. -/
def dictOf (rows : List (ℤ × String)) (key : String → String) : String → Option ℤ :=
  rows.foldl (fun d row => Function.update d (key row.2) (some row.1)) fun _ => none

/-- `re.search(r'\(([A-Z]+)\)', name)`. -/
def codeIn : List Char → Option (List Char)
  | [] => none
  | c :: s =>
    let code := s.takeWhile Char.isUpper
    if c = '(' ∧ code ≠ [] ∧ (s.dropWhile Char.isUpper).head? = some ')' then some code else codeIn s

/-- One row of a warehouse table with names. -/
def addWarehouse (up : Casing) (d : String → Option ℤ) (row : ℤ × String) : String → Option ℤ :=
  let d := match codeIn row.2.toList with
    | some code => Function.update d (String.ofList code) (some row.1)
    | none => d
  if "UNKNOWN".toList <:+: row.2.toList.flatMap up.upper then Function.update d "UNKNOWN" (some row.1) else d

def getLookupTablesInfo (up : Casing) (db : LookupTables) : LookupInfo where
  items := dictOf (db.items.getD []) up.normalize
  warehouses := match db.warehouses with
    | none => fun _ => none
    | some (.named rows) => rows.foldl (addWarehouse up) fun _ => none
    | some (.coded rows) => dictOf rows id
  hasItemTable := db.items.isSome
  hasWarehouseTable := db.warehouses.isSome

/-! ## Records -/

/-- `movement_type`: R, I. -/
inductive MovementType where
  | received | issued
  deriving DecidableEq, Repr

def MovementType.code : MovementType → String
  | .received => "R"
  | .issued => "I"

structure CalendarDate where
  year : Nat
  month : Nat
  day : Nat
  deriving DecidableEq, Repr

/-- A number with leading zeros. -/
def zeroPadded (width n : Nat) : String :=
  let digits := toString n
  String.ofList (List.replicate (width - digits.length) '0') ++ digits

def CalendarDate.isoformat (d : CalendarDate) : String :=
  zeroPadded 4 d.year ++ "-" ++ zeroPadded 2 d.month ++ "-" ++ zeroPadded 2 d.day

structure StagingRecord where
  stagingId : Nat
  itemDesc : String
  warehouseCode : String
  movementDate : CalendarDate
  movementType : MovementType
  qty : ℚ
  sourceSheet : Option String
  sourceRowNbr : Option ℤ
  commentsText : Option String
  deriving DecidableEq

/-- A text that is not empty. -/
def nonempty (s : Option String) : Option String := s.filter (· ≠ "")

namespace StagingRecord

/-- `f"{source_row_nbr}"`. -/
def sourceRow (r : StagingRecord) : String :=
  match r.sourceRowNbr with
  | some n => toString n
  | none => "None"

def notesParts (r : StagingRecord) : List String :=
  ["Date: " ++ r.movementDate.isoformat] ++ (nonempty r.commentsText).toList ++
    ((nonempty r.sourceSheet).map fun sheet => "Source: " ++ sheet ++ " Row " ++ r.sourceRow).toList

def notes (r : StagingRecord) : Option String :=
  if r.notesParts = [] then none else some ("; ".intercalate r.notesParts)

/-- `float(qty)`. -/
def float (r : StagingRecord) : ℚ := toBinary64 r.qty

end StagingRecord

/-! ## Transactions -/

structure Transaction where
  itemId : Option ℤ
  ttype : String
  qty : ℚ
  warehouseId : Option ℤ
  notes : Option String
  createdBy : Option String
  deriving DecidableEq

/-- What duplicates are found by. -/
structure Signature where
  itemId : ℤ
  ttype : String
  qty : ℚ
  warehouseId : ℤ
  notes : String
  deriving DecidableEq

/-- `COALESCE(item_id, -1), ttype, qty, COALESCE(warehouse_id, -1), COALESCE(notes, '')`. -/
def Transaction.coalesced (t : Transaction) : Signature :=
  ⟨t.itemId.getD (-1), t.ttype, t.qty, t.warehouseId.getD (-1), t.notes.getD ""⟩

/-- The row as the column stores it. -/
def Transaction.stored (t : Transaction) : Transaction := { t with qty := shortest t.qty }

/-- `created_by LIKE pattern`. -/
def Transaction.createdLike (pattern : List Char) (t : Transaction) : Bool :=
  t.createdBy.any fun s => like pattern s.toList

def getExistingTransactions (pattern : List Char) (table : List Transaction) : List Signature :=
  (table.filter (Transaction.createdLike pattern)).map Transaction.coalesced

/-- An id that is not 0. -/
def truthyId (id : Option ℤ) : Option ℤ := id.filter (· ≠ 0)

def buildTransactionSignature (itemId : Option ℤ) (ttype : String) (qty : ℚ) (warehouseId : Option ℤ)
    (notes : Option String) : Signature :=
  ⟨(truthyId itemId).getD (-1), ttype, qty, (truthyId warehouseId).getD (-1), (nonempty notes).getD ""⟩

/-! ## Direct migration -/

section
variable (up : Casing) (look : LookupInfo) (createdBy : String)

def StagingRecord.itemId (r : StagingRecord) : Option ℤ := look.items (up.normalize r.itemDesc)

def StagingRecord.warehouseId (r : StagingRecord) : Option ℤ := look.warehouses r.warehouseCode

def StagingRecord.ItemMissing (r : StagingRecord) : Prop :=
  truthyId (r.itemId up look) = none ∧ look.hasItemTable = true

def StagingRecord.WarehouseMissing (r : StagingRecord) : Prop :=
  truthyId (r.warehouseId look) = none ∧ r.warehouseCode ≠ "UNKNOWN" ∧ look.hasWarehouseTable = true

instance : DecidablePred (StagingRecord.ItemMissing up look) := fun r => by
  unfold StagingRecord.ItemMissing; infer_instance
instance : DecidablePred (StagingRecord.WarehouseMissing look) := fun r => by
  unfold StagingRecord.WarehouseMissing; infer_instance

def StagingRecord.signature (r : StagingRecord) : Signature :=
  buildTransactionSignature (r.itemId up look) r.movementType.code r.float (r.warehouseId look) r.notes

/-- The values of the `INSERT`. -/
def StagingRecord.values (r : StagingRecord) : Transaction :=
  ⟨r.itemId up look, r.movementType.code, r.float, r.warehouseId look, r.notes, some createdBy⟩

/-- What the loop does with a record. -/
inductive Outcome where
  | noItem (itemDesc : String)
  | noWarehouse (warehouseCode : String)
  | duplicate
  | insert (values : Transaction)
  deriving DecidableEq

/-- The loop over the records, with the signatures seen so far. -/
def migrateLoop (existing : List Signature) : List StagingRecord → List Outcome
  | [] => []
  | r :: records =>
    if r.ItemMissing up look then .noItem r.itemDesc :: migrateLoop existing records
    else if r.WarehouseMissing look then .noWarehouse r.warehouseCode :: migrateLoop existing records
    else
      let sig := r.signature up look
      if sig ∈ existing then .duplicate :: migrateLoop existing records
      else .insert (r.values up look createdBy) :: migrateLoop (sig :: existing) records

def Outcome.values? : Outcome → Option Transaction
  | .insert values => some values
  | _ => none

def Outcome.error? : Outcome → Option String
  | .noItem itemDesc => some ("Item not found: " ++ String.ofList (itemDesc.toList.take 50))
  | .noWarehouse warehouseCode => some ("Warehouse not found: " ++ warehouseCode)
  | _ => none

def Outcome.isNoItem : Outcome → Bool
  | .noItem _ => true
  | _ => false

def Outcome.isNoWarehouse : Outcome → Bool
  | .noWarehouse _ => true
  | _ => false

structure MigrationStats where
  totalStaging : Nat
  inserted : Nat
  skippedDuplicate : Nat
  skippedNoItem : Nat
  skippedNoWarehouse : Nat
  errors : List String
  toInsert : Nat

def migrateOutcomes (records : List StagingRecord) (table : List Transaction) : List Outcome :=
  migrateLoop up look createdBy (getExistingTransactions (createdBy.toList ++ ['%']) table) records

def migrationStats (dryRun : Bool) (outcomes : List Outcome) : MigrationStats where
  totalStaging := outcomes.length
  inserted := if dryRun then 0 else (outcomes.filterMap Outcome.values?).length
  skippedDuplicate := outcomes.count .duplicate
  skippedNoItem := outcomes.countP Outcome.isNoItem
  skippedNoWarehouse := outcomes.countP Outcome.isNoWarehouse
  errors := outcomes.filterMap Outcome.error?
  toInsert := (outcomes.filterMap Outcome.values?).length

/-- Every record is counted once, and every missing item or warehouse is reported. -/
theorem migrationStats_adds_up (dryRun : Bool) (outcomes : List Outcome) :
    let stats := migrationStats dryRun outcomes
    stats.totalStaging = stats.toInsert + stats.skippedDuplicate + stats.skippedNoItem + stats.skippedNoWarehouse ∧
    stats.errors.length = stats.skippedNoItem + stats.skippedNoWarehouse := by
  simp only [migrationStats]
  induction outcomes with
  | nil => simp
  | cons o outcomes ih =>
    obtain ⟨htotal, herrors⟩ := ih
    simp only [List.length_cons, List.filterMap_cons, List.count_cons, List.countP_cons]
    cases o with
    | noItem _ => simp [Outcome.values?, Outcome.error?, Outcome.isNoItem, Outcome.isNoWarehouse]; omega
    | noWarehouse _ => simp [Outcome.values?, Outcome.error?, Outcome.isNoItem, Outcome.isNoWarehouse]; omega
    | duplicate => simp [Outcome.values?, Outcome.error?, Outcome.isNoItem, Outcome.isNoWarehouse]; omega
    | insert _ => simp [Outcome.values?, Outcome.error?, Outcome.isNoItem, Outcome.isNoWarehouse]; omega

/-- The statistics, and the table afterwards. -/
def migrateRecords (dryRun : Bool) (records : List StagingRecord) (table : List Transaction) :
    MigrationStats × List Transaction :=
  let outcomes := migrateOutcomes up look createdBy records table
  let inserts := (outcomes.filterMap Outcome.values?).map Transaction.stored
  (migrationStats dryRun outcomes, if dryRun then table else table ++ inserts)

end

/-! ## Migration by a SQL file -/

/-- One `INSERT … WHERE NOT EXISTS`. A float literal is the decimal that is printed; a string literal is the text
between its quotes, `none` for NULL. -/
structure InsertStatement where
  itemId : Option ℤ
  ttype : String
  qty : ℚ
  warehouseId : Option ℤ
  notes : Option (List Char)
  createdBy : List Char

def StagingRecord.statement (look : LookupInfo) (createdBy : String) (r : StagingRecord) : InsertStatement where
  itemId := truthyId (look.items r.itemDesc)
  ttype := r.movementType.code
  qty := shortest r.float
  warehouseId := truthyId (r.warehouseId look)
  notes := (nonempty r.notes).map fun notes => escape notes.toList
  createdBy := createdBy.toList

def generateSqlMigration (look : LookupInfo) (createdBy : String) (records : List StagingRecord) :
    List InsertStatement :=
  records.map (StagingRecord.statement look createdBy)

/-- The selected row, if every literal can be read; `created_by` is read as a literal, though any SQL could stand there. -/
def InsertStatement.row (s : InsertStatement) : Option Transaction := do
  let notes ← match s.notes with
    | none => some none
    | some text => (unescape text).map fun v => some (String.ofList v)
  let createdBy ← unescape s.createdBy
  pure ⟨s.itemId, s.ttype, s.qty, s.warehouseId, notes, some (String.ofList createdBy)⟩

/-- The row a statement inserts, if it inserts one; no result if it cannot be parsed. -/
def InsertStatement.exec (s : InsertStatement) (table : List Transaction) : Option (Option Transaction) :=
  s.row.map fun row => if ∃ x ∈ table, x.coalesced = row.coalesced then none else some row

/-- What the statements insert one after the other; a script that cannot be parsed is rolled back. -/
def runScript : List InsertStatement → List Transaction → Option (List (Option Transaction))
  | [], _ => some []
  | s :: script, table => do
    let row ← s.exec table
    let rows ← runScript script (table ++ row.toList)
    pure (row :: rows)

end Dmis
