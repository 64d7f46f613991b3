import Dmis.StagingReruns
import Mathlib.Data.List.Perm.Basic

/-!
# The two ways to migrate

`migrate_records` inserts rows, `generate_sql_migration` writes a script that does. The script looks an item up
under the description as it is, inserts a record although its item or warehouse is missing, compares with every
row of the table and by the stored decimal, and puts `created_by` into the script as it is. `modes_agree` says
when the two insert the same rows and leave out the same records.
-/

namespace Dmis

open Relational

section
variable (up : Casing) (look : LookupInfo) (createdBy : String)

/-- The script runs, inserts the rows that the direct migration inserts, and skips the same records. -/
def ModesAgree (records : List StagingRecord) (table : List Transaction) : Prop :=
  ∃ rows, runScript (generateSqlMigration look createdBy records) table = some rows ∧
    rows.map Option.isSome =
      (migrateOutcomes up look createdBy records table).map (fun o => o.values?.isSome) ∧
    rows.reduceOption.Perm
      (((migrateOutcomes up look createdBy records table).filterMap Outcome.values?).map Transaction.stored)

/-- The row a statement selects, if the literal of `created_by` is read as `creator`. -/
def StagingRecord.selected (creator : String) (r : StagingRecord) : Transaction :=
  ⟨truthyId (look.items r.itemDesc), r.movementType.code, shortest r.float, truthyId (r.warehouseId look),
    nonempty r.notes, some creator⟩

/-- What a statement compares with the rows of the table. -/
def StagingRecord.sqlKey (r : StagingRecord) : Signature :=
  ⟨(truthyId (look.items r.itemDesc)).getD (-1), r.movementType.code, shortest r.float,
    (truthyId (r.warehouseId look)).getD (-1), r.notes.getD ""⟩

end

/-! ## Names -/

section
variable {up : Casing}

theorem strip_strip (s : List Char) : strip (strip s) = strip s := by
  unfold strip
  have hhead : ((s.dropWhile isSpace).rdropWhile isSpace).dropWhile isSpace =
      (s.dropWhile isSpace).rdropWhile isSpace := by
    have hdrop : (s.dropWhile isSpace).dropWhile isSpace = s.dropWhile isSpace := List.dropWhile_idempotent isSpace s
    obtain ⟨suffix, hs⟩ := List.rdropWhile_prefix isSpace (s.dropWhile isSpace)
    cases hu : (s.dropWhile isSpace).rdropWhile isSpace with
    | nil => rfl
    | cons c u =>
      rw [← hs, hu, List.cons_append] at hdrop
      by_cases hc : isSpace c
      · rw [List.dropWhile_cons_of_pos hc] at hdrop
        have hlen := congrArg List.length hdrop
        have hle := (List.dropWhile_suffix isSpace (l := u ++ suffix)).length_le
        simp only [List.length_cons] at hlen
        omega
      · exact List.dropWhile_cons_of_neg hc
  rw [hhead, List.rdropWhile_idempotent]

theorem mem_strip {s : List Char} {c : Char} (h : c ∈ strip s) : c ∈ s :=
  (List.dropWhile_suffix isSpace).subset ((List.rdropWhile_prefix isSpace _).subset h)

theorem flatMap_upper {s : List Char} (h : ∀ c ∈ s, up.upper c = [c]) : s.flatMap up.upper = s := by
  induction s with
  | nil => rfl
  | cons c s ih =>
    rw [List.flatMap_cons, h c (by simp), ih fun d hd => h d (by simp [hd])]
    rfl

/-- A name that has been normalized stays as it is. -/
theorem normalize_normalize (s : String) : up.normalize (up.normalize s) = up.normalize s := by
  have hupper : ∀ c ∈ strip (s.toList.flatMap up.upper), up.upper c = [c] := by
    intro c hc
    obtain ⟨d, -, hd⟩ := List.mem_flatMap.1 (mem_strip hc)
    exact up.upper_upper d c hd
  unfold Casing.normalize
  rw [String.toList_ofList, flatMap_upper hupper, strip_strip]

theorem dictOf_key {rows : List (ℤ × String)} {key : String → String} {k : String} {id : ℤ}
    (h : dictOf rows key k = some id) : ∃ row ∈ rows, key row.2 = k := by
  have hdict : dict (fun row : ℤ × String => key row.2) Prod.fst rows k = some id := h
  obtain ⟨row, hrow, hkey, -⟩ := exists_of_dict hdict
  exact ⟨row, hrow, hkey⟩

/-- The keys of the items are normalized: a description that is one is found under its own name. -/
theorem items_normalized {db : LookupTables} {name : String} {id : ℤ}
    (h : (getLookupTablesInfo up db).items name = some id) : up.normalize name = name := by
  obtain ⟨row, -, rfl⟩ := dictOf_key h
  exact normalize_normalize row.2

end

/-! ## Running the script -/

section
variable {up : Casing} {look : LookupInfo} {createdBy creator : String} {r : StagingRecord}
  {records : List StagingRecord} {table : List Transaction} {v : List Char}

theorem row_statement : (r.statement look createdBy).row =
    (unescape createdBy.toList).map fun v => r.selected look (String.ofList v) := by
  unfold InsertStatement.row StagingRecord.statement StagingRecord.selected
  cases nonempty r.notes with
  | none => cases unescape createdBy.toList <;> rfl
  | some notes =>
    simp only [Option.map_some, unescape_escape, String.ofList_toList]
    cases unescape createdBy.toList <;> rfl

theorem coalesced_selected : (r.selected look creator).coalesced = r.sqlKey look := by
  unfold StagingRecord.selected Transaction.coalesced StagingRecord.sqlKey
  rw [Signature.mk.injEq, nonempty_getD]
  exact ⟨rfl, rfl, rfl, rfl, rfl⟩

/-- A script whose literals can be read takes the first record of each key. -/
theorem runScript_eq (hv : unescape createdBy.toList = some v) :
    runScript (generateSqlMigration look createdBy records) table =
      some ((firsts (fun r => some (r.sqlKey look)) (table.map Transaction.coalesced) records).map
        (Option.map (StagingRecord.selected look (String.ofList v)))) := by
  induction records generalizing table with
  | nil => rfl
  | cons r records ih =>
    have hexec : (r.statement look createdBy).exec table =
        some (if r.sqlKey look ∈ table.map Transaction.coalesced then none
          else some (r.selected look (String.ofList v))) := by
      unfold InsertStatement.exec
      rw [row_statement, hv, Option.map_some, Option.map_some, coalesced_selected]
      simp only [List.mem_map]
    unfold generateSqlMigration at ih ⊢
    rw [List.map_cons, runScript, hexec, firsts]
    by_cases hk : r.sqlKey look ∈ table.map Transaction.coalesced
    · simp only [if_pos hk, Option.bind_eq_bind, Option.bind_some, Option.toList_none, List.append_nil, ih]
      rfl
    · have hseen : firsts (fun r => some (r.sqlKey look))
          ((table ++ [r.selected look (String.ofList v)]).map Transaction.coalesced) records =
          firsts (fun r => some (r.sqlKey look)) (r.sqlKey look :: table.map Transaction.coalesced) records := by
        refine firsts_congr (fun k => ?_) records
        rw [List.map_append, List.map_singleton, coalesced_selected]
        simp only [List.mem_append, List.mem_cons, List.not_mem_nil, or_false]
        exact or_comm
      simp only [if_neg hk, Option.bind_eq_bind, Option.bind_some, Option.toList_some, ih, hseen]
      rfl

theorem runScript_unread (hv : unescape createdBy.toList = none) (hne : records ≠ []) :
    runScript (generateSqlMigration look createdBy records) table = none := by
  obtain ⟨r, records, rfl⟩ := List.exists_cons_of_ne_nil hne
  unfold generateSqlMigration
  rw [List.map_cons, runScript, InsertStatement.exec, row_statement, hv]
  rfl

end

/-! ## When the two agree -/

section
variable (up : Casing) (look : LookupInfo) (createdBy : String)

/-- The direct migration inserts the record: it resolves, and its signature is new, in the rows of `createdBy`
and among the records before it. -/
structure MigrateTakes (table : List Transaction) (pre : List StagingRecord) (r : StagingRecord) : Prop where
  resolves : r.Resolves up look
  new : r.signature up look ∉ existingFor createdBy table
  first : ∀ q ∈ pre, q.Resolves up look → q.signature up look ≠ r.signature up look

/-- The statement of the record inserts it: the whole table and the records before it have no equal row. -/
structure StatementTakes (table : List Transaction) (pre : List StagingRecord) (r : StagingRecord) : Prop where
  new : ∀ x ∈ table, x.coalesced ≠ r.sqlKey look
  first : ∀ q ∈ pre, q.sqlKey look ≠ r.sqlKey look

/-- The text of `created_by` can be read, both ways take the same records, and every record taken is found under
its description as it is, in a warehouse whose id is not 0, and `created_by` has no quote. -/
structure ModesMatch (records : List StagingRecord) (table : List Transaction) : Prop where
  readable : records ≠ [] → unescape createdBy.toList ≠ none
  takes : ∀ pre r post, records = pre ++ r :: post →
    (MigrateTakes up look createdBy table pre r ↔ StatementTakes look table pre r)
  rows : ∀ pre r post, records = pre ++ r :: post → MigrateTakes up look createdBy table pre r →
    look.items r.itemDesc = r.itemId up look ∧ r.warehouseId look ≠ some 0 ∧ '\'' ∉ createdBy.toList

end

section
variable {up : Casing} {look : LookupInfo} {createdBy creator : String} {r : StagingRecord}
  {records pre : List StagingRecord} {table : List Transaction} {v : List Char} {db : LookupTables}

theorem isNew_migrationKey : IsNew (StagingRecord.migrationKey up look)
    (pre.filterMap (StagingRecord.migrationKey up look) ++ existingFor createdBy table) r ↔
    MigrateTakes up look createdBy table pre r := by
  have hkey : ∀ q : StagingRecord, ∀ s, q.migrationKey up look = some s ↔ q.Resolves up look ∧ q.signature up look = s :=
    fun q s => by
      unfold StagingRecord.migrationKey
      by_cases h : q.Resolves up look <;> simp [h]
  unfold IsNew
  simp only [Option.mem_def, hkey, List.mem_append, List.mem_filterMap, not_or, not_exists, not_and]
  constructor
  · rintro ⟨s, ⟨hr, rfl⟩, hpre, hnew⟩
    exact ⟨hr, hnew, hpre⟩
  · rintro ⟨hr, hnew, hpre⟩
    exact ⟨_, ⟨hr, rfl⟩, hpre, hnew⟩

theorem isNew_sqlKey : IsNew (fun r => some (StagingRecord.sqlKey look r))
    (pre.filterMap (fun r => some (StagingRecord.sqlKey look r)) ++ table.map Transaction.coalesced) r ↔
    StatementTakes look table pre r := by
  unfold IsNew
  simp only [Option.mem_def, Option.some.injEq, List.mem_append, List.mem_filterMap, List.mem_map, not_or,
    not_exists, not_and, exists_eq_left']
  constructor
  · rintro ⟨hpre, hnew⟩
    exact ⟨hnew, hpre⟩
  · rintro ⟨hnew, hpre⟩
    exact ⟨hpre, hnew⟩

/-- The notes begin with the date. -/
theorem nonempty_notes (r : StagingRecord) : nonempty r.notes = r.notes := by
  have hparts : r.notesParts ≠ [] := by simp [StagingRecord.notesParts]
  have hne : "; ".intercalate r.notesParts ≠ "" := by
    intro h
    have hlen := congrArg String.length h
    unfold StagingRecord.notesParts at hlen
    rw [List.append_assoc, List.singleton_append, String.intercalate_cons_append, String.length_append] at hlen
    have hdate : "Date: ".length = 6 := rfl
    have hempty : "".length = 0 := rfl
    omega
  unfold StagingRecord.notes
  rw [if_neg hparts]
  simp [nonempty, Option.filter, hne]

theorem truthyId_eq_self {id : Option ℤ} : truthyId id = id ↔ id ≠ some 0 := by
  cases id with
  | none => simp [truthyId]
  | some i =>
    by_cases h : i = 0
    · simp [truthyId, Option.filter, h]
    · simp [truthyId, Option.filter, h]

/-- A description that finds an item as it is finds the same item when it is normalized. -/
theorem item_of_found (h : truthyId ((getLookupTablesInfo up db).items r.itemDesc) ≠ none) :
    (getLookupTablesInfo up db).items r.itemDesc = r.itemId up (getLookupTablesInfo up db) := by
  obtain ⟨id, hid⟩ : ∃ id, (getLookupTablesInfo up db).items r.itemDesc = some id := by
    cases hi : (getLookupTablesInfo up db).items r.itemDesc with
    | none => exact absurd (by rw [hi]; rfl) h
    | some id => exact ⟨id, rfl⟩
  unfold StagingRecord.itemId
  rw [items_normalized hid]

theorem item_found (hitems : db.items.isSome) (hr : r.Resolves up (getLookupTablesInfo up db)) :
    truthyId (r.itemId up (getLookupTablesInfo up db)) = r.itemId up (getLookupTablesInfo up db) ∧
    r.itemId up (getLookupTablesInfo up db) ≠ none := by
  have hfound : truthyId (r.itemId up (getLookupTablesInfo up db)) ≠ none := fun h => hr.1 ⟨h, hitems⟩
  refine ⟨truthyId_eq_self.2 fun h0 => hfound ?_, fun hn => hfound ?_⟩
  · rw [h0]
    rfl
  · rw [hn]
    rfl

/-- What is selected for a record is the row it becomes, if nothing is lost on the way into the script. -/
theorem selected_eq_transaction (hitems : db.items.isSome) (hr : r.Resolves up (getLookupTablesInfo up db))
    (hitem : (getLookupTablesInfo up db).items r.itemDesc = r.itemId up (getLookupTablesInfo up db))
    (hwh : r.warehouseId (getLookupTablesInfo up db) ≠ some 0) :
    r.selected (getLookupTablesInfo up db) createdBy = r.transaction up (getLookupTablesInfo up db) createdBy := by
  unfold StagingRecord.selected StagingRecord.transaction StagingRecord.values Transaction.stored
  rw [hitem, (item_found hitems hr).1, truthyId_eq_self.2 hwh, nonempty_notes]

/-- When the script can be read, the two walk the records with different keys and write different rows. -/
theorem modesAgree_iff (hv : unescape createdBy.toList = some v) :
    ModesAgree up look createdBy records table ↔
      firsts (StagingRecord.migrationKey up look) (existingFor createdBy table) records =
        firsts (fun r => some (r.sqlKey look)) (table.map Transaction.coalesced) records ∧
      ((firsts (StagingRecord.migrationKey up look) (existingFor createdBy table) records).reduceOption.map
        (StagingRecord.selected look (String.ofList v))).Perm
        ((firsts (StagingRecord.migrationKey up look) (existingFor createdBy table) records).reduceOption.map
          (StagingRecord.transaction up look createdBy)) := by
  have hsome : ∀ (f : StagingRecord → Transaction) (l : List (Option StagingRecord)),
      (l.map (Option.map f)).map Option.isSome = l.map Option.isSome := fun f l => by
    rw [List.map_map]
    exact List.map_congr_left fun o _ => Option.isSome_map
  have houtcomes : (migrateOutcomes up look createdBy records table).map (fun o => o.values?.isSome) =
      (firsts (StagingRecord.migrationKey up look) (existingFor createdBy table) records).map Option.isSome := by
    rw [← hsome (StagingRecord.values up look createdBy), ← migrateOutcomes_eq, List.map_map]
    rfl
  unfold ModesAgree
  rw [runScript_eq hv, houtcomes, inserted_eq]
  constructor
  · rintro ⟨rows, hrows, hskips, hperm⟩
    cases hrows
    rw [hsome] at hskips
    have hsame := (firsts_isSome_iff.1 hskips).symm
    rw [List.reduceOption_map, ← hsame] at hperm
    exact ⟨hsame, hperm⟩
  · rintro ⟨hsame, hperm⟩
    refine ⟨_, rfl, ?_, ?_⟩
    · rw [hsome, hsame]
    · rwa [List.reduceOption_map, ← hsame]

/-- The rows the two ways insert for the records `l`. -/
theorem rows_perm_iff (hitems : db.items.isSome) {l : List StagingRecord}
    (hl : ∀ r ∈ l, r.Resolves up (getLookupTablesInfo up db)) :
    (l.map (StagingRecord.selected (getLookupTablesInfo up db) creator)).Perm
      (l.map (StagingRecord.transaction up (getLookupTablesInfo up db) createdBy)) ↔
    ∀ r ∈ l, (getLookupTablesInfo up db).items r.itemDesc = r.itemId up (getLookupTablesInfo up db) ∧
      r.warehouseId (getLookupTablesInfo up db) ≠ some 0 ∧ creator = createdBy := by
  constructor
  · intro hperm r hr
    -- each row of one list is one of the other, so its item is not NULL and its warehouse is not 0
    obtain ⟨q, hq, hselected⟩ := List.mem_map.1 (hperm.subset (List.mem_map_of_mem hr))
    obtain ⟨p, -, htransaction⟩ := List.mem_map.1 (hperm.symm.subset (List.mem_map_of_mem hr))
    refine ⟨item_of_found fun hnone => ?_, fun h0 => ?_, ?_⟩
    · have hid : q.itemId up (getLookupTablesInfo up db) = truthyId ((getLookupTablesInfo up db).items r.itemDesc) :=
        congrArg Transaction.itemId hselected
      exact (item_found hitems (hl q hq)).2 (hid.trans hnone)
    · have hwh : truthyId (p.warehouseId (getLookupTablesInfo up db)) = r.warehouseId (getLookupTablesInfo up db) :=
        congrArg Transaction.warehouseId htransaction
      rw [h0] at hwh
      have hne := truthyId_getD_ne_zero (p.warehouseId (getLookupTablesInfo up db))
      rw [hwh] at hne
      exact hne rfl
    · have hcreated : some createdBy = some creator := congrArg Transaction.createdBy hselected
      exact (Option.some.inj hcreated).symm
  · intro h
    have hmap : l.map (StagingRecord.selected (getLookupTablesInfo up db) creator) =
        l.map (StagingRecord.transaction up (getLookupTablesInfo up db) createdBy) := by
      refine List.map_congr_left fun r hr => ?_
      obtain ⟨hitem, hwh, rfl⟩ := h r hr
      exact selected_eq_transaction hitems (hl r hr) hitem hwh
    rw [hmap]

end

/-- **The two ways agree** exactly when they match on every record. -/
theorem modes_agree (up : Casing) (items : List (ℤ × String)) (warehouses : WarehouseRows) (createdBy : String)
    (records : List StagingRecord) (table : List Transaction) :
    ModesAgree up (getLookupTablesInfo up ⟨some items, some warehouses⟩) createdBy records table ↔
      ModesMatch up (getLookupTablesInfo up ⟨some items, some warehouses⟩) createdBy records table := by
  generalize hdb : (⟨some items, some warehouses⟩ : LookupTables) = db
  have hitems : db.items.isSome := by rw [← hdb]; rfl
  cases hv : unescape createdBy.toList with
  | none =>
    by_cases hne : records = []
    · subst hne
      refine iff_of_true ⟨[], rfl, rfl, .nil⟩ ⟨fun h => absurd rfl h, ?_, ?_⟩
      · intro pre r post h
        simp at h
      · intro pre r post h
        simp at h
    · refine iff_of_false ?_ fun h => h.readable hne hv
      rintro ⟨rows, hrun, -⟩
      rw [runScript_unread hv hne] at hrun
      cases hrun
  | some v =>
    have hcreator : String.ofList v = createdBy ↔ '\'' ∉ createdBy.toList := by
      rw [← unescape_eq_self_iff, hv, Option.some.injEq, ← String.toList_inj, String.toList_ofList]
    have hresolves : ∀ r ∈ (firsts (StagingRecord.migrationKey up (getLookupTablesInfo up db))
        (existingFor createdBy table) records).reduceOption, r.Resolves up (getLookupTablesInfo up db) := fun r hr => by
      obtain ⟨pre, post, -, hnew⟩ := mem_firsts.1 (List.reduceOption_mem_iff.1 hr)
      exact (isNew_migrationKey.1 hnew).resolves
    rw [modesAgree_iff hv, firsts_eq_iff, rows_perm_iff hitems hresolves]
    simp only [isNew_migrationKey, isNew_sqlKey, List.reduceOption_mem_iff, mem_firsts, hcreator]
    constructor
    · rintro ⟨htakes, hrows⟩
      exact ⟨fun _ => by rw [hv]; simp, htakes, fun pre r post hsplit ht => hrows r ⟨pre, post, hsplit, ht⟩⟩
    · intro h
      refine ⟨h.takes, fun r hr => ?_⟩
      obtain ⟨pre, post, hsplit, ht⟩ := hr
      exact h.rows pre r post hsplit ht

instance (up : Casing) (look : LookupInfo) (createdBy : String) (records : List StagingRecord)
    (table : List Transaction) : Decidable (ModesAgree up look createdBy records table) :=
  decidable_of_iff (∃ rows ∈ (runScript (generateSqlMigration look createdBy records) table).toList,
    rows.map Option.isSome =
      (migrateOutcomes up look createdBy records table).map (fun o => o.values?.isSome) ∧
    rows.reduceOption.Perm
      (((migrateOutcomes up look createdBy records table).filterMap Outcome.values?).map Transaction.stored)) (by
    simp only [Option.mem_toList, ModesAgree])

namespace Site

/-- A record of an item that is not in the table. -/
def unlisted : StagingRecord :=
  ⟨3, "Rope", "KGN", ⟨2024, 7, 4⟩, .received, 2, none, none, some "from the Mayor's office"⟩

/-- What another migration has left. -/
def earlier : List Transaction := [(received 4 5).transaction .ascii (getLookupTablesInfo .ascii lookups) "CLERK"]

def listed (stagingId : Nat) (q : ℚ) : StagingRecord := { received stagingId q with itemDesc := "BLANKET" }

end Site

/-- The script loses an item that is spelled in lower case, inserts a record whose item is missing, and skips one
that another user has migrated. -/
theorem modes_differ :
    ¬ ModesAgree .ascii (getLookupTablesInfo .ascii Site.lookups) "HADR_IMPORT" [Site.received 1 5] [] ∧
    ¬ ModesAgree .ascii (getLookupTablesInfo .ascii Site.lookups) "HADR_IMPORT" [Site.unlisted] [] ∧
    ¬ ModesAgree .ascii (getLookupTablesInfo .ascii Site.lookups) "HADR_IMPORT" [Site.listed 1 5] Site.earlier := by
  refine ⟨?_, ?_, ?_⟩ <;> decide +kernel

end Dmis
