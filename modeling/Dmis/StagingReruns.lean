import Dmis.Staging
import Mathlib.Logic.Function.Iterate

/-!
# Running the migration again

`migrate_records` looks for a record's signature, which has the float of its quantity, among the rows whose
`created_by` is `LIKE 'created_by%'`, which have the stored decimal. `migrated_once` says when a first run takes
every record that resolves and the later runs take none.
-/

namespace Dmis

open Relational

/-! ## What a run inserts -/

section
variable (up : Casing) (look : LookupInfo) (createdBy : String)

/-- The item and the warehouse are found, or the code goes on without them. -/
def StagingRecord.Resolves (r : StagingRecord) : Prop := ¬ r.ItemMissing up look ∧ ¬ r.WarehouseMissing look

instance : DecidablePred (StagingRecord.Resolves up look) := fun r => by
  unfold StagingRecord.Resolves; infer_instance

/-- The key the loop finds duplicates by. -/
def StagingRecord.migrationKey (r : StagingRecord) : Option Signature :=
  if r.Resolves up look then some (r.signature up look) else none

/-- The row a record becomes. -/
def StagingRecord.transaction (r : StagingRecord) : Transaction := (r.values up look createdBy).stored

/-- The table after a run. -/
def migrated (records : List StagingRecord) (table : List Transaction) : List Transaction :=
  (migrateRecords up look createdBy false records table).2

end

section
variable {up : Casing} {look : LookupInfo} {createdBy : String} {r : StagingRecord} {records : List StagingRecord}
  {table : List Transaction} {existing : List Signature} {n : Nat}

/-- The loop takes the first record of each signature. -/
theorem migrateLoop_eq : (migrateLoop up look createdBy existing records).map Outcome.values? =
    (firsts (StagingRecord.migrationKey up look) existing records).map
      (Option.map (StagingRecord.values up look createdBy)) := by
  induction records generalizing existing with
  | nil => rfl
  | cons r records ih =>
    unfold migrateLoop firsts
    by_cases hi : r.ItemMissing up look
    · have hk : r.migrationKey up look = none := if_neg fun h => h.1 hi
      rw [if_pos hi, hk, List.map_cons, ih]
      rfl
    · by_cases hw : r.WarehouseMissing look
      · have hk : r.migrationKey up look = none := if_neg fun h => h.2 hw
        rw [if_neg hi, if_pos hw, hk, List.map_cons, ih]
        rfl
      · have hk : r.migrationKey up look = some (r.signature up look) := if_pos ⟨hi, hw⟩
        rw [if_neg hi, if_neg hw, hk]
        by_cases hs : r.signature up look ∈ existing
        · simp only [if_pos hs, List.map_cons, ih]
          rfl
        · simp only [if_neg hs, List.map_cons, ih]
          rfl

/-- The tuples a run reads first. -/
def existingFor (createdBy : String) (table : List Transaction) : List Signature :=
  getExistingTransactions (createdBy.toList ++ ['%']) table

theorem migrateOutcomes_eq : (migrateOutcomes up look createdBy records table).map Outcome.values? =
    (firsts (StagingRecord.migrationKey up look) (existingFor createdBy table) records).map
      (Option.map (StagingRecord.values up look createdBy)) := migrateLoop_eq

theorem inserted_eq :
    ((migrateOutcomes up look createdBy records table).filterMap Outcome.values?).map Transaction.stored =
    (firsts (StagingRecord.migrationKey up look) (existingFor createdBy table) records).reduceOption.map
      (StagingRecord.transaction up look createdBy) := by
  have hvalues : (migrateOutcomes up look createdBy records table).filterMap Outcome.values? =
      ((migrateOutcomes up look createdBy records table).map Outcome.values?).reduceOption := by
    rw [List.reduceOption, List.filterMap_map]
    rfl
  rw [hvalues, migrateOutcomes_eq, List.reduceOption_map, List.map_map]
  rfl

theorem migrated_eq : migrated up look createdBy records table = table ++
    (firsts (StagingRecord.migrationKey up look) (existingFor createdBy table) records).reduceOption.map
      (StagingRecord.transaction up look createdBy) := by
  rw [← inserted_eq]
  rfl

theorem filter_migrationKey :
    records.filter (fun r => (r.migrationKey up look).isSome) = records.filter (StagingRecord.Resolves up look) := by
  refine List.filter_congr fun r _ => ?_
  unfold StagingRecord.migrationKey
  by_cases h : r.Resolves up look <;> simp [h]

theorem filterMap_migrationKey : records.filterMap (StagingRecord.migrationKey up look) =
    (records.filter (StagingRecord.Resolves up look)).map (StagingRecord.signature up look) := by
  induction records with
  | nil => rfl
  | cons r records ih =>
    by_cases h : r.Resolves up look
    · rw [List.filter_cons_of_pos (by simpa using h), List.map_cons, ← ih]
      exact List.filterMap_cons_some (if_pos h)
    · rw [List.filter_cons_of_neg (by simpa using h), ← ih]
      exact List.filterMap_cons_none (if_neg h)

/-- A run takes every record that resolves exactly when their signatures are new and differ. -/
theorem takes_all_iff : migrated up look createdBy records table = table ++
      (records.filter (StagingRecord.Resolves up look)).map (StagingRecord.transaction up look createdBy) ↔
    ((records.filter (StagingRecord.Resolves up look)).map (StagingRecord.signature up look)).Nodup ∧
      ∀ r ∈ records.filter (StagingRecord.Resolves up look), r.signature up look ∉ existingFor createdBy table := by
  have hall := firsts_all_iff (StagingRecord.migrationKey up look) (existingFor createdBy table) records
  rw [filter_migrationKey, filterMap_migrationKey, List.forall_mem_map] at hall
  rw [migrated_eq, ← hall, List.append_cancel_left_eq]
  constructor
  · intro h
    have hlen := congrArg List.length h
    rw [List.length_map, List.length_map] at hlen
    have hsub := firsts_sublist (StagingRecord.migrationKey up look) (existingFor createdBy table) records
    rw [filter_migrationKey] at hsub
    exact hsub.eq_of_length hlen
  · intro h
    rw [h]

/-- A run takes nothing exactly when every signature is there already. -/
theorem takes_none_iff : migrated up look createdBy records table = table ↔
    ∀ r ∈ records.filter (StagingRecord.Resolves up look), r.signature up look ∈ existingFor createdBy table := by
  have hnone := firsts_none_iff (StagingRecord.migrationKey up look) (existingFor createdBy table) records
  rw [filterMap_migrationKey, List.forall_mem_map] at hnone
  rw [migrated_eq, ← hnone, List.append_right_eq_self, List.map_eq_nil_iff]

end

/-! ## Reading a row back -/

section
variable (up : Casing) (look : LookupInfo) (createdBy : String)

/-- The row a record becomes is found again: `created_by` matches the pattern made of it, the decimal that is
stored has the value of the float, and no id is 0, which the signature takes for none. -/
structure StagingRecord.ReadsBack (r : StagingRecord) : Prop where
  creator : like (createdBy.toList ++ ['%']) createdBy.toList = true
  qty : shortest r.float = r.float
  item : r.itemId up look ≠ some 0
  warehouse : r.warehouseId look ≠ some 0

end

section
variable {up : Casing} {look : LookupInfo} {createdBy : String} {r q : StagingRecord} {records : List StagingRecord}
  {table : List Transaction} {n : Nat}

theorem truthyId_getD {id : Option ℤ} : (truthyId id).getD (-1) = id.getD (-1) ↔ id ≠ some 0 := by
  cases id with
  | none => simp [truthyId]
  | some i =>
    by_cases h : i = 0
    · simp [truthyId, Option.filter, h]
    · simp [truthyId, Option.filter, h]

theorem truthyId_getD_ne_zero (id : Option ℤ) : (truthyId id).getD (-1) ≠ 0 := by
  cases id with
  | none => simp [truthyId]
  | some i =>
    by_cases h : i = 0
    · simp [truthyId, Option.filter, h]
    · simp [truthyId, Option.filter, h]

theorem nonempty_getD (s : Option String) : (nonempty s).getD "" = s.getD "" := by
  cases s with
  | none => rfl
  | some s =>
    by_cases h : s = ""
    · simp [nonempty, Option.filter, h]
    · simp [nonempty, Option.filter, h]

theorem coalesced_eq_signature : (q.transaction up look createdBy).coalesced = r.signature up look ↔
    (q.itemId up look).getD (-1) = (truthyId (r.itemId up look)).getD (-1) ∧
    q.movementType.code = r.movementType.code ∧ shortest q.float = r.float ∧
    (q.warehouseId look).getD (-1) = (truthyId (r.warehouseId look)).getD (-1) ∧ q.notes.getD "" = r.notes.getD "" := by
  unfold StagingRecord.transaction StagingRecord.values Transaction.stored Transaction.coalesced
    StagingRecord.signature buildTransactionSignature
  rw [Signature.mk.injEq, nonempty_getD]

/-- A stored row that reads as the signature of some record reads as its own. -/
theorem signature_eq_of_coalesced (h : (q.transaction up look createdBy).coalesced = r.signature up look) :
    q.signature up look = r.signature up look := by
  obtain ⟨hitem, hcode, hqty, hwh, hnotes⟩ := coalesced_eq_signature.1 h
  have hitem0 : q.itemId up look ≠ some 0 := fun h0 => truthyId_getD_ne_zero _ (hitem.symm.trans (by rw [h0]; rfl))
  have hwh0 : q.warehouseId look ≠ some 0 := fun h0 => truthyId_getD_ne_zero _ (hwh.symm.trans (by rw [h0]; rfl))
  have hfloat : q.float = r.float := calc
    q.float = toBinary64 (shortest q.float) := (toBinary64_shortest (toBinary64_idem q.qty)).symm
    _ = r.float := by rw [hqty]; exact toBinary64_idem r.qty
  unfold StagingRecord.signature buildTransactionSignature
  rw [Signature.mk.injEq, truthyId_getD.2 hitem0, truthyId_getD.2 hwh0, nonempty_getD, nonempty_getD]
  exact ⟨hitem, hcode, hfloat, hwh, hnotes⟩

theorem coalesced_self : (r.transaction up look createdBy).coalesced = r.signature up look ↔
    shortest r.float = r.float ∧ r.itemId up look ≠ some 0 ∧ r.warehouseId look ≠ some 0 := by
  rw [coalesced_eq_signature, ← truthyId_getD, ← truthyId_getD]
  constructor
  · rintro ⟨hi, -, hq, hw, -⟩
    exact ⟨hq, hi.symm, hw.symm⟩
  · rintro ⟨hq, hi, hw⟩
    exact ⟨hi.symm, rfl, hq, hw.symm, rfl⟩

/-- After a run that took every record, the signatures are there exactly when the rows read back. -/
theorem signatures_read_back
    (hnodup : ((records.filter (StagingRecord.Resolves up look)).map (StagingRecord.signature up look)).Nodup)
    (hnew : ∀ r ∈ records.filter (StagingRecord.Resolves up look), r.signature up look ∉ existingFor createdBy table) :
    (∀ r ∈ records.filter (StagingRecord.Resolves up look), r.signature up look ∈ existingFor createdBy (table ++
      (records.filter (StagingRecord.Resolves up look)).map (StagingRecord.transaction up look createdBy))) ↔
    ∀ r ∈ records.filter (StagingRecord.Resolves up look), r.ReadsBack up look createdBy := by
  have hlike : ∀ q : StagingRecord, (q.transaction up look createdBy).createdLike (createdBy.toList ++ ['%']) =
      like (createdBy.toList ++ ['%']) createdBy.toList := fun _ => rfl
  simp only [existingFor, getExistingTransactions, List.filter_append, List.map_append, List.mem_append] at hnew ⊢
  constructor
  · intro h r hr
    rcases h r hr with hold | hrow
    · exact absurd hold (hnew r hr)
    · obtain ⟨x, hx, hsig⟩ := List.mem_map.1 hrow
      obtain ⟨hx, hcreated⟩ := List.mem_filter.1 hx
      obtain ⟨q, hq, rfl⟩ := List.mem_map.1 hx
      -- the row is the record's own, since no other has its signature
      obtain rfl : q = r := List.inj_on_of_nodup_map hnodup hq hr (signature_eq_of_coalesced hsig)
      obtain ⟨hqty, hitem, hwh⟩ := coalesced_self.1 hsig
      exact ⟨(hlike q).symm.trans hcreated, hqty, hitem, hwh⟩
  · intro h r hr
    refine .inr (List.mem_map.2 ⟨r.transaction up look createdBy, ?_, coalesced_self.2 ?_⟩)
    · exact List.mem_filter.2 ⟨List.mem_map_of_mem hr, (hlike r).trans (h r hr).creator⟩
    · exact ⟨(h r hr).qty, (h r hr).item, (h r hr).warehouse⟩

end

/-! ## Every number of runs -/

section
variable (up : Casing) (look : LookupInfo) (createdBy : String)

/-- Of `n` runs the first inserts one transaction for every record that resolves, and the later ones none. -/
structure MigratedOnce (records : List StagingRecord) (n : Nat) (table : List Transaction) : Prop where
  first : migrated up look createdBy records table = table ++
    (records.filter (StagingRecord.Resolves up look)).map (StagingRecord.transaction up look createdBy)
  later : ∀ k, 0 < k → k < n →
    (migrated up look createdBy records)^[k + 1] table = (migrated up look createdBy records)^[k] table

/-- The signatures of the records that resolve differ, none is there before, and, if there is a second run, the
rows of all of them read back. -/
structure Rerunnable (records : List StagingRecord) (n : Nat) (table : List Transaction) : Prop where
  differ : ((records.filter (StagingRecord.Resolves up look)).map (StagingRecord.signature up look)).Nodup
  new : ∀ r ∈ records.filter (StagingRecord.Resolves up look), r.signature up look ∉ existingFor createdBy table
  readsBack : 1 < n → ∀ r ∈ records.filter (StagingRecord.Resolves up look), r.ReadsBack up look createdBy

end

/-- **Running the migration again**: the first of `n` runs takes every record that resolves and the later runs
take none exactly when the records are `Rerunnable`. -/
theorem migrated_once (up : Casing) (look : LookupInfo) (createdBy : String) (records : List StagingRecord) (n : Nat)
    (table : List Transaction) :
    MigratedOnce up look createdBy records n table ↔ Rerunnable up look createdBy records n table := by
  constructor
  · intro h
    obtain ⟨hnodup, hnew⟩ := takes_all_iff.1 h.first
    refine ⟨hnodup, hnew, fun hn => ?_⟩
    have hsecond : migrated up look createdBy records (migrated up look createdBy records table) =
        migrated up look createdBy records table := h.later 1 one_pos hn
    rw [h.first] at hsecond
    exact (signatures_read_back hnodup hnew).1 (takes_none_iff.1 hsecond)
  · intro h
    have hfirst := takes_all_iff.2 ⟨h.differ, h.new⟩
    refine ⟨hfirst, fun k hk hkn => ?_⟩
    have hsecond : migrated up look createdBy records (migrated up look createdBy records table) =
        migrated up look createdBy records table := by
      rw [hfirst]
      exact takes_none_iff.2 ((signatures_read_back h.differ h.new).2 (h.readsBack (by omega)))
    obtain ⟨j, rfl⟩ : ∃ j, k = j + 1 := ⟨k - 1, by omega⟩
    calc (migrated up look createdBy records)^[j + 2] table
        = (migrated up look createdBy records)^[j] (migrated up look createdBy records
            (migrated up look createdBy records table)) := rfl
      _ = (migrated up look createdBy records)^[j] (migrated up look createdBy records table) := by rw [hsecond]
      _ = (migrated up look createdBy records)^[j + 1] table := rfl

namespace Site

/-- One item and one warehouse. -/
def lookups : LookupTables := ⟨some [(1, "Blanket")], some (.named [(7, "Kingston Depot (KGN)")])⟩

def received (stagingId : Nat) (q : ℚ) : StagingRecord :=
  ⟨stagingId, "blanket ", "KGN", ⟨2024, 7, 3⟩, .received, q, some "July", some 12, none⟩

end Site

/-- A tenth is migrated again by the second run, and of two equal records one is lost. -/
theorem migrated_twice :
    ¬ MigratedOnce .ascii (getLookupTablesInfo .ascii Site.lookups) "HADR_IMPORT" [Site.received 1 (1 / 10)] 2 [] ∧
    ¬ MigratedOnce .ascii (getLookupTablesInfo .ascii Site.lookups) "HADR_IMPORT"
        [Site.received 1 5, Site.received 2 5] 1 [] := by
  constructor
  · intro h
    exact absurd (h.later 1 one_pos (by omega)) (by decide +kernel)
  · intro h
    exact absurd h.first (by decide +kernel)

end Dmis
