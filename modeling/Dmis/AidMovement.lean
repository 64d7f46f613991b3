import Dmis.Lib.Query
import Dmis.Lib.SqlText
import Dmis.Lib.Table
import Mathlib.Algebra.Order.Monoid.Prod
import Mathlib.Algebra.Order.Ring.Rat

/-!
# Aid movement

Two pages (`app/features/dashboard.py:1019-1061`, `:1209-1285`) show what was received and issued under the filters of a
form, and one of them the same for each warehouse below.

| here | there |
| --- | --- |
| `Filters`, `conditions` | the conditions both pages put together; an empty field gives none, and `NULL` satisfies none |
| `kpiTotals` | `kpi_sql`; `lower` is Python's and `dbLower` the database's |
| `summaryTotals`, `detailRows` | `summary_sql`, `detail_sql`, in no order |
| `midnight`, `within` | a date is the midnight it begins with, and a range ends with the midnight after its last day |

The figures at the top are no sums of those below. Main theorem `totals_add_up_iff`: the rows of the warehouses leave
out what has no warehouse, and two ranges that follow each other both count the midnight between them; the totals add
up exactly when what is left out or counted twice is balanced.
-/

namespace Dmis

open Relational

namespace AidMovement

/-- `created_at` is in microseconds, without a time zone. -/
structure Transaction where
  id : ℤ
  itemId : Option ℤ
  ttype : String
  qty : ℚ
  warehouseId : Option ℤ
  createdAt : Option ℤ
  createdBy : Option String
  deriving DecidableEq, Repr

structure Item where
  itemId : ℤ
  itemName : String
  categoryId : ℤ
  deriving DecidableEq, Repr

structure Warehouse where
  warehouseId : ℤ
  warehouseName : String
  warehouseType : String
  deriving DecidableEq, Repr

instance : Keyed Transaction ℤ := ⟨Transaction.id⟩
instance : Keyed Item ℤ := ⟨Item.itemId⟩
instance : Keyed Warehouse ℤ := ⟨Warehouse.warehouseId⟩

structure Data where
  transactions : Table Transaction
  items : Table Item
  warehouses : Table Warehouse

/-! ## Totals -/

/-- `total_received` and `total_issued`. -/
abbrev Totals := ℚ × ℚ

def Totals.inStore (s : Totals) : ℚ := s.1 - s.2

/-- What a transaction adds to them. -/
def movement (t : Transaction) : Totals := (if t.ttype = "R" then t.qty else 0, if t.ttype = "I" then t.qty else 0)

def totals (rows : List Transaction) : Totals := (rows.map movement).sum

/-! ## Filters -/

def dayMicros : ℤ := 86400000000

/-- The beginning of a date. -/
def midnight (day : ℤ) : ℤ := day * dayMicros

structure Filters where
  warehouseId : Option ℤ
  startDate : Option ℤ
  endDate : Option ℤ
  movementType : String
  dataSource : String

/-- `t.created_at >= :start_date`. -/
def since (day : ℤ) (t : Transaction) : Bool := t.createdAt.any fun x => midnight day ≤ x

/-- `t.created_at <= (:end_date)::date + interval '1 day'`. -/
def upTo (day : ℤ) (t : Transaction) : Bool := t.createdAt.any fun x => x ≤ midnight (day + 1)

def fromSource (dataSource : String) (t : Transaction) : Bool :=
  if dataSource = "JDF" then t.createdBy = some "HADR_IMPORT" || t.createdBy = some "IMPORT"
  else if dataSource = "MLSS" then t.createdBy = some "MLSS_IMPORT"
  else true

namespace Filters

def conditions (f : Filters) (t : Transaction) : Bool :=
  f.warehouseId.all (fun w => t.warehouseId = some w) && f.startDate.all (fun day => since day t) &&
    f.endDate.all (fun day => upTo day t) && (f.movementType = "" || t.ttype = f.movementType) && fromSource f.dataSource t

def between (f : Filters) (a b : ℤ) : Filters := { f with startDate := some a, endDate := some b }

def undated (f : Filters) : Filters := { f with startDate := none, endDate := none }

end Filters

/-! ## The page of the items -/

structure DetailFilters extends Filters where
  categoryId : Option ℤ
  itemId : Option ℤ

namespace DetailFilters

def hasFilter (f : DetailFilters) : Bool :=
  f.itemId.isSome || f.categoryId.isSome || f.warehouseId.isSome || f.movementType ≠ "" || f.startDate.isSome ||
    f.endDate.isSome || f.dataSource ≠ ""

/-- The item goes before the category. -/
def baseConditions (f : DetailFilters) (x : Transaction × Item) : Bool :=
  (match f.itemId with
    | some i => x.1.itemId = some i
    | none => f.categoryId.all fun c => x.2.categoryId = c) && f.conditions x.1

def between (f : DetailFilters) (a b : ℤ) : DetailFilters := { f with toFilters := f.toFilters.between a b }

def undated (f : DetailFilters) : DetailFilters := { f with toFilters := f.toFilters.undated }

end DetailFilters

def itemOf (t : Transaction) (i : Item) : Bool := t.itemId = some i.itemId

def warehouseOf (t : Transaction) (w : Warehouse) : Bool := t.warehouseId = some w.warehouseId

section
variable (d : Data)

/-- The transactions the summary is about. -/
def counted (f : DetailFilters) : List Transaction :=
  ((join itemOf d.transactions.rows d.items.rows).filter f.baseConditions).map Prod.fst

def summaryTotals (f : DetailFilters) : Totals := if f.hasFilter then totals (counted d f) else 0

structure DetailRow where
  warehouse : Warehouse
  totals : Totals
  inStore : ℚ

def detailRows (f : DetailFilters) : List DetailRow :=
  if f.hasFilter then
    (groupBy Prod.snd ((join (fun x w => warehouseOf x.1 w) (join itemOf d.transactions.rows d.items.rows)
      d.warehouses.rows).filter fun x => f.baseConditions x.1)).map fun g =>
        ⟨g.1, totals (g.2.map fun x => x.1.1), (totals (g.2.map fun x => x.1.1)).inStore⟩
  else []

end

/-! ## The page of the movements -/

structure DashboardFilters extends Filters where
  itemSearch : List Char

section
variable (lower dbLower : List Char → List Char) (d : Data)

namespace DashboardFilters

def baseConditions (f : DashboardFilters) (x : Transaction × Option Item) : Bool :=
  (f.itemSearch = [] || x.2.any fun i => like ('%' :: lower f.itemSearch ++ ['%']) (dbLower i.itemName.toList)) &&
    f.conditions x.1

def between (f : DashboardFilters) (a b : ℤ) : DashboardFilters := { f with toFilters := f.toFilters.between a b }

def undated (f : DashboardFilters) : DashboardFilters := { f with toFilters := f.toFilters.undated }

end DashboardFilters

/-- The transactions the figures are about. -/
def kpiCounted (f : DashboardFilters) : List Transaction :=
  ((outerJoin itemOf d.transactions.rows d.items.rows).filter (f.baseConditions lower dbLower)).map Prod.fst

def kpiTotals (f : DashboardFilters) : Totals := totals (kpiCounted lower dbLower d f)

end

/-! ## What should add up -/

/-- Received and issued quantities that sum to nothing. -/
def Balanced (rows : List Transaction) : Prop := totals rows = 0

instance (rows : List Transaction) : Decidable (Balanced rows) := by unfold Balanced; infer_instance

/-- No row of a warehouse has it. -/
def unresolved (d : Data) (t : Transaction) : Bool := !d.warehouses.rows.any (warehouseOf t)

def atMidnight (day : ℤ) (t : Transaction) : Bool := t.createdAt = some (midnight day)

def DetailAddsUp (d : Data) (f : DetailFilters) : Prop :=
  summaryTotals d f = ((detailRows d f).map DetailRow.totals).sum

/-- The totals of `a` to `b` and of the day after `b` to `c` are those of `a` to `c`. -/
def RangesAddUp (total : ℤ → ℤ → Totals) (a b c : ℤ) : Prop := total a b + total (b + 1) c = total a c

/-! ## Ranges of dates -/

def within (a b : ℤ) (t : Transaction) : Bool := since a t && upTo b t

theorem conditions_between (f : Filters) (a b : ℤ) (t : Transaction) :
    (f.between a b).conditions t = (within a b t && f.undated.conditions t) := by
  simp only [Filters.conditions, Filters.between, Filters.undated, within, Option.all_some, Option.all_none, Bool.and_true]
  ac_rfl

/-- **Two ranges that follow each other count the midnight between them twice.** -/
theorem totals_ranges {a b c : ℤ} (hab : a ≤ b) (hbc : b < c) (rows : List Transaction) :
    totals (rows.filter (within a b)) + totals (rows.filter (within (b + 1) c)) =
      totals (rows.filter (within a c)) + totals (rows.filter (atMidnight (b + 1))) := by
  have hsplit := sum_filter_add (within a b) (within (b + 1) c) movement rows
  have heither : ∀ t, (within a b t || within (b + 1) c t) = within a c t := fun t => by
    unfold within since upTo midnight dayMicros
    cases t.createdAt with
    | none => rfl
    | some x =>
      rw [Bool.eq_iff_iff]
      simp only [Option.any_some, Bool.or_eq_true, Bool.and_eq_true, decide_eq_true_eq]
      omega
  have hboth : ∀ t, (within a b t && within (b + 1) c t) = atMidnight (b + 1) t := fun t => by
    unfold within since upTo atMidnight midnight dayMicros
    cases t.createdAt with
    | none => rfl
    | some x =>
      rw [Bool.eq_iff_iff]
      simp only [Option.any_some, Bool.and_eq_true, decide_eq_true_eq, Option.some.injEq]
      omega
  simp only [heither, hboth] at hsplit
  exact hsplit

theorem rangesAddUp_iff {total : ℤ → ℤ → Totals} {rows : List Transaction}
    (h : ∀ a b, total a b = totals (rows.filter (within a b))) {a b c : ℤ} (hab : a ≤ b) (hbc : b < c) :
    RangesAddUp total a b c ↔ Balanced (rows.filter (atMidnight (b + 1))) := by
  unfold RangesAddUp Balanced
  rw [h, h, h, totals_ranges hab hbc]
  exact add_eq_left (a := totals (rows.filter (within a c)))

/-- The dates of a filter select among the rows of the filter without them. -/
theorem filter_within {α : Type} {f : α → Transaction} {p q : α → Bool} {a b : ℤ}
    (h : ∀ x, p x = (within a b (f x) && q x)) (rows : List α) :
    (rows.filter p).map f = ((rows.filter q).map f).filter (within a b) := by
  rw [List.filter_map, List.filter_filter]
  exact congrArg (List.map f) (List.filter_congr fun x _ => h x)

theorem summaryTotals_between (d : Data) (f : DetailFilters) (a b : ℤ) :
    summaryTotals d (f.between a b) = totals ((counted d f.undated).filter (within a b)) := by
  have hfilter : (f.between a b).hasFilter = true := by
    simp [DetailFilters.hasFilter, DetailFilters.between, Filters.between]
  unfold summaryTotals counted
  rw [if_pos hfilter]
  refine congrArg totals (filter_within (fun x => ?_) _)
  simp only [DetailFilters.baseConditions, DetailFilters.between, DetailFilters.undated, conditions_between]
  ac_rfl

theorem kpiTotals_between (lower dbLower : List Char → List Char) (d : Data) (f : DashboardFilters) (a b : ℤ) :
    kpiTotals lower dbLower d (f.between a b) =
      totals ((kpiCounted lower dbLower d f.undated).filter (within a b)) := by
  unfold kpiTotals kpiCounted
  refine congrArg totals (filter_within (fun x => ?_) _)
  simp only [DashboardFilters.baseConditions, DashboardFilters.between, DashboardFilters.undated, conditions_between]
  ac_rfl

/-! ## The rows of the warehouses -/

theorem warehouse_unique (d : Data) (t : Transaction) : (d.warehouses.rows.filter (warehouseOf t)).length ≤ 1 :=
  length_filter_ref_le_one d.warehouses.nodup t.warehouseId

/-- The rows add up to what has a warehouse. -/
theorem sum_detailRows (d : Data) {f : DetailFilters} (h : f.hasFilter) :
    ((detailRows d f).map DetailRow.totals).sum = totals ((counted d f).filter fun t => ¬unresolved d t) := by
  have hgroups := sum_groupBy Prod.snd (fun x : (Transaction × Item) × Warehouse => movement x.1.1)
    (join (fun x w => warehouseOf x.1 w) ((join itemOf d.transactions.rows d.items.rows).filter f.baseConditions)
      d.warehouses.rows)
  have hjoin := sum_join_unique (fun x : Transaction × Item => movement x.1)
    (l := (join itemOf d.transactions.rows d.items.rows).filter f.baseConditions) fun x _ => warehouse_unique d x.1
  have hresolved : ∀ t, decide (¬unresolved d t = true) = d.warehouses.rows.any (warehouseOf t) := fun t => by
    unfold unresolved
    cases d.warehouses.rows.any (warehouseOf t)
    · rfl
    · rfl
  unfold detailRows counted totals
  rw [if_pos h, List.map_map, filter_join_left, List.filter_map, List.map_map]
  simp only [Function.comp_def, List.map_map, hresolved]
  exact hgroups.trans hjoin

theorem detailAddsUp_iff (d : Data) (f : DetailFilters) :
    DetailAddsUp d f ↔ (f.hasFilter → Balanced ((counted d f).filter (unresolved d))) := by
  unfold DetailAddsUp
  by_cases h : f.hasFilter = true
  · have hsplit := List.sum_map_filter_add_sum_map_filter_not (fun t => unresolved d t = true) movement (counted d f)
    have hsummary : summaryTotals d f = totals (counted d f) := if_pos h
    rw [hsummary, sum_detailRows d h]
    simp only [Bool.decide_eq_true] at hsplit
    unfold Balanced totals
    rw [← hsplit, add_eq_right]
    simp [h]
  · have hsummary : summaryTotals d f = 0 := if_neg h
    have hrows : detailRows d f = [] := if_neg h
    rw [hsummary, hrows]
    simp [h]

/-! ## When the totals add up -/

/-- **The totals add up exactly when what is left out, or counted twice, is balanced.** -/
theorem totals_add_up_iff (d : Data) :
    (∀ f : DetailFilters, DetailAddsUp d f ↔ (f.hasFilter → Balanced ((counted d f).filter (unresolved d)))) ∧
    (∀ (f : DetailFilters) (a b c : ℤ), a ≤ b → b < c →
      (RangesAddUp (fun a b => summaryTotals d (f.between a b)) a b c ↔
        Balanced ((counted d f.undated).filter (atMidnight (b + 1))))) ∧
    ∀ (lower dbLower : List Char → List Char) (f : DashboardFilters) (a b c : ℤ), a ≤ b → b < c →
      (RangesAddUp (fun a b => kpiTotals lower dbLower d (f.between a b)) a b c ↔
        Balanced ((kpiCounted lower dbLower d f.undated).filter (atMidnight (b + 1)))) := by
  refine ⟨detailAddsUp_iff d, ?detail, ?dashboard⟩
  case detail =>
    intro f a b c hab hbc
    exact rangesAddUp_iff (summaryTotals_between d f) hab hbc
  case dashboard =>
    intro lower dbLower f a b c hab hbc
    exact rangesAddUp_iff (kpiTotals_between lower dbLower d f) hab hbc

/-- Day 101 begins with a receipt, and another of day 100 has no warehouse. -/
def imported : Data where
  transactions :=
    ⟨[⟨1, some 1, "R", 40, some 3, some (midnight 101), some "HADR_IMPORT"⟩,
      ⟨2, some 1, "R", 10, none, some (midnight 100 + 1), some "HADR_IMPORT"⟩], by decide⟩
  items := ⟨[⟨1, "Tarpaulin", 5⟩], by decide⟩
  warehouses := ⟨[⟨3, "Kingston", "MAIN-HUB"⟩], by decide⟩

def anything : Filters := ⟨none, none, none, "", ""⟩

def tarpaulins : DetailFilters := ⟨anything, none, some 1⟩

/-- The rows show 40 of 50, and 100 to 100 and 101 to 102 count 90. -/
theorem imported_adds_up_nowhere : ¬DetailAddsUp imported tarpaulins ∧
    ¬RangesAddUp (fun a b => summaryTotals imported (tarpaulins.between a b)) 100 100 102 ∧
    ¬RangesAddUp (fun a b => kpiTotals id id imported ((⟨anything, []⟩ : DashboardFilters).between a b)) 100 100 102 := by
  unfold DetailAddsUp RangesAddUp
  refine ⟨?_, ?_, ?_⟩
  · decide +kernel
  · decide +kernel
  · decide +kernel

/-- No transaction is of the beginning of day 102. -/
theorem totals_add_up_iff_imported :
    RangesAddUp (fun a b => summaryTotals imported (tarpaulins.between a b)) 100 101 102 := by
  refine ((totals_add_up_iff imported).2.1 tarpaulins 100 101 102 (by decide) (by decide)).2 ?_
  decide +kernel

/-- Where every quantity is positive, balanced is without receipts and issues. -/
theorem balanced_iff {rows : List Transaction} (h : ∀ t ∈ rows, 0 < t.qty) :
    Balanced rows ↔ ∀ t ∈ rows, t.ttype ≠ "R" ∧ t.ttype ≠ "I" := by
  have hnonneg : ∀ s ∈ rows.map movement, 0 ≤ s := by
    intro s hs
    obtain ⟨t, ht, rfl⟩ := List.mem_map.1 hs
    have hqty := (h t ht).le
    unfold movement
    constructor
    · dsimp only
      split_ifs
      · exact hqty
      · exact le_rfl
    · dsimp only
      split_ifs
      · exact hqty
      · exact le_rfl
  constructor
  · intro hsum t ht
    have hzero := List.all_zero_of_le_zero_le_of_sum_eq_zero hnonneg hsum (List.mem_map_of_mem ht)
    have hqty := (h t ht).ne'
    simpa [movement, hqty] using hzero
  · intro hother
    refine List.sum_eq_zero fun s hs => ?_
    obtain ⟨t, ht, rfl⟩ := List.mem_map.1 hs
    simp [movement, hother t ht]

end AidMovement

end Dmis
