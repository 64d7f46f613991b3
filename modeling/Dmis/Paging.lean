import Dmis.AidMovement
import Dmis.Lib.Pages
import Mathlib.Order.WithBot

/-!
# Pages of the movements

The list of transactions of the movement page (`app/features/dashboard.py:1063-1109`): 25 of them a page, each page by a
query of its own, ordered by the time of creation only.

| here | there |
| --- | --- |
| `lines` | the join and the `WHERE` of `transactions_sql` |
| `totalCount`, `totalPages` | `total_count`, `total_pages` |
| `PageAnswer` | what the database may answer for a page; equal times come in any order, `NULL` before all |

An import gives all its transactions one time. Main theorem `pages_show_once_iff`: the pages show every transaction once
exactly when no two of one time stand on both sides of the end of a page; the rest (`Pages`) is the library's.
-/

namespace Dmis

open Relational

namespace AidMovement

structure ItemCatg where
  categoryId : ℤ
  categoryDesc : String
  deriving DecidableEq, Repr

structure UnitOfMeasure where
  uomCode : String
  uomDesc : String
  deriving DecidableEq, Repr

instance : Keyed ItemCatg ℤ := ⟨ItemCatg.categoryId⟩
instance : Keyed UnitOfMeasure String := ⟨UnitOfMeasure.uomCode⟩

/-- What else the lines of the list show. -/
structure Catalogue where
  categories : Table ItemCatg
  units : Table UnitOfMeasure
  /-- `item.default_uom_code`. -/
  defaultUomCode : Item → String

/-! ## The list -/

abbrev Line := (((Transaction × Option Item) × Option Warehouse) × Option ItemCatg) × Option UnitOfMeasure

def Line.transaction (x : Line) : Transaction := x.1.1.1.1

def perPage : ℕ := 25

/-- `ORDER BY t.created_at DESC`; `NULL` is the greatest. -/
def createdKey (t : Transaction) : WithTop ℤ :=
  match t.createdAt with
  | some x => x
  | none => ⊤

def lineKey (x : Line) : WithTop ℤ := createdKey x.transaction

section
variable (lower dbLower : List Char → List Char) (d : Data) (c : Catalogue) (f : DashboardFilters)

def lines : List Line :=
  (outerJoin (fun x u => x.1.1.2.map c.defaultUomCode = some u.uomCode)
    (outerJoin (fun x g => x.1.2.map Item.categoryId = some g.categoryId)
      (outerJoin (fun x w => warehouseOf x.1 w) (outerJoin itemOf d.transactions.rows d.items.rows) d.warehouses.rows)
      c.categories.rows)
    c.units.rows).filter fun x => f.baseConditions lower dbLower x.1.1.1

/-- `count_sql` counts what `kpi_sql` adds up. -/
def totalCount : ℕ := (kpiCounted lower dbLower d f).length

def totalPages : ℕ :=
  if 0 < totalCount lower dbLower d f then (totalCount lower dbLower d f + perPage - 1) / perPage else 1

def offset (page : ℕ) : ℕ := (page - 1) * perPage

def PageAnswer (page : ℕ) (shown : List Line) : Prop :=
  ∃ sorted, Pages.Ordered lineKey (lines lower dbLower d c f) sorted ∧ shown = (sorted.drop (offset page)).take perPage

/-! ## What the pages should show -/

structure ShowsOnce : Prop where
  once : ∀ pages : ℕ → List Line,
    (∀ page, 1 ≤ page → page ≤ totalPages lower dbLower d f → PageAnswer lower dbLower d c f page (pages page)) →
      (((List.range' 1 (totalPages lower dbLower d f)).flatMap pages).map Line.transaction).Perm
        (kpiCounted lower dbLower d f)
  full : ∀ page shown, 1 ≤ page → page < totalPages lower dbLower d f → PageAnswer lower dbLower d c f page shown →
    shown.length = 25
  empty : kpiCounted lower dbLower d f = [] → totalPages lower dbLower d f = 1

/-- Fewer than the transactions of `page` pages are newer than `k`, and more are of that time or newer. -/
def CutAfter (page : ℕ) (k : WithTop ℤ) : Prop := Pages.Cut createdKey (kpiCounted lower dbLower d f) (page * perPage) k

end

/-! ## The lines and their transactions -/

section
variable (lower dbLower : List Char → List Char) (d : Data) (c : Catalogue) (f : DashboardFilters)

theorem item_unique (t : Transaction) : (d.items.rows.filter (itemOf t)).length ≤ 1 :=
  length_filter_ref_le_one d.items.nodup t.itemId

/-- The names beside a transaction give it no second line. -/
theorem transactions_of_lines : (lines lower dbLower d c f).map Line.transaction = kpiCounted lower dbLower d f := by
  have hselect : lines lower dbLower d c f =
      outerJoin (fun x u => x.1.1.2.map c.defaultUomCode = some u.uomCode)
        (outerJoin (fun x g => x.1.2.map Item.categoryId = some g.categoryId)
          (outerJoin (fun x w => warehouseOf x.1 w)
            ((outerJoin itemOf d.transactions.rows d.items.rows).filter (f.baseConditions lower dbLower))
            d.warehouses.rows)
          c.categories.rows)
        c.units.rows := by
    rw [← filter_outerJoin, ← filter_outerJoin, ← filter_outerJoin]
    rfl
  have htransaction : Line.transaction = Prod.fst ∘ Prod.fst ∘ Prod.fst ∘ Prod.fst := rfl
  rw [hselect, htransaction, ← List.map_map, ← List.map_map, ← List.map_map,
    map_fst_outerJoin fun x _ => length_filter_ref_le_one c.units.nodup (x.1.1.2.map c.defaultUomCode),
    map_fst_outerJoin fun x _ => length_filter_ref_le_one c.categories.nodup (x.1.2.map Item.categoryId),
    map_fst_outerJoin fun x _ => warehouse_unique d x.1]
  rfl

theorem nodup_kpiCounted : (kpiCounted lower dbLower d f).Nodup := by
  have hrows : (outerJoin itemOf d.transactions.rows d.items.rows).map Prod.fst = d.transactions.rows :=
    map_fst_outerJoin fun t _ => item_unique d t
  have hnodup := d.transactions.nodup.of_map
  rw [← hrows] at hnodup
  exact hnodup.sublist (List.filter_sublist.map Prod.fst)

theorem nodup_lines : (lines lower dbLower d c f).Nodup := by
  refine List.Nodup.of_map Line.transaction ?_
  rw [transactions_of_lines]
  exact nodup_kpiCounted lower dbLower d f

/-! ## The pages of the library -/

theorem pageAnswer_succ (p : ℕ) (shown : List Line) :
    PageAnswer lower dbLower d c f (p + 1) shown ↔ Pages.IsPage lineKey (lines lower dbLower d c f) perPage p shown :=
  Iff.rfl

theorem totalPages_eq : totalPages lower dbLower d f = Pages.pageCount perPage (lines lower dbLower d c f).length := by
  have hlen : (lines lower dbLower d c f).length = totalCount lower dbLower d f := by
    unfold totalCount
    rw [← transactions_of_lines lower dbLower d c f, List.length_map]
  rw [hlen]
  rfl

theorem cutAfter_iff (page : ℕ) (k : WithTop ℤ) :
    CutAfter lower dbLower d f page k ↔ Pages.Cut lineKey (lines lower dbLower d c f) (page * perPage) k := by
  unfold CutAfter Pages.Cut
  rw [← transactions_of_lines lower dbLower d c f, List.countP_map, List.countP_map]
  rfl

/-- Lines shown are lines of the list. -/
theorem mem_lines_of_isPage {p : ℕ} {shown : List Line}
    (h : Pages.IsPage lineKey (lines lower dbLower d c f) perPage p shown) : shown ⊆ lines lower dbLower d c f := by
  obtain ⟨sorted, hsorted, rfl⟩ := h
  intro x hx
  exact hsorted.perm.mem_iff.1 (List.mem_of_mem_drop (List.mem_of_mem_take hx))

/-- The transactions of lines shown tell the lines. -/
theorem perm_lines_iff {shown : List Line} (h : shown ⊆ lines lower dbLower d c f) :
    (shown.map Line.transaction).Perm (kpiCounted lower dbLower d f) ↔ shown.Perm (lines lower dbLower d c f) := by
  rw [← transactions_of_lines lower dbLower d c f]
  constructor
  · intro hperm
    have hnodup := hperm.nodup_iff.2 (transactions_of_lines lower dbLower d c f ▸ nodup_kpiCounted lower dbLower d f)
    have hlen := hperm.length_eq
    rw [List.length_map, List.length_map] at hlen
    exact (List.subperm_of_subset hnodup.of_map h).perm_of_length_le hlen.ge
  · exact fun hperm => hperm.map _

theorem once_iff :
    (∀ pages : ℕ → List Line,
      (∀ page, 1 ≤ page → page ≤ totalPages lower dbLower d f → PageAnswer lower dbLower d c f page (pages page)) →
        (((List.range' 1 (totalPages lower dbLower d f)).flatMap pages).map Line.transaction).Perm
          (kpiCounted lower dbLower d f)) ↔
      ∀ page k, ¬ CutAfter lower dbLower d f page k := by
  simp only [cutAfter_iff lower dbLower d c f]
  rw [← Pages.pages_perm_iff (by decide) (nodup_lines lower dbLower d c f), ← totalPages_eq lower dbLower d c f]
  -- the pages of the list count from one
  have hshift : ∀ pages : ℕ → List Line, (List.range' 1 (totalPages lower dbLower d f)).flatMap pages =
      (List.range (totalPages lower dbLower d f)).flatMap fun p => pages (p + 1) := fun pages => by
    rw [List.range'_eq_map_range, List.flatMap_map]
    exact List.flatMap_congr fun p _ => by rw [Nat.add_comm]
  have hlines : ∀ pages : ℕ → List Line,
      (∀ p < totalPages lower dbLower d f, Pages.IsPage lineKey (lines lower dbLower d c f) perPage p (pages p)) →
        (List.range (totalPages lower dbLower d f)).flatMap pages ⊆ lines lower dbLower d c f := by
    intro pages hpages x hx
    obtain ⟨p, hp, hxp⟩ := List.mem_flatMap.1 hx
    exact mem_lines_of_isPage lower dbLower d c f (hpages p (List.mem_range.1 hp)) hxp
  constructor
  · intro hall pages hpages
    have hanswers : ∀ page, 1 ≤ page → page ≤ totalPages lower dbLower d f →
        PageAnswer lower dbLower d c f page (pages (page - 1)) := by
      intro page hone hlast
      obtain ⟨p, rfl⟩ := Nat.exists_eq_add_of_le' hone
      exact (pageAnswer_succ lower dbLower d c f p _).2 (hpages p hlast)
    have hperm := hall (fun page => pages (page - 1)) hanswers
    rw [hshift] at hperm
    exact (perm_lines_iff lower dbLower d c f (hlines pages hpages)).1 hperm
  · intro hall pages hanswers
    have hpages : ∀ p < totalPages lower dbLower d f,
        Pages.IsPage lineKey (lines lower dbLower d c f) perPage p (pages (p + 1)) := fun p hp =>
      (pageAnswer_succ lower dbLower d c f p _).1 (hanswers (p + 1) (Nat.le_add_left 1 p) hp)
    rw [hshift]
    exact (perm_lines_iff lower dbLower d c f (hlines _ hpages)).2 (hall _ hpages)

theorem full_of_pageAnswer {page : ℕ} {shown : List Line} (hone : 1 ≤ page) (hlast : page < totalPages lower dbLower d f)
    (h : PageAnswer lower dbLower d c f page shown) : shown.length = perPage := by
  obtain ⟨p, rfl⟩ := Nat.exists_eq_add_of_le' hone
  rw [totalPages_eq lower dbLower d c f] at hlast
  exact Pages.length_page (by decide) ((pageAnswer_succ lower dbLower d c f p shown).1 h) hlast

/-! ## When they show every movement once -/

/-- **The pages show every movement once** exactly when no page ends within transactions of one time. -/
theorem pages_show_once_iff :
    ShowsOnce lower dbLower d c f ↔ ∀ page k, ¬ CutAfter lower dbLower d f page k := by
  constructor
  · intro h
    exact (once_iff lower dbLower d c f).1 h.once
  · intro huncut
    exact {
      once := (once_iff lower dbLower d c f).2 huncut
      full := fun page shown hone hlast h => full_of_pageAnswer lower dbLower d c f hone hlast h
      empty := fun h => by
        unfold totalPages totalCount
        rw [h]
        rfl
    }

end

/-- What one import writes has one time. -/
def importedAtOnce : Data where
  transactions :=
    ⟨(List.range 26).map fun i => ⟨Int.ofNat i, some 1, "R", 10, some 3, some 0, some "HADR_IMPORT"⟩, by decide⟩
  items := imported.items
  warehouses := imported.warehouses

def shelter : Catalogue := ⟨⟨[⟨5, "Shelter"⟩], by decide⟩, ⟨[⟨"EA", "Each"⟩], by decide⟩, fun _ => "EA"⟩

/-- Page 2 may show what page 1 showed. -/
theorem imported_at_once_not_shown_once : ¬ ShowsOnce id id importedAtOnce shelter ⟨anything, []⟩ := fun h =>
  (once_iff id id importedAtOnce shelter ⟨anything, []⟩).1 h.once 1 (0 : ℤ) ⟨by decide +kernel, by decide +kernel⟩

end AidMovement

end Dmis
