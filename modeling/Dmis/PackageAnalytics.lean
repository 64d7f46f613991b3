import Dmis.Lib.Query
import Dmis.Schema

/-!
# Package analytics

The executive page about relief packages (`app/features/dashboard.py:788-856`, `:908-930`) counts packages by the type
of their agency and by agency, over a join with the items of the packages.

| here | there |
| --- | --- |
| `totalPackages`, `totalItems` | the figures at the top (`:804-818`) |
| `shipments` | the join of agency, package and item both charts are counted over; an inner join has no order |
| `packagesByType`, `destinationTypeData` | `:832-856` |
| `destinations`, `TopDestinations` | `:908-930`; among equal counts the database may take any order |

The quantities add up (`items_total`), but a package is counted once for each of its item rows. Main theorem
`counts_packages_iff`: the charts count packages exactly when no dispatched or received package has two.
-/

namespace Dmis

open Relational

namespace PackageAnalytics

structure Agency where
  agencyId : ℕ
  agencyName : String
  agencyType : String
  deriving DecidableEq, Repr

instance : Keyed Agency ℕ := ⟨Agency.agencyId⟩

structure Data where
  agencies : Table Agency
  packages : Table ReliefPkg
  items : Table ReliefPkgItem
  /-- `reliefpkg.agency_id` refers to an agency. -/
  agency_exists : ∀ p ∈ packages.rows, ∃ a ∈ agencies.rows, a.agencyId = p.agencyId

/-- `dispatched_statuses`. -/
def dispatched (p : ReliefPkg) : Bool := p.statusCode = .dispatched || p.statusCode = .received

/-! ## The page -/

def itemOf (p : ReliefPkg) (i : ReliefPkgItem) : Bool := p.reliefpkgId = i.reliefpkgId

def agencyOf (p : ReliefPkg) (a : Agency) : Bool := a.agencyId = p.agencyId

section
variable (d : Data)

def totalPackages : ℕ := (d.packages.select dispatched).length

def totalItems : ℚ :=
  (((join (fun i p => itemOf p i) d.items.rows d.packages.rows).filter fun x => dispatched x.2).map fun x => x.1.itemQty).sum

abbrev Shipment := (ReliefPkg × Agency) × Option ReliefPkgItem

def shipments : List Shipment :=
  (outerJoin (fun x i => itemOf x.1 i) (join agencyOf d.packages.rows d.agencies.rows) d.items.rows).filter fun x =>
    dispatched x.1.1

def quantity (rows : List Shipment) : ℚ := (rows.map fun x => (x.2.map ReliefPkgItem.itemQty).getD 0).sum

structure TypeRow where
  agencyType : String
  packageCount : ℕ
  totalItems : ℚ

def packagesByType : List TypeRow :=
  (groupBy (fun x => x.1.2.agencyType) (shipments d)).map fun g => ⟨g.1, g.2.length, quantity g.2⟩

def typeLabel : String → String
  | "SHELTER" => "Shelters"
  | "DISTRIBUTOR" => "Distributors"
  | "OTHER" => "Other"
  | "" => "Unknown"
  | t => t

structure Chart where
  labels : List String
  counts : List ℕ
  items : List ℚ

def destinationTypeData : Chart where
  labels := (packagesByType d).map fun t => typeLabel t.agencyType
  counts := (packagesByType d).map TypeRow.packageCount
  items := (packagesByType d).map TypeRow.totalItems

structure Destination where
  agency : Agency
  packageCount : ℕ
  totalItems : ℚ

def destinations : List Destination :=
  (groupBy (fun x => x.1.2) (shipments d)).map fun g => ⟨g.1, g.2.length, quantity g.2⟩

/-- The first ten of an order by `package_count` descending. -/
def TopDestinations (rows : List Destination) : Prop :=
  ∃ sorted : List Destination, sorted.Perm (destinations d) ∧
    sorted.Pairwise (fun x y => y.packageCount ≤ x.packageCount) ∧ rows = sorted.take 10

/-! ## What it should show -/

/-- The dispatched packages whose agency is one of these. -/
def packagesWhere (p : Agency → Bool) : List ReliefPkg :=
  (d.packages.select dispatched).filter fun pkg => (d.agencies.rows.filter p).any (agencyOf pkg)

/-- The items of these packages. -/
def quantityWhere (p : Agency → Bool) : ℚ :=
  ((d.items.select fun i => (packagesWhere d p).any fun pkg => itemOf pkg i).map ReliefPkgItem.itemQty).sum

structure CountsPackages : Prop where
  total : (destinationTypeData d).counts.sum = totalPackages d
  items : (destinationTypeData d).items.sum = totalItems d
  types : ∀ t ∈ packagesByType d, t.packageCount = (packagesWhere d fun a => a.agencyType = t.agencyType).length
  top : ∀ rows, TopDestinations d rows → ∀ t ∈ rows,
    t.packageCount = (packagesWhere d fun a => a = t.agency).length ∧ t.totalItems = quantityWhere d fun a => a = t.agency
  listed : ∀ rows, TopDestinations d rows → ∀ t ∈ rows, ∀ a ∈ d.agencies.rows, (∀ t' ∈ rows, t'.agency ≠ a) →
    (packagesWhere d fun b => b = a).length ≤ (packagesWhere d fun b => b = t.agency).length

/-- No package counts twice. -/
def OneItemEach : Prop := ∀ p ∈ d.packages.select dispatched, (d.items.rows.filter (itemOf p)).length ≤ 1

instance : Decidable (OneItemEach d) := by unfold OneItemEach; infer_instance

end

/-! ## Counting the join -/

section
variable {d : Data}

/-- The rows of some agencies. -/
theorem shipments_where (p : Agency → Bool) :
    (shipments d).filter (fun x => p x.1.2) =
      outerJoin (fun x i => itemOf x.1 i) (join agencyOf (d.packages.select dispatched) (d.agencies.rows.filter p))
        d.items.rows := by
  unfold shipments Table.select
  rw [filter_outerJoin fun x : ReliefPkg × Agency => dispatched x.1, filter_outerJoin fun x : ReliefPkg × Agency => p x.2]
  rw [filter_join_left, filter_join_right]

/-- `agency_id` is the key. -/
theorem agency_unique (p : Agency → Bool) (pkg : ReliefPkg) :
    ((d.agencies.rows.filter p).filter (agencyOf pkg)).length ≤ 1 := by
  have hkeys : ((d.agencies.rows.filter p).map Agency.agencyId).Nodup :=
    d.agencies.nodup.sublist (List.filter_sublist.map _)
  exact length_filter_key_le_one hkeys pkg.agencyId

/-- A package counts once for each item row, but at least once. -/
theorem length_shipments_where (p : Agency → Bool) :
    ((shipments d).filter fun x => p x.1.2).length =
      ((packagesWhere d p).map fun pkg => max 1 (d.items.rows.filter (itemOf pkg)).length).sum := by
  rw [shipments_where, length_outerJoin]
  exact sum_join_unique (fun pkg => max 1 (d.items.rows.filter (itemOf pkg)).length) fun pkg _ => agency_unique p pkg

theorem nodup_packagesWhere (p : Agency → Bool) : ((packagesWhere d p).map ReliefPkg.reliefpkgId).Nodup :=
  d.packages.nodup.sublist ((List.filter_sublist.trans List.filter_sublist).map _)

/-- The quantities are those of the items. -/
theorem quantity_shipments_where (p : Agency → Bool) :
    quantity ((shipments d).filter fun x => p x.1.2) = quantityWhere d p := by
  have hpackages : quantity ((shipments d).filter fun x => p x.1.2) =
      ((packagesWhere d p).map fun pkg => ((d.items.rows.filter (itemOf pkg)).map ReliefPkgItem.itemQty).sum).sum := by
    unfold quantity
    rw [shipments_where, sum_outerJoin]
    exact sum_join_unique (fun pkg => ((d.items.rows.filter (itemOf pkg)).map ReliefPkgItem.itemQty).sum) fun pkg _ =>
      agency_unique p pkg
  have hitems := sum_filter_mem (q := ReliefPkgItem.itemQty) (nodup_packagesWhere (d := d) p) d.items.rows
      (f := ReliefPkgItem.reliefpkgId)
  rw [List.map_map] at hitems
  rw [hpackages]
  calc ((packagesWhere d p).map fun pkg => ((d.items.rows.filter (itemOf pkg)).map ReliefPkgItem.itemQty).sum).sum
    _ = ((d.items.rows.filter fun i => i.reliefpkgId ∈ (packagesWhere d p).map ReliefPkg.reliefpkgId).map
          ReliefPkgItem.itemQty).sum := by
      rw [hitems]
      refine congrArg List.sum (List.map_congr_left fun pkg _ => ?_)
      unfold itemOf
      simp only [Function.comp_apply, eq_comm]
    _ = quantityWhere d p := by
      refine congrArg (fun l => (l.map ReliefPkgItem.itemQty).sum) (List.filter_congr fun i _ => ?_)
      unfold itemOf
      rw [Bool.eq_iff_iff, List.any_eq_true, decide_eq_true_eq, List.mem_map]
      simp only [decide_eq_true_eq]

/-- Every package has an agency. -/
theorem packagesWhere_all : packagesWhere d (fun _ => true) = d.packages.select dispatched := by
  unfold packagesWhere
  refine List.filter_eq_self.2 fun pkg hpkg => ?_
  obtain ⟨a, ha, he⟩ := d.agency_exists pkg (List.mem_of_mem_filter hpkg)
  refine List.any_eq_true.2 ⟨a, ?_, decide_eq_true he⟩
  exact List.mem_filter.2 ⟨ha, rfl⟩

theorem length_shipments :
    (shipments d).length =
      ((d.packages.select dispatched).map fun pkg => max 1 (d.items.rows.filter (itemOf pkg)).length).sum := by
  have h := length_shipments_where (d := d) fun _ => true
  rwa [packagesWhere_all, List.filter_true] at h

/-- **The item totals add up**, whatever the packages hold. -/
theorem items_total (d : Data) : (destinationTypeData d).items.sum = totalItems d := by
  have hone : ∀ i ∈ d.items.rows, (((d.packages.select dispatched).filter fun p => itemOf p i)).length ≤ 1 := fun i _ => by
    have hkeys : ((d.packages.select dispatched).map ReliefPkg.reliefpkgId).Nodup :=
      d.packages.nodup.sublist (List.filter_sublist.map _)
    exact length_filter_key_le_one hkeys i.reliefpkgId
  have hgroups : (destinationTypeData d).items.sum = quantity (shipments d) := by
    simp only [destinationTypeData, packagesByType, List.map_map]
    exact sum_groupBy (fun x : Shipment => x.1.2.agencyType) (fun x => (x.2.map ReliefPkgItem.itemQty).getD 0) (shipments d)
  have hall := quantity_shipments_where (d := d) fun _ => true
  rw [List.filter_true] at hall
  unfold totalItems
  rw [hgroups, hall, filter_join_right]
  unfold quantityWhere
  rw [packagesWhere_all]
  exact (sum_join_unique ReliefPkgItem.itemQty hone).symm

/-- The counts of a chart add up to the rows of the join. -/
theorem counts_total (d : Data) : (destinationTypeData d).counts.sum = (shipments d).length := by
  simp only [destinationTypeData, packagesByType, List.map_map]
  exact length_groupBy (fun x : Shipment => x.1.2.agencyType) (shipments d)

/-! ## The rows of the charts -/

theorem packagesByType_spec {t : TypeRow} (ht : t ∈ packagesByType d) :
    t.packageCount = ((shipments d).filter fun x => x.1.2.agencyType = t.agencyType).length := by
  unfold packagesByType at ht
  obtain ⟨g, hg, rfl⟩ := List.mem_map.1 ht
  exact congrArg List.length (mem_groupBy.1 hg).2

theorem destinations_spec {t : Destination} (ht : t ∈ destinations d) :
    t.packageCount = ((shipments d).filter fun x => x.1.2 = t.agency).length ∧
      t.totalItems = quantityWhere d fun a => a = t.agency := by
  unfold destinations at ht
  obtain ⟨g, hg, rfl⟩ := List.mem_map.1 ht
  have hrows := (mem_groupBy.1 hg).2
  constructor
  · exact congrArg List.length hrows
  · rw [← quantity_shipments_where]
    exact congrArg quantity hrows

/-- Every agency with a package is a destination. -/
theorem exists_destination {a : Agency} (ha : 0 < (packagesWhere d fun b => b = a).length) :
    ∃ t ∈ destinations d, t.agency = a := by
  have hrows : 0 < ((shipments d).filter fun x => x.1.2 = a).length := by
    rw [length_shipments_where fun b => b = a]
    obtain ⟨pkg, hpkg⟩ := List.exists_mem_of_length_pos ha
    have hone : 1 ≤ max 1 (d.items.rows.filter (itemOf pkg)).length := le_max_left ..
    have hmem := List.mem_map_of_mem (f := fun pkg => max 1 (d.items.rows.filter (itemOf pkg)).length) hpkg
    have hle := List.single_le_sum (fun _ _ => Nat.zero_le _) _ hmem
    exact lt_of_lt_of_le hone hle
  obtain ⟨x, hx⟩ := List.exists_mem_of_length_pos hrows
  obtain ⟨hx, he⟩ := List.mem_filter.1 hx
  refine ⟨⟨a, ((shipments d).filter fun x => x.1.2 = a).length, quantity ((shipments d).filter fun x => x.1.2 = a)⟩, ?_, rfl⟩
  unfold destinations
  refine List.mem_map.2 ⟨(a, (shipments d).filter fun x => x.1.2 = a), ?_, rfl⟩
  refine mem_groupBy.2 ⟨List.mem_map.2 ⟨x, hx, of_decide_eq_true he⟩, rfl⟩

/-- What is not among the first ten counts no more than what is. -/
theorem TopDestinations.le {rows : List Destination} (h : TopDestinations d rows) {t t' : Destination} (ht : t ∈ rows)
    (ht' : t' ∈ destinations d) (hout : t' ∉ rows) : t'.packageCount ≤ t.packageCount := by
  obtain ⟨sorted, hperm, hsorted, rfl⟩ := h
  have hmem : t' ∈ sorted.take 10 ++ sorted.drop 10 := by
    rw [List.take_append_drop]
    exact hperm.mem_iff.2 ht'
  have hdrop : t' ∈ sorted.drop 10 := (List.mem_append.1 hmem).resolve_left hout
  rw [← List.take_append_drop 10 sorted, List.pairwise_append] at hsorted
  exact hsorted.2.2 t ht t' hdrop

theorem TopDestinations.subset {rows : List Destination} (h : TopDestinations d rows) {t : Destination} (ht : t ∈ rows) :
    t ∈ destinations d := by
  obtain ⟨sorted, hperm, -, rfl⟩ := h
  exact hperm.mem_iff.1 (List.mem_of_mem_take ht)

/-- With one item row each, a package counts once. -/
theorem OneItemEach.length_where (h : OneItemEach d) (p : Agency → Bool) :
    ((shipments d).filter fun x => p x.1.2).length = (packagesWhere d p).length := by
  rw [length_shipments_where]
  refine (sum_max_one_iff fun pkg => (d.items.rows.filter (itemOf pkg)).length).2 fun pkg hpkg => ?_
  exact h pkg (List.mem_of_mem_filter hpkg)

end

/-- **The charts count packages exactly when no package counts twice.** -/
theorem counts_packages_iff (d : Data) : CountsPackages d ↔ OneItemEach d := by
  have hcounts := counts_total d
  rw [length_shipments] at hcounts
  constructor
  · intro h
    have htotal := h.total
    rw [hcounts] at htotal
    exact (sum_max_one_iff fun pkg => (d.items.rows.filter (itemOf pkg)).length).1 htotal
  · intro h
    have hdest : ∀ t ∈ destinations d, t.packageCount = (packagesWhere d fun a => a = t.agency).length := fun t ht => by
      rw [(destinations_spec ht).1]
      exact h.length_where fun a => a = t.agency
    refine ⟨?total, items_total d, ?types, ?top, ?listed⟩
    case total =>
      rw [hcounts]
      exact (sum_max_one_iff fun pkg => (d.items.rows.filter (itemOf pkg)).length).2 h
    case types =>
      intro t ht
      rw [packagesByType_spec ht]
      exact h.length_where fun a => a.agencyType = t.agencyType
    case top =>
      intro rows hrows t ht
      have ht := hrows.subset ht
      exact ⟨hdest t ht, (destinations_spec ht).2⟩
    case listed =>
      intro rows hrows t ht a _ hout
      rcases Nat.eq_zero_or_pos (packagesWhere d fun b => b = a).length with h0 | hpos
      · rw [h0]
        exact Nat.zero_le _
      · obtain ⟨t', ht', rfl⟩ := exists_destination hpos
        rw [← hdest t' ht', ← hdest t (hrows.subset ht)]
        refine hrows.le ht ht' fun hin => ?_
        exact hout t' hin rfl

/-- One dispatched package of 40 units out of one batch and 20 out of another. -/
def splitPackage : Data where
  agencies := ⟨[⟨7, "Portmore Shelter", "SHELTER"⟩], by decide⟩
  packages := ⟨[⟨1, 1, 7, .dispatched, some 100, "LO1", "LO1", some "LM1", some "AG1", none, 1⟩], by decide⟩
  items := ⟨[⟨1, 1, 11, 5, 40, "UNIT"⟩, ⟨1, 1, 12, 5, 20, "UNIT"⟩], by decide⟩
  agency_exists := by decide

/-- Under the one package at the top the chart shows two. -/
theorem split_counts_twice : ¬CountsPackages splitPackage := by
  intro h
  have htotal : (destinationTypeData splitPackage).counts.sum = 1 := h.total
  exact absurd htotal (by decide)

end PackageAnalytics

end Dmis
