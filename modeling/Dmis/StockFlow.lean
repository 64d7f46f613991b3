import Dmis.Conservation
import Dmis.IntakePosting

/-!
# What comes in and what goes out

The packaging pages and the intake pages write the same batches and totals. `Depot` has the tables of both, and a post of
either is one transaction on it.

| here | there |
| --- | --- |
| `DepotOp.packaging` | the routes of `requests`, `eligibility` and `packaging` (`Operations`) |
| `DepotOp.intake` | `intake_form`, `verify_intake` (`donation_intake.py:200-238`, `:593-630`) |
| `Depot.sentOut` | `reliefpkg_item` of the dispatched packages |
| `Depot.takenIn` | `dnintake_item` with status V |

What verified intakes brought to a warehouse is there, or has gone out with a package (`goods_accounted`), and the
reservations stay covered all the while. This holds while packaging posts are careful, intake posts type no more than eight
decimals and verifications post cents: the batches have four decimals, the totals and the intakes two.
-/

namespace Dmis

open Relational Keyed

/-! ## The whole store -/

structure Depot where
  tables : Tables
  donation : Table Donation
  donationItem : Table DonationItem
  dnintake : Table DonationIntake
  dnintakeItem : Table DonationIntakeItem
  nextBatchId : Nat
  deriving DecidableEq

/-- What the intake pages see. -/
def Depot.intake (d : Depot) : IntakeTables :=
  ⟨d.donation, d.donationItem, d.dnintake, d.dnintakeItem, d.tables.itembatch, d.tables.inventory, d.nextBatchId⟩

def Depot.setIntake (d : Depot) (t : IntakeTables) : Depot :=
  { tables := { d.tables with itembatch := t.itembatch, inventory := t.inventory }
    donation := t.donation
    donationItem := t.donationItem
    dnintake := t.dnintake
    dnintakeItem := t.dnintakeItem
    nextBatchId := t.nextBatchId }

structure Depot.Consistent (d : Depot) : Prop where
  tables : d.tables.Consistent
  intake : d.intake.Consistent

instance (d : Depot) : Decidable d.Consistent :=
  decidable_of_iff (d.tables.Consistent ∧ d.intake.Consistent) ⟨fun h => ⟨h.1, h.2⟩, fun h => ⟨h.tables, h.intake⟩⟩

structure DepotDb where
  depot : Depot
  consistent : depot.Consistent

def DepotDb.packaging (db : DepotDb) : Database := ⟨db.depot.tables, db.consistent.tables⟩
def DepotDb.intakes (db : DepotDb) : IntakeDb := ⟨db.depot.intake, db.consistent.intake⟩

inductive DepotOp where
  | packaging (op : Op)
  | intake (ctx : IntakeCtx) (donationId : Nat) (op : IntakeOp)

/-- What a post leaves to the commit, if it gets there. -/
def DepotOp.route : DepotOp → Depot → Option Depot
  | .packaging op, d => (op.route d.tables).toOption.map fun t => { d with tables := t.rounded }
  | .intake ctx donationId op, d => (op.route ctx donationId d.intake).toOption.map fun t => d.setIntake t.rounded

def depotStep (db : DepotDb) (op : DepotOp) : DepotDb :=
  match op.route db.depot with
  | some d => if h : d.Consistent then ⟨d, h⟩ else db
  | none => db

/-! ## The account of an item at a warehouse -/

def Depot.inStock (d : Depot) (s : StockKey) : ℚ := batchSum d.tables.itembatch s ItemBatch.usableQty

def Depot.sentOut (d : Depot) (s : StockKey) : ℚ := batchSum d.tables.itembatch s fun b => d.tables.dispatched b.key

def DonationIntakeItem.stock (i : DonationIntakeItem) : StockKey := ⟨i.itemId, i.inventoryId⟩

/-- What an item of an intake has brought. -/
def DonationIntakeItem.taken (i : DonationIntakeItem) : ℚ := if i.statusCode = .verified then i.qty.usable else 0

def Depot.takenIn (d : Depot) (s : StockKey) : ℚ :=
  d.dnintakeItem.sum (fun i => decide (i.stock = s)) DonationIntakeItem.taken

/-- An item of an intake, whatever its batch number. -/
def DonationIntakeItem.line (i : DonationIntakeItem) : Nat × Nat × Nat := (i.donationId, i.inventoryId, i.itemId)

/-- Every intake has an item once, and verified items only when it is verified itself. -/
structure IntakeTables.Orderly (t : IntakeTables) : Prop where
  once : (t.dnintakeItem.rows.map DonationIntakeItem.line).Nodup
  verified : ∀ i ∈ t.dnintakeItem.rows, i.statusCode = .verified →
    ∀ n ∈ t.dnintake.get? (i.donationId, i.inventoryId), n.statusCode = .verified

instance (t : IntakeTables) : Decidable t.Orderly :=
  decidable_of_iff ((t.dnintakeItem.rows.map DonationIntakeItem.line).Nodup ∧
    ∀ i ∈ t.dnintakeItem.rows, i.statusCode = .verified →
      ∀ n ∈ t.dnintake.get? (i.donationId, i.inventoryId), n.statusCode = .verified)
    ⟨fun h => ⟨h.1, h.2⟩, fun h => ⟨h.once, h.verified⟩⟩

/-- The post keeps out of what breaks the ledger, nobody types more than eight decimals for an intake, and a verification
posts cents. -/
def DepotOp.Sound (db : DepotDb) : DepotOp → Prop
  | .packaging op => Careful db.packaging op
  | .intake ctx donationId (.entry today inventoryId form) =>
    (IntakeOp.entry today inventoryId form).Decimals 8 ctx donationId db.depot.intake
  | .intake ctx donationId (.verify today inventoryId form) =>
    (IntakeOp.verify today inventoryId form).Decimals 8 ctx donationId db.depot.intake ∧
      ((db.intakes.exec ctx donationId (.verify today inventoryId form)).isOk →
        PostsCents form donationId inventoryId db.depot.intake)

section
variable {db : DepotDb} {d : Depot} {ctx : IntakeCtx} {donationId inventoryId : Nat} {today : Day} {t t' : IntakeTables}
  {v : VerifiedItem} {vs : List VerifiedItem} {i : DonationIntakeItem} {s : StockKey}

/-! ## One post -/

theorem toOption_eq_some {ε α : Type} {x : Except ε α} {a : α} : x.toOption = some a ↔ x = .ok a := by
  cases x <;> simp [Except.toOption]

theorem depotStep_cases (db : DepotDb) (op : DepotOp) :
    depotStep db op = db ∨ ∃ d, op.route db.depot = some d ∧ d.Consistent ∧ (depotStep db op).depot = d := by
  unfold depotStep
  split
  · rename_i d hr
    split_ifs with hc
    · exact .inr ⟨d, hr, hc, rfl⟩
    · exact .inl rfl
  · exact .inl rfl

theorem depotStep_packaging (db : DepotDb) (op : Op) : depotStep db (.packaging op) = db ∨
    (depotStep db (.packaging op)).depot = { db.depot with tables := (step db.packaging op).tables } := by
  rcases depotStep_cases db (.packaging op) with h | ⟨d, hr, hc, hd⟩
  · exact .inl h
  · obtain ⟨t, ht, rfl⟩ := Option.map_eq_some_iff.1 hr
    have ht := toOption_eq_some.1 ht
    have hcommits : Commits db.packaging op := ⟨⟨t.rounded, hc.tables⟩, exec_ok.2 ⟨t, ht, hc.tables, rfl⟩⟩
    obtain ⟨t', ht', -, he⟩ := step_of_commits hcommits
    obtain rfl : t = t' := Except.ok.inj (ht.symm.trans ht')
    rw [hd, he]
    exact .inr rfl

theorem depotStep_intake (db : DepotDb) (ctx : IntakeCtx) (donationId : Nat) (op : IntakeOp) :
    depotStep db (.intake ctx donationId op) = db ∨
    ∃ t db', op.route ctx donationId db.depot.intake = .ok t ∧ db.intakes.exec ctx donationId op = .ok db' ∧
      db'.tables = t.rounded ∧ (depotStep db (.intake ctx donationId op)).depot = db.depot.setIntake t.rounded := by
  rcases depotStep_cases db (.intake ctx donationId op) with h | ⟨d, hr, hc, hd⟩
  · exact .inl h
  · obtain ⟨t, ht, rfl⟩ := Option.map_eq_some_iff.1 hr
    have ht := toOption_eq_some.1 ht
    have hintake : t.rounded.Consistent := hc.intake
    exact .inr ⟨t, ⟨t.rounded, hintake⟩, ht, exec_intake_ok.2 ⟨t, ht, hintake, rfl⟩, rfl, hd⟩

/-! ## Rows of an intake -/

theorem taken_of_not (h : i.statusCode ≠ .verified) : i.taken = 0 := if_neg h

@[simp] theorem stored_taken (i : DonationIntakeItem) : i.stored.taken = numeric 2 i.taken := by
  by_cases h : i.statusCode = .verified <;>
    simp [DonationIntakeItem.taken, DonationIntakeItem.stored, Received.rounded, h, numeric_zero]

/-- What is taken in once the rows are stored. -/
theorem takenIn_rounded (t : IntakeTables) (s : StockKey) :
    (d.setIntake t.rounded).takenIn s =
      t.dnintakeItem.sum (fun i => decide (i.stock = s)) fun i => numeric 2 i.taken := by
  refine (Table.sum_mapRows key_stored_intakeItem DonationIntakeItem.taken).trans ?_
  simp only [stored_taken]
  rfl

/-- Stored rows are taken in as they are. -/
theorem takenIn_stored (hc : d.intake.Consistent) (s : StockKey) :
    d.takenIn s = d.dnintakeItem.sum (fun i => decide (i.stock = s)) fun i => numeric 2 i.taken := by
  have hrows : ∀ i ∈ d.dnintakeItem.rows, i.stored = i :=
    Table.eq_of_mapRows key_stored_intakeItem (congrArg IntakeTables.dnintakeItem hc.stored)
  unfold Depot.takenIn Table.sum Table.select
  refine congrArg List.sum (List.map_congr_left fun i hi => ?_)
  rw [← stored_taken, hrows i (List.mem_filter.1 hi).1]

/-- What an entry leaves of the intakes: its own rows, which are pending. -/
structure EntryRows (donationId inventoryId : Nat) (t t' : IntakeTables) (n : DonationIntake)
    (rows : List DonationIntakeItem) : Prop where
  open_before : ∀ n ∈ t.dnintake.get? (donationId, inventoryId), n.statusCode ≠ .verified
  open_after : key n = (donationId, inventoryId) ∧ n.statusCode ≠ .verified
  dnintake : t'.dnintake = t.dnintake.upsert n
  items : t'.dnintakeItem.rows =
    (t.dnintakeItem.deleteWhere fun i => i.donationId = donationId ∧ i.inventoryId = inventoryId).rows ++ rows
  own : ∀ r ∈ rows, r.donationId = donationId ∧ r.inventoryId = inventoryId ∧ r.statusCode = .pending
  once : (rows.map (·.itemId)).Nodup
  itembatch : t'.itembatch = t.itembatch
  inventory : t'.inventory = t.inventory

theorem intakeForm_rows {form : EntryForm} (h : intakeForm ctx today donationId inventoryId form t = .ok t') :
    ∃ n rows, EntryRows donationId inventoryId t t' n rows := by
  obtain ⟨-, rows', hleft, -⟩ := intakeForm_ok h
  simp only [intakeForm, processEntry, bind_ok, require_ok, check_ok, pure_ok] at h
  obtain ⟨donation, -, allowed, -, -, -, -, -, -, hopen, -, -, rows, hrows, items, hins, rfl⟩ := h
  obtain ⟨-, hkeys, hfrom, -⟩ := rows_ok hrows
  have hitems := Table.rows_insertAll hins
  have hsame : rows = rows' := by
    rw [← hleft.items]
    simp only [IntakeTables.intakeItems, Table.select, hitems, List.filter_append]
    have hown : rows.filter (fun r => decide (r.donationId = donationId ∧ r.inventoryId = inventoryId)) = rows :=
      List.filter_eq_self.2 fun r hr => decide_eq_true (hkeys r hr)
    have hothers : (t.dnintakeItem.deleteWhere fun i => i.donationId = donationId ∧ i.inventoryId = inventoryId).rows.filter
        (fun r => decide (r.donationId = donationId ∧ r.inventoryId = inventoryId)) = [] := by
      refine List.filter_eq_nil_iff.2 fun r hr hp => ?_
      have hout := (List.mem_filter.1 hr).2
      simp only [hp, Bool.not_true] at hout
      cases hout
    rw [hown, hothers, List.nil_append]
  refine ⟨_, rows, hopen, ⟨rfl, ?_⟩, rfl, hitems, fun r hr => ?_, ?_, rfl, rfl⟩
  · dsimp only
    split_ifs <;> simp
  · obtain ⟨e, -, he⟩ := hfrom r hr
    obtain ⟨hd, hi, -, -⟩ := row?_ok he
    simp only [IntakeEntry.row?, Option.bind_eq_bind, Option.bind_eq_some_iff, Option.pure_def, Option.some.injEq] at he
    obtain ⟨_, -, _, -, _, -, _, -, rfl⟩ := he
    exact ⟨hd, hi, rfl⟩
  · rw [hsame, hleft.itemIds]
    exact nodup_goodsItems t ctx donationId

theorem IntakeTables.Orderly.rounded (h : t.Orderly) : t.rounded.Orderly := by
  constructor
  · have hline : (t.dnintakeItem.rows.map DonationIntakeItem.stored).map DonationIntakeItem.line =
        t.dnintakeItem.rows.map DonationIntakeItem.line := by
      rw [List.map_map]
      rfl
    exact hline ▸ h.once
  · intro i hi
    obtain ⟨j, hj, rfl⟩ := List.mem_map.1 hi
    exact h.verified j hj

/-- **An entry takes nothing in.** -/
theorem EntryRows.taken {n : DonationIntake} {rows : List DonationIntakeItem}
    (h : EntryRows donationId inventoryId t t' n rows) (ho : t.Orderly) (hc : t.Consistent) (s : StockKey) :
    t'.dnintakeItem.sum (fun i => decide (i.stock = s)) (fun i => numeric 2 i.taken) =
      t.dnintakeItem.sum (fun i => decide (i.stock = s)) fun i => numeric 2 i.taken := by
  rw [← Table.sum_deleteWhere (t := t.dnintakeItem)
    (q := fun i => decide (i.donationId = donationId ∧ i.inventoryId = inventoryId))]
  · have hnew : ((rows.filter fun i => decide (i.stock = s)).map fun i => numeric 2 i.taken).sum = 0 := by
      refine List.sum_eq_zero fun q hq => ?_
      obtain ⟨i, hi, rfl⟩ := List.mem_map.1 hq
      have hpending := (h.own i (List.mem_filter.1 hi).1).2.2
      rw [taken_of_not (by simp [hpending]), numeric_zero]
    simp only [Table.sum, Table.select, h.items, List.filter_append, List.map_append, List.sum_append, hnew, add_zero]
  · intro i hi hq
    obtain ⟨rfl, rfl⟩ := of_decide_eq_true hq
    obtain ⟨m, hm, hkey⟩ := List.mem_map.1 (hc.fkIntake i hi)
    have hget : t.dnintake.get? (i.donationId, i.inventoryId) = some m := hkey ▸ Table.get?_key hm
    have hnot : i.statusCode ≠ .verified := fun hv => h.open_before m hget (ho.verified i hi hv m hget)
    rw [taken_of_not hnot, numeric_zero]

theorem EntryRows.orderly {n : DonationIntake} {rows : List DonationIntakeItem}
    (h : EntryRows donationId inventoryId t t' n rows) (ho : t.Orderly) : t'.Orderly := by
  have hother : ∀ i ∈ (t.dnintakeItem.deleteWhere fun i => i.donationId = donationId ∧ i.inventoryId = inventoryId).rows,
      i ∈ t.dnintakeItem.rows ∧ (donationId, inventoryId) ≠ (i.donationId, i.inventoryId) := by
    intro i hi
    obtain ⟨hm, hout⟩ := List.mem_filter.1 hi
    simp only [Bool.not_eq_true', decide_eq_false_iff_not] at hout
    refine ⟨hm, fun he => hout ?_⟩
    simp only [Prod.mk.injEq] at he
    exact ⟨he.1.symm, he.2.symm⟩
  constructor
  · rw [h.items, List.map_append, List.nodup_append']
    refine ⟨ho.once.sublist (List.filter_sublist.map _), ?_, ?_⟩
    · refine List.Nodup.of_map (fun l : Nat × Nat × Nat => l.2.2) ?_
      rw [List.map_map]
      exact h.once
    · intro l hl hl'
      obtain ⟨i, hi, rfl⟩ := List.mem_map.1 hl
      obtain ⟨r, hr, he⟩ := List.mem_map.1 hl'
      obtain ⟨hd, hw, -⟩ := h.own r hr
      simp only [DonationIntakeItem.line, Prod.mk.injEq, hd, hw] at he
      exact (hother i hi).2 (Prod.ext he.1 he.2.1)
  · intro i hi hv m hm
    rw [h.items, List.mem_append] at hi
    rcases hi with hi | hi
    · obtain ⟨hi, hne⟩ := hother i hi
      rw [h.dnintake, Table.get?_upsert, h.open_after.1, if_neg hne] at hm
      exact ho.verified i hi hv m hm
    · rw [(h.own i hi).2.2] at hv
      cases hv

/-! ## Rows of a verification -/

theorem taken_verifiedRow (v : VerifiedItem) : v.verifiedRow.taken = v.qty.usable := if_pos rfl

/-- What posting some items does to the rows of the intakes. -/
structure PostedRows (vs : List VerifiedItem) (t t' : IntakeTables) : Prop where
  dnintake : t'.dnintake = t.dnintake
  once : (t'.dnintakeItem.rows.map DonationIntakeItem.line).Nodup
  rows : ∀ i ∈ t'.dnintakeItem.rows, i ∈ t.dnintakeItem.rows ∨ ∃ v ∈ vs, i = v.verifiedRow
  others : ∀ i ∈ t.dnintakeItem.rows, (∀ v ∈ vs, v.row.line ≠ i.line) → i ∈ t'.dnintakeItem.rows
  taken : ∀ s, t'.dnintakeItem.sum (fun i => decide (i.stock = s)) (fun i => numeric 2 i.taken) =
    t.dnintakeItem.sum (fun i => decide (i.stock = s)) (fun i => numeric 2 i.taken) +
      (vs.map fun v => if v.row.stock = s then numeric 2 v.qty.usable else 0).sum

theorem postItem_postedRows (hn : (t.dnintakeItem.rows.map DonationIntakeItem.line).Nodup) (hv : v.row ∈ t.dnintakeItem.rows)
    (hopen : v.row.statusCode ≠ .verified) (h : postItem v t = .ok t') : PostedRows [v] t t' := by
  simp only [postItem, bind_ok, require_ok, pure_ok] at h
  obtain ⟨items, hitems, rfl⟩ := h
  have hkey_line : ∀ {i j : DonationIntakeItem}, key i = key j → i.line = j.line := by
    intro i j he
    exact congrArg (fun k : Nat × Nat × Nat × String => (k.1, k.2.1, k.2.2.1)) he
  have hnone : numeric 2 v.row.taken = 0 := by rw [taken_of_not hopen, numeric_zero]
  unfold VerifiedItem.rewrite at hitems
  split_ifs at hitems with hno
  · -- the row is deleted and added again
    obtain ⟨hfresh, hrows⟩ := Table.insert_eq_some.1 hitems
    have hgone : ∀ i ∈ (t.dnintakeItem.deleteWhere fun i => key i = key v.row).rows,
        i ∈ t.dnintakeItem.rows ∧ i.line ≠ v.row.line := by
      intro i hi
      obtain ⟨hm, hne⟩ := List.mem_filter.1 hi
      simp only [Bool.not_eq_true', decide_eq_false_iff_not] at hne
      exact ⟨hm, fun he => hne (congrArg key (List.inj_on_of_nodup_map hn hm hv he))⟩
    refine ⟨rfl, ?_, fun i hi => ?_, fun i hi hne => ?_, fun s => ?_⟩
    · show (items.rows.map DonationIntakeItem.line).Nodup
      rw [hrows, List.map_append, List.nodup_append']
      refine ⟨hn.sublist (List.filter_sublist.map _), List.nodup_singleton _, ?_⟩
      intro l hl hl'
      obtain ⟨i, hi, rfl⟩ := List.mem_map.1 hl
      exact (hgone i hi).2 (List.mem_singleton.1 hl')
    · have hi : i ∈ items.rows := hi
      rw [hrows, List.mem_append, List.mem_singleton] at hi
      exact hi.imp (fun h => (hgone i h).1) fun h => ⟨v, by simp, h⟩
    · show i ∈ items.rows
      rw [hrows, List.mem_append]
      refine .inl (List.mem_filter.2 ⟨hi, ?_⟩)
      have hline := hne v (by simp)
      simpa using fun he : key i = key v.row => hline (hkey_line he).symm
    · rw [List.map_singleton, List.sum_singleton]
      have hsum := Table.sum_insert hitems (p := fun i => decide (i.stock = s)) fun i => numeric 2 i.taken
      rw [Table.sum_deleteWhere fun i hi he => ?_] at hsum
      · simp only [taken_verifiedRow, decide_eq_true_eq] at hsum
        exact hsum
      · have hsame : i = v.row := List.inj_on_of_nodup_map hn hi hv (hkey_line (of_decide_eq_true he))
        rw [hsame, hnone]
  · obtain rfl := Option.some.inj hitems
    have hkey : key v.verifiedRow = key v.row := by
      show (v.row.donationId, v.row.inventoryId, v.row.itemId, v.batchNo) =
        (v.row.donationId, v.row.inventoryId, v.row.itemId, v.row.batchNo)
      rw [not_not.1 hno]
    refine ⟨rfl, ?_, fun i hi => ?_, fun i hi hne => ?_, fun s => ?_⟩
    · have hlines : ∀ u : Table DonationIntakeItem, u.rows.map DonationIntakeItem.line =
          u.keys.map fun k => (k.1, k.2.1, k.2.2.1) := by
        intro u
        rw [Table.keys, List.map_map]
        rfl
      show ((t.dnintakeItem.set v.verifiedRow).rows.map DonationIntakeItem.line).Nodup
      rw [hlines, Table.keys_set, ← hlines]
      exact hn
    · exact (Table.mem_set hi).elim (fun h => .inr ⟨v, by simp, h⟩) fun h => .inl h.1
    · have hne' : key v.verifiedRow ≠ key i := fun he => hne v (by simp) (hkey_line (hkey.symm.trans he))
      have hget : (t.dnintakeItem.set v.verifiedRow).get? (key i) = some i := by
        rw [Table.get?_set_of_ne hne']
        exact Table.get?_key hi
      exact Table.mem_of_get? hget
    · rw [List.map_singleton, List.sum_singleton]
      have hsum := Table.sum_set hv hkey (p := fun i => decide (i.stock = s)) fun i => numeric 2 i.taken
      simp only [hnone, taken_verifiedRow, decide_eq_true_eq, ite_self, sub_zero] at hsum
      exact hsum

/-- **The loop of a verification** turns each of its rows into a verified one. -/
theorem postItems_postedRows : ∀ {vs : List VerifiedItem} {t t' : IntakeTables},
    (t.dnintakeItem.rows.map DonationIntakeItem.line).Nodup →
    (∀ v ∈ vs, v.row ∈ t.dnintakeItem.rows ∧ v.row.statusCode ≠ .verified) →
    (vs.map fun v => v.row.line).Nodup → postItems vs t = .ok t' → PostedRows vs t t'
  | [], t, t', hn, _, _, h => by
    cases h
    exact ⟨rfl, hn, fun i hi => .inl hi, fun i hi _ => hi, by simp⟩
  | v :: vs, t, t', hn, hrows, hd, h => by
    simp only [postItems, bind_ok] at h
    obtain ⟨t₁, h₁, h⟩ := h
    rw [List.map_cons, List.nodup_cons] at hd
    obtain ⟨hv, hopen⟩ := hrows v (by simp)
    have hfirst := postItem_postedRows hn hv hopen h₁
    have hnext : ∀ w ∈ vs, w.row ∈ t₁.dnintakeItem.rows ∧ w.row.statusCode ≠ .verified := by
      intro w hw
      obtain ⟨hm, hw'⟩ := hrows w (by simp [hw])
      refine ⟨hfirst.others _ hm fun u hu => ?_, hw'⟩
      rw [List.mem_singleton.1 hu]
      exact fun he => hd.1 (he ▸ List.mem_map_of_mem (f := fun v : VerifiedItem => v.row.line) hw)
    have hrest := postItems_postedRows hfirst.once hnext hd.2 h
    refine ⟨hrest.dnintake.trans hfirst.dnintake, hrest.once, fun i hi => ?_, fun i hi hne => ?_, fun s => ?_⟩
    · rcases hrest.rows i hi with hi | ⟨w, hw, rfl⟩
      · rcases hfirst.rows i hi with hi | ⟨w, hw, rfl⟩
        · exact .inl hi
        · exact .inr ⟨w, by simp [List.mem_singleton.1 hw], rfl⟩
      · exact .inr ⟨w, by simp [hw], rfl⟩
    · refine hrest.others i (hfirst.others i hi fun w hw => ?_) fun w hw => hne w (by simp [hw])
      exact hne w (by simp [List.mem_singleton.1 hw])
    · rw [hrest.taken, hfirst.taken, List.map_singleton, List.sum_singleton, List.map_cons, List.sum_cons, add_assoc]

/-- **What a verification takes in** is what its items bring, and its rows are verified with it. -/
structure TakenIn (ctx : IntakeCtx) (donationId : Nat) (today : Day) (inventoryId : Nat) (form : Nat → VerifyField)
    (vs : List VerifiedItem) (t t' : IntakeTables) : Prop where
  committed : Committed ctx donationId today inventoryId form vs t t'.rounded
  orderly : t'.Orderly
  taken : ∀ s, t'.dnintakeItem.sum (fun i => decide (i.stock = s)) (fun i => numeric 2 i.taken) =
    t.dnintakeItem.sum (fun i => decide (i.stock = s)) (fun i => numeric 2 i.taken) +
      (vs.map fun v => if v.row.stock = s then (v.qty.rounded 2).usable else 0).sum

theorem nodup_intakeItems (ho : t.Orderly) (donationId inventoryId : Nat) :
    ((t.intakeItems donationId inventoryId).map (·.itemId)).Nodup := by
  have hlines : ((t.intakeItems donationId inventoryId).map DonationIntakeItem.line).Nodup :=
    ho.once.sublist (List.filter_sublist.map _)
  refine List.Nodup.map_on (fun i hi j hj he => ?_) hlines.of_map
  obtain ⟨hi, hpi⟩ := List.mem_filter.1 hi
  obtain ⟨hj, hpj⟩ := List.mem_filter.1 hj
  simp only [decide_eq_true_eq] at hpi hpj
  refine List.inj_on_of_nodup_map ho.once hi hj ?_
  rw [DonationIntakeItem.line, DonationIntakeItem.line, hpi.1, hpi.2, hpj.1, hpj.2, he]

/-- Two lists that both have what is verified of every item are the same but for their order. -/
theorem Committed.perm {form : Nat → VerifyField} {ws : List VerifiedItem} {t₁ t₂ : IntakeTables}
    (hvs : Committed ctx donationId today inventoryId form vs t t')
    (hws : VerifyRun ctx donationId today inventoryId form ws t t₁ t₂)
    (hn : ((t.intakeItems donationId inventoryId).map (·.itemId)).Nodup) : vs.Perm ws := by
  have hdistinct : (ws.map fun v => v.row.itemId).Nodup := hws.itemIds ▸ hn
  refine (List.perm_ext_iff_of_nodup (hvs.distinct.of_map) hdistinct.of_map).2 fun v => ⟨fun hv => ?_, fun hv => ?_⟩
  · obtain ⟨i, hi, hiv⟩ := hvs.verified v hv
    obtain ⟨w, hw, hiw⟩ := hws.all hn hi
    rwa [Except.ok.inj (hiv.symm.trans hiw)]
  · obtain ⟨i, hi, hiv⟩ := hws.verified v hv
    obtain ⟨w, hw, hiw⟩ := hvs.all i hi
    rwa [Except.ok.inj (hiv.symm.trans hiw)]

theorem verifyIntake_takenIn {form : Nat → VerifyField} {db db' : IntakeDb} (ho : db.tables.Orderly)
    (hroute : verifyIntake ctx today donationId inventoryId form db.tables = .ok t')
    (hexec : db.exec ctx donationId (.verify today inventoryId form) = .ok db') (hdb : db'.tables = t'.rounded) :
    ∃ vs, TakenIn ctx donationId today inventoryId form vs db.tables t' := by
  have hn := nodup_intakeItems ho donationId inventoryId
  obtain ⟨vs, hvs⟩ := exec_verify_ok hn hexec
  rw [hdb] at hvs
  simp only [verifyIntake, processVerification, bind_ok, require_ok, check_ok, pure_ok] at hroute
  obtain ⟨intake, hin, -, hcompleted, donation, hdon, -, herr, t₁, hpost, rfl⟩ := hroute
  have hkey : key intake = (donationId, inventoryId) := Table.key_of_get? hin
  obtain rfl : intake.donationId = donationId := congrArg Prod.fst hkey
  obtain rfl : intake.inventoryId = inventoryId := congrArg Prod.snd hkey
  generalize hws : oks ((db.tables.intakeItems intake.donationId intake.inventoryId).map
    (verifyItem ctx today db.tables form)) = ws at hpost
  have hrun : VerifyRun ctx intake.donationId today intake.inventoryId form ws db.tables t₁
      { t₁ with donation := t₁.donation.set { donation with statusCode := .processed } } :=
    ⟨fun v hv => List.mem_map.1 (mem_oks.1 (hws ▸ hv)), fun hg => hws ▸ map_oks hg herr, ⟨_, hpost⟩, donation, hdon, rfl⟩
  have hrow : ∀ v ∈ ws, v.row ∈ db.tables.dnintakeItem.rows ∧ v.row.donationId = intake.donationId ∧
      v.row.inventoryId = intake.inventoryId := by
    intro v hv
    obtain ⟨i, hi, hiv⟩ := hrun.verified v hv
    rw [(verifyItem_ok hiv).1]
    obtain ⟨hm, hp⟩ := List.mem_filter.1 hi
    exact ⟨hm, of_decide_eq_true hp⟩
  have hopen : ∀ v ∈ ws, v.row.statusCode ≠ .verified := by
    intro v hv hver
    obtain ⟨hm, hd, hw⟩ := hrow v hv
    have hintake := ho.verified v.row hm hver intake (by rw [hd, hw]; exact hin)
    rw [hcompleted] at hintake
    cases hintake
  have hlines : (ws.map fun v => v.row.line).Nodup := by
    refine List.Nodup.of_map (fun l : Nat × Nat × Nat => l.2.2) ?_
    rw [List.map_map]
    exact hrun.itemIds ▸ hn
  have hposted : PostedRows ws { db.tables with dnintake := db.tables.dnintake.set { intake with statusCode := .verified } }
      t₁ := postItems_postedRows ho.once (fun v hv => ⟨(hrow v hv).1, hopen v hv⟩) hlines hpost
  refine ⟨vs, hvs, ⟨hposted.once, fun i hi hver n hget => ?_⟩, fun s => ?_⟩
  · have hget : n ∈ t₁.dnintake.get? (i.donationId, i.inventoryId) := hget
    have hdn : t₁.dnintake = db.tables.dnintake.set { intake with statusCode := .verified } := hposted.dnintake
    rw [hdn] at hget
    have hset := Table.get?_set_of_get? (r := { intake with statusCode := .verified }) hin hkey
    rcases hposted.rows i hi with hold | ⟨v, hv, rfl⟩
    · by_cases hsame : (intake.donationId, intake.inventoryId) = (i.donationId, i.inventoryId)
      · rw [← hsame, hset] at hget
        cases hget
        rfl
      · rw [Table.get?_set_of_ne hsame] at hget
        exact ho.verified i hold hver n hget
    · obtain ⟨-, hd, hw⟩ := hrow v hv
      rw [show (v.verifiedRow.donationId, v.verifiedRow.inventoryId) = (intake.donationId, intake.inventoryId) from Prod.ext hd hw,
        hset] at hget
      cases hget
      rfl
  · have hsum := hposted.taken s
    rw [((hvs.perm hrun hn).map fun v => if v.row.stock = s then (v.qty.rounded 2).usable else 0).sum_eq]
    exact hsum

/-! ## The ledger after a verification -/

theorem usable_sum {ρ : Type} (l : List ρ) (f : ρ → Received) :
    ((l.map f).sum).usable = (l.map fun x => (f x).usable).sum := by
  induction l with
  | nil => rfl
  | cons x l ih =>
    rw [List.map_cons, List.sum_cons, List.map_cons, List.sum_cons, ← ih]
    rfl

theorem inStock_eq_batched (d : Depot) (s : StockKey) : d.inStock s = (d.intake.batched s).usable := by
  unfold Depot.inStock batchSum IntakeTables.batched Table.sum
  exact (usable_sum (d.tables.itembatch.select fun r => decide (r.key.stock = s)) ItemBatch.qty).symm

/-- What the items of a list bring to a warehouse. -/
theorem usable_brought (vs : List VerifiedItem) (s : StockKey) (n : ℕ) :
    ((vs.map fun v : VerifiedItem => if v.row.stock = s then v.qty.rounded n else 0).sum).usable =
      (vs.map fun v => if v.row.stock = s then (v.qty.rounded n).usable else 0).sum := by
  rw [usable_sum]
  refine congrArg List.sum (List.map_congr_left fun v _ => ?_)
  split_ifs <;> rfl

/-- A batch that is not there has nothing sent out of it. -/
theorem dispatched_of_no_batch {u : Tables} {k : BatchKey} (hc : u.Consistent) (hb : u.itembatch.get? k = none) :
    u.dispatched k = 0 ∧ u.pledged k = 0 := by
  have hnone : u.usable k = none := by rw [Tables.usable, hb]; rfl
  constructor
  · simp only [Tables.dispatched, pkgQty_of_no_batch hc hnone]
    simp [Table.sum]
  · simp only [Tables.pledged, pkgQty_of_no_batch hc hnone]
    simp [Table.sum]

theorem getD_dispatched {u : Tables} (hc : u.Consistent) (k : BatchKey) :
    ((u.itembatch.get? k).map fun b => u.dispatched b.key).getD 0 = u.dispatched k := by
  cases hb : u.itembatch.get? k with
  | none => exact (dispatched_of_no_batch hc hb).1.symm
  | some b => rw [Option.map_some, Option.getD_some, show b.key = k from Table.key_of_get? hb]

/-- An intake sends nothing out. -/
theorem sentOut_setIntake (hc : d.tables.Consistent) (hc' : (d.setIntake t).tables.Consistent) (s : StockKey) :
    (d.setIntake t).sentOut s = d.sentOut s :=
  Table.sum_eq_of_getD (p := fun k : BatchKey => decide (k.stock = s)) fun k _ =>
    (getD_dispatched hc' k).trans (getD_dispatched hc k).symm

namespace TakenIn

variable {form : Nat → VerifyField}

theorem cents (h : TakenIn ctx donationId today inventoryId form vs t t') (hp : PostsCents form donationId inventoryId t) :
    ∀ v ∈ vs, v.qty.rounded 4 = v.qty.rounded 2 := by
  intro v hv
  obtain ⟨i, hi, hiv⟩ := h.committed.verified v hv
  exact (cents_iff hiv).2 (hp.cents i hi)

theorem inStock (h : TakenIn ctx donationId today inventoryId form vs d.intake t') (s : StockKey) :
    (d.setIntake t'.rounded).inStock s =
      d.inStock s + (vs.map fun v => if v.row.stock = s then (v.qty.rounded 4).usable else 0).sum := by
  rw [inStock_eq_batched, inStock_eq_batched, ← usable_brought]
  exact congrArg Received.usable (h.committed.batched s)

/-- What a verification brings is in stock and accounted for. -/
theorem accounted (h : TakenIn ctx donationId today inventoryId form vs d.intake t')
    (hp : PostsCents form donationId inventoryId d.intake) (hc : d.Consistent)
    (hc' : (d.setIntake t'.rounded).Consistent) (s : StockKey) :
    (d.setIntake t'.rounded).inStock s + (d.setIntake t'.rounded).sentOut s + d.takenIn s =
      d.inStock s + d.sentOut s + (d.setIntake t'.rounded).takenIn s := by
  have hsame : (vs.map fun v => if v.row.stock = s then (v.qty.rounded 4).usable else 0) =
      vs.map fun v => if v.row.stock = s then (v.qty.rounded 2).usable else 0 :=
    List.map_congr_left fun v hv => by rw [h.cents hp v hv]
  have htaken := h.taken s
  rw [h.inStock, sentOut_setIntake hc.tables hc'.tables, takenIn_rounded, takenIn_stored hc.intake, hsame]
  simp only [Depot.intake] at htaken
  rw [htaken]
  ring

/-- Where an item has no total, nothing of it is in batches, and so nothing is reserved. -/
theorem stocked (h : TakenIn ctx donationId today inventoryId form vs d.intake t')
    (hp : PostsCents form donationId inventoryId d.intake) (hl : Ledger d.tables)
    (hnew : t'.rounded.inventory.get? s ≠ none) (hnone : d.tables.inventory.get? s = none) :
    d.inStock s = 0 ∧ batchSum d.tables.itembatch s ItemBatch.reservedQty = 0 := by
  have hbatched : d.intake.batched s = 0 := by
    by_contra hne
    refine hnew ((h.committed.left.stocked s).2 ⟨hnone, fun v hv he => hne ?_⟩)
    obtain ⟨i, hi, hiv⟩ := h.committed.verified v hv
    have hw := h.committed.inventoryId_eq hv
    rw [(verifyItem_ok hiv).1] at hw he
    subst he
    rw [hw] at hnone ⊢
    exact hp.stocked i hi hnone
  have hzero : d.inStock s = 0 := by
    rw [inStock_eq_batched, hbatched]
    rfl
  refine ⟨hzero, le_antisymm ?_ (List.sum_nonneg fun q hq => ?_)⟩
  · rw [← hzero]
    exact List.sum_le_sum fun b hb => (hl.bounds b (List.mem_filter.1 hb).1).2
  · obtain ⟨b, hb, rfl⟩ := List.mem_map.1 hq
    exact (hl.bounds b (List.mem_filter.1 hb).1).1

/-- The batches of a class keep to cents. -/
theorem batchScale (h : TakenIn ctx donationId today inventoryId form vs d.intake t')
    (hp : PostsCents form donationId inventoryId d.intake) (hl : Ledger d.tables) (hc' : t'.rounded.Consistent) {b : ItemBatch}
    (hb : b ∈ t'.rounded.itembatch.rows) : AtScale 2 b.usableQty := by
  have hclass := h.committed.batches (fun b => (b.inventoryId, b.batchNo, b.itemId))
    (fun v => (v.row.inventoryId, v.batchNo, v.row.itemId)) (b.inventoryId, b.batchNo, b.itemId) (fun _ _ _ => rfl)
    (fun _ => rfl) fun v t => by
      have hnumber := batch_number v t
      simp only [Prod.mk.injEq] at hnumber ⊢
      exact ⟨hnumber.1, hnumber.2.2, hnumber.2.1⟩
  have hone : t'.rounded.itembatch.rows.filter (fun c => decide ((c.inventoryId, c.batchNo, c.itemId) =
      (b.inventoryId, b.batchNo, b.itemId))) = [b] := by
    rw [filter_of_nodup_map hc'.ukItembatch, find?_of_nodup_map hc'.ukItembatch hb]
    rfl
  have hqty := congrArg Received.usable hclass
  rw [Table.sum, Table.select, hone, List.map_singleton, List.sum_singleton] at hqty
  have hadd : ∀ x y : Received, (x + y).usable = x.usable + y.usable := fun _ _ => rfl
  have husable : b.usableQty = b.qty.usable := rfl
  rw [husable, hqty, hadd, Table.sum, usable_sum, usable_sum]
  refine AtScale.add (AtScale.sum fun q hq => ?_) (AtScale.sum fun q hq => ?_)
  · obtain ⟨c, hcm, rfl⟩ := List.mem_map.1 hq
    exact (hl.batchScale c (List.mem_filter.1 hcm).1).1
  · obtain ⟨v, hv, rfl⟩ := List.mem_map.1 hq
    split_ifs
    · rw [h.cents hp v hv]
      exact numeric_atScale 2 _
    · exact .zero

/-- **A verification that posts cents keeps the ledger.** -/
theorem ledger (h : TakenIn ctx donationId today inventoryId form vs d.intake t')
    (hp : PostsCents form donationId inventoryId d.intake) (hl : Ledger d.tables) (hc : d.Consistent)
    (hc' : (d.setIntake t'.rounded).Consistent) : Ledger (d.setIntake t'.rounded).tables := by
  have hleft := h.committed.left
  -- what is reserved of a batch, and of an item
  have hreserved : ∀ b ∈ t'.rounded.itembatch.rows, (∃ c ∈ d.tables.itembatch.rows, c.key = b.key ∧
      b.reservedQty = c.reservedQty) ∨ b.reservedQty = 0 ∧ d.tables.itembatch.get? b.key = none := by
    intro b hb
    have hsame := hleft.batchReserved b.key
    rw [show t'.rounded.itembatch.get? b.key = some b from Table.get?_key hb] at hsame
    cases hget : d.tables.itembatch.get? b.key with
    | some c =>
      rw [show d.intake.itembatch.get? b.key = some c from hget] at hsame
      exact .inl ⟨c, Table.mem_of_get? hget, Table.key_of_get? hget, hsame⟩
    | none =>
      rw [show d.intake.itembatch.get? b.key = none from hget] at hsame
      exact .inr ⟨hsame, rfl⟩
  have hreservedSum : ∀ s, batchSum t'.rounded.itembatch s ItemBatch.reservedQty =
      batchSum d.tables.itembatch s ItemBatch.reservedQty := fun s =>
    Table.sum_eq_of_getD (p := fun k : BatchKey => decide (k.stock = s)) fun k _ => hleft.batchReserved k
  refine ⟨fun b hb => ?_, fun b hb => ?_, fun w hw => ?_, fun w hw => ?_, fun b hb => ⟨?_, ?_⟩, hl.rowScale⟩
  · rcases hreserved b hb with ⟨c, hcm, hk, he⟩ | ⟨he, hnone⟩
    · rw [he, hl.reserved c hcm, hk]
      rfl
    · rw [he]
      exact (dispatched_of_no_batch hc.tables hnone).2.symm
  · obtain ⟨-, ⟨hle, hnn⟩, -⟩ := hc'.tables.batch b hb
    exact ⟨hnn, hle⟩
  · have hget : t'.rounded.inventory.get? w.key = some w := Table.get?_key hw
    have hsame := hleft.stockReserved w.key
    rw [hget] at hsame
    show w.reservedQty = batchSum t'.rounded.itembatch w.key ItemBatch.reservedQty
    rw [hreservedSum]
    refine Eq.trans hsame ?_
    cases hold : d.tables.inventory.get? w.key with
    | some x =>
      rw [show d.intake.inventory.get? w.key = some x from hold, Option.map_some, Option.getD_some,
        hl.reservedTotal x (Table.mem_of_get? hold), show x.key = w.key from Table.key_of_get? hold]
    | none =>
      rw [show d.intake.inventory.get? w.key = none from hold]
      exact (h.stocked hp hl (by simp [hget]) hold).2.symm
  · have hget : t'.rounded.inventory.get? w.key = some w := Table.get?_key hw
    have hbefore : (d.intake.inStock w.key).usable = d.inStock w.key := by
      cases hold : d.tables.inventory.get? w.key with
      | some x =>
        have hk : x.key = w.key := Table.key_of_get? hold
        have hm : x ∈ d.intake.inventory.rows := Table.mem_of_get? hold
        rw [← hk, inStock_of_mem hm]
        exact hl.usableTotal x hm
      | none =>
        rw [inStock_of_none (t := d.intake) hold, (h.stocked hp hl (by simp [hget]) hold).1]
        rfl
    have hsame : (vs.map fun v => if v.row.stock = w.key then (v.qty.rounded 4).usable else 0) =
        vs.map fun v => if v.row.stock = w.key then (v.qty.rounded 2).usable else 0 :=
      List.map_congr_left fun v hv => by rw [h.cents hp v hv]
    have htotal := congrArg Received.usable (h.committed.totals w.key)
    rw [inStock_of_mem hw] at htotal
    show w.usableQty = (d.setIntake t'.rounded).inStock w.key
    rw [h.inStock, hsame, ← usable_brought, ← hbefore]
    exact htotal
  · exact h.batchScale hp hl hc'.intake hb
  · rcases hreserved b hb with ⟨c, hcm, -, he⟩ | ⟨he, -⟩
    · rw [he]
      exact (hl.batchScale c hcm).2
    · rw [he]
      exact .zero

end TakenIn

/-! ## Steps -/

/-- The reservations are covered, a request has one package, and the intakes are in order. -/
structure DepotDb.Kept (db : DepotDb) : Prop where
  ledger : Ledger db.depot.tables
  unique : UniquePkg db.depot.tables
  orderly : db.depot.intake.Orderly

/-- What came in between the two has stayed or gone out. -/
def Accounted (d d' : Depot) : Prop :=
  ∀ s, d'.inStock s + d'.sentOut s + d.takenIn s = d.inStock s + d.sentOut s + d'.takenIn s

theorem Accounted.refl (d : Depot) : Accounted d d := fun _ => rfl

theorem Accounted.trans {d₁ d₂ d₃ : Depot} (h : Accounted d₁ d₂) (h' : Accounted d₂ d₃) : Accounted d₁ d₃ := by
  intro s
  linarith [h s, h' s]

/-- What is usable in a batch, with what has gone out of it. -/
def Tables.handled (u : Tables) (b : ItemBatch) : ℚ := b.usableQty + u.dispatched b.key

theorem getD_handled {u : Tables} (hc : u.Consistent) (k : BatchKey) :
    ((u.itembatch.get? k).map u.handled).getD 0 = (u.usable k).getD 0 + u.dispatched k := by
  rw [← getD_dispatched hc k, Tables.usable]
  cases u.itembatch.get? k with
  | none => exact (add_zero 0).symm
  | some b => rfl

theorem inStock_add_sentOut (d : Depot) (s : StockKey) :
    d.inStock s + d.sentOut s = batchSum d.tables.itembatch s d.tables.handled := by
  unfold Depot.inStock Depot.sentOut batchSum Table.sum
  exact List.sum_map_add.symm

/-- A post of the packaging pages moves goods from the one account to the other. -/
theorem packaging_accounted {op : Op} (hl : Ledger db.depot.tables) (hu : UniquePkg db.depot.tables)
    (hd : Careful db.packaging op) (s : StockKey) :
    batchSum (step db.packaging op).tables.itembatch s (step db.packaging op).tables.handled =
      batchSum db.depot.tables.itembatch s db.depot.tables.handled := by
  have hbooks := step_books (hl : Ledger db.packaging.tables) hu hd
  refine Table.sum_eq_of_getD (p := fun k : BatchKey => decide (k.stock = s)) fun k _ => ?_
  have hbalance := congrFun hbooks.balance k
  simp only [Pi.add_apply, total_sent] at hbalance
  rw [getD_handled (step db.packaging op).consistent, getD_handled db.consistent.tables]
  exact hbalance

/-- An entry leaves the stock as it is. -/
theorem EntryRows.tables {n : DonationIntake} {rows : List DonationIntakeItem}
    (h : EntryRows donationId inventoryId d.intake t' n rows) (hc : d.Consistent) :
    (d.setIntake t'.rounded).tables = d.tables := by
  have hbatch : t'.rounded.itembatch = d.tables.itembatch := by
    show t'.itembatch.mapRows ItemBatch.rounded key_rounded_itembatch = d.tables.itembatch
    rw [h.itembatch]
    exact congrArg IntakeTables.itembatch hc.intake.stored
  have hstock : t'.rounded.inventory = d.tables.inventory := by
    show t'.inventory.mapRows Inventory.rounded key_rounded_inventory = d.tables.inventory
    rw [h.inventory]
    exact congrArg IntakeTables.inventory hc.intake.stored
  rw [Depot.setIntake, hbatch, hstock]

/-- **Every post keeps the store and accounts for what it moves.** -/
theorem depotStep_kept {op : DepotOp} (hk : db.Kept) (hs : op.Sound db) :
    (depotStep db op).Kept ∧ Accounted db.depot (depotStep db op).depot := by
  cases op with
  | packaging op =>
    rcases depotStep_packaging db op with he | he
    · rw [he]
      exact ⟨hk, .refl _⟩
    · have haccounted := packaging_accounted hk.ledger hk.unique hs
      refine ⟨⟨?_, ?_, ?_⟩, fun s => ?_⟩
      · rw [he]
        exact step_careful (hk.ledger : Ledger db.packaging.tables) hk.unique hs
      · rw [he]
        exact (step_header (hk.unique : UniquePkg db.packaging.tables) op).1
      · rw [he]
        exact ⟨hk.orderly.once, hk.orderly.verified⟩
      · rw [he, inStock_add_sentOut, inStock_add_sentOut]
        exact congrArg (· + db.depot.takenIn s) (haccounted s)
  | intake ctx donationId op =>
    rcases depotStep_intake db ctx donationId op with he | ⟨t, db', hroute, hexec, hdb, he⟩
    · rw [he]
      exact ⟨hk, .refl _⟩
    · have hc' : (db.depot.setIntake t.rounded).Consistent := he ▸ (depotStep db (.intake ctx donationId op)).consistent
      cases op with
      | entry today inventoryId form =>
        obtain ⟨n, rows, hrows⟩ := intakeForm_rows hroute
        have htables := hrows.tables db.consistent
        refine ⟨⟨?_, ?_, ?_⟩, fun s => ?_⟩
        · rw [he, htables]
          exact hk.ledger
        · rw [he, htables]
          exact hk.unique
        · rw [he]
          exact (hrows.orderly hk.orderly).rounded
        · have htaken := hrows.taken hk.orderly db.consistent.intake s
          rw [he, takenIn_rounded, htaken, takenIn_stored db.consistent.intake, Depot.inStock, Depot.sentOut, htables]
          rfl
      | verify today inventoryId form =>
        have hcents := hs.2 (by rw [hexec]; rfl)
        have horderly : db.intakes.tables.Orderly := hk.orderly
        obtain ⟨vs, hin⟩ := verifyIntake_takenIn horderly hroute hexec hdb
        refine ⟨⟨?_, ?_, ?_⟩, fun s => ?_⟩
        · rw [he]
          exact hin.ledger hcents hk.ledger db.consistent hc'
        · rw [he]
          exact hk.unique
        · rw [he]
          exact hin.orderly.rounded
        · rw [he]
          exact hin.accounted hcents db.consistent hc' s

end

/-! ## Runs -/

/-- **What came in is there or has gone out.** In any order of posts of the packaging and the intake pages, what
verified intakes brought of an item to a warehouse is what its batches gained and what left it with packages, and the
reservations stay covered. -/
theorem goods_accounted (db : DepotDb) (hk : db.Kept) (ops : List DepotOp)
    (h : Along depotStep (fun db op => op.Sound db) db ops) :
    (run depotStep db ops).Kept ∧ Accounted db.depot (run depotStep db ops).depot :=
  Along.invariant (P := fun (db : DepotDb) (op : DepotOp) => op.Sound db)
    (I := fun db' : DepotDb => db'.Kept ∧ Accounted db.depot db'.depot)
    (fun _ _ hk hs => (depotStep_kept hk.1 hs).imp_right hk.2.trans) ⟨hk, .refl _⟩ h

/-- A request for five units, a verified donation of five, and nothing in the warehouse. -/
def Site.emptyDepot : DepotDb :=
  ⟨⟨{ tables with itembatch := .empty, inventory := .empty }, donated.tables.donation, donated.tables.donationItem, .empty,
    .empty, 1⟩, by decide +kernel⟩

/-- Four usable units come in, and two of them go out. -/
def Site.throughput : List DepotOp :=
  [.intake intakeCtx 1 (.entry 100 1 arrived), .intake intakeCtx 1 (.verify 100 1 confirmed),
    .packaging (.preparePackage officer 1 .submitForApproval (post 3 .absent 2)),
    .packaging (.reviewApproval manager 1 .approveAndDispatch (post 4 (.num 2) 2))]

theorem goods_accounted_site :
    Ledger (run depotStep Site.emptyDepot Site.throughput).depot.tables ∧
    (run depotStep Site.emptyDepot Site.throughput).depot.inStock ⟨1, 1⟩ = 2 ∧
    (run depotStep Site.emptyDepot Site.throughput).depot.sentOut ⟨1, 1⟩ = 2 ∧
    (run depotStep Site.emptyDepot Site.throughput).depot.inStock ⟨1, 1⟩ +
        (run depotStep Site.emptyDepot Site.throughput).depot.sentOut ⟨1, 1⟩ =
      (run depotStep Site.emptyDepot Site.throughput).depot.takenIn ⟨1, 1⟩ := by
  have hk : Site.emptyDepot.Kept :=
    ⟨⟨by decide +kernel, by decide +kernel, by decide +kernel, by decide +kernel, by decide +kernel, by decide +kernel⟩,
      by decide +kernel, by decide +kernel⟩
  have hentry : IntakeOp.Decimals 8 Site.intakeCtx 1 Site.emptyDepot.depot.intake (.entry 100 1 Site.arrived) := by
    decide +kernel
  have hverify : IntakeOp.Decimals 8 Site.intakeCtx 1
      (depotStep Site.emptyDepot (.intake Site.intakeCtx 1 (.entry 100 1 Site.arrived))).depot.intake
      (.verify 100 1 Site.confirmed) := by
    decide +kernel
  have hsound : Along depotStep (fun db op => op.Sound db) Site.emptyDepot Site.throughput :=
    ⟨hentry, ⟨hverify, fun _ => ⟨by decide +kernel, by decide +kernel⟩⟩,
      ⟨Site.form_exact (by decide +kernel), by decide +kernel⟩, trivial, trivial⟩
  have h := goods_accounted Site.emptyDepot hk Site.throughput hsound
  have haccount := h.2 ⟨1, 1⟩
  have hempty : Site.emptyDepot.depot.inStock ⟨1, 1⟩ = 0 ∧ Site.emptyDepot.depot.sentOut ⟨1, 1⟩ = 0 ∧
      Site.emptyDepot.depot.takenIn ⟨1, 1⟩ = 0 := ⟨rfl, rfl, rfl⟩
  rw [hempty.1, hempty.2.1, hempty.2.2, add_zero, add_zero, zero_add] at haccount
  exact ⟨h.1.ledger, by decide +kernel, by decide +kernel, haccount⟩

end Dmis
