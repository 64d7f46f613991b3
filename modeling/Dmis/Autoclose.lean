import Dmis.Notifications

/-!
# Closing a request by itself

`check_and_autoclose_request` (`relief_request_service.py:337-400`) looks for what speaks against closing a request: a
package with status `P` or `D`, an item of which less was received than issued. A request without packages, or without
anything issued, has nothing of the kind, and of the statuses only FILLED stops it.

The contract of `ClosesFinished` is that a status changes only where the work is finished. The constraint
`c_reliefrqst_5a`, which the flush runs into, keeps requests out that nobody acted on; `autoclose_only_finished` says
which of the others are closed too early.
-/

namespace Dmis

open Relational Keyed

/-! ## Intakes of packages -/

structure DBIntake where
  reliefpkgId : Nat
  inventoryId : Nat
  deriving DecidableEq, Repr

structure DBIntakeItem where
  reliefpkgId : Nat
  inventoryId : Nat
  itemId : Nat
  usableQty : ℚ
  deriving DecidableEq, Repr

instance : Keyed DBIntake (Nat × Nat) := ⟨fun d => (d.reliefpkgId, d.inventoryId)⟩
instance : Keyed DBIntakeItem (Nat × Nat × Nat) := ⟨fun i => (i.reliefpkgId, i.inventoryId, i.itemId)⟩

structure ReceiptTables where
  tables : Tables
  dbintake : Table DBIntake
  dbintakeItem : Table DBIntakeItem
  notification : List Notification

structure ReceiptTables.Consistent (t : ReceiptTables) : Prop where
  tables : t.tables.Consistent
  /-- `dbintake_reliefpkg_id_fkey`. -/
  fkIntake : ∀ d ∈ t.dbintake.rows, d.reliefpkgId ∈ t.tables.reliefpkg.keys
  /-- `dbintake_item_reliefpkg_id_inventory_id_fkey`. -/
  fkIntakeItem : ∀ i ∈ t.dbintakeItem.rows, (i.reliefpkgId, i.inventoryId) ∈ t.dbintake.keys
  /-- `dbintake_item_usable_qty_check`. -/
  usableQty : ∀ i ∈ t.dbintakeItem.rows, 0 ≤ i.usableQty

structure ReceiptDb where
  tables : ReceiptTables
  consistent : tables.Consistent

/-! ## The check -/

/-- The message that comes with the answer; only `closed` is a yes. -/
inductive AutocloseResult where
  | requestNotFound | alreadyClosed
  | packagesPending (n : Nat)
  | notFullyReceived
  | closed (rqstId : Nat)
  deriving DecidableEq, Repr

/-- `sum(DBIntakeItem.usable_qty)` over the join with `dbintake` and `reliefpkg`. -/
def ReceiptTables.receivedQty (t : ReceiptTables) (rqstId itemId : Nat) : ℚ :=
  ((t.dbintakeItem.select fun i =>
    i.itemId = itemId ∧ (i.reliefpkgId, i.inventoryId) ∈ t.dbintake.keys ∧
      ∃ p ∈ t.tables.reliefpkg.get? i.reliefpkgId, p.reliefrqstId = rqstId).map DBIntakeItem.usableQty).sum

/-- `_create_closure_notification`. -/
def createClosureNotification (users : UserStore) (r : ReliefRqst) : List Notification :=
  (users.user.select fun u => u.agencyId = some r.agencyId ∧ u.isActive).map fun u =>
    { userId := u.userId
      title := "Relief Request Fully Received and Closed"
      message := "Relief request #" ++ toString r.reliefrqstId ++
        " has been fully received and automatically closed. All allocated goods have been confirmed."
      type := .reliefrqstClosed
      linkUrl := "/relief-requests/" ++ toString r.reliefrqstId
      reliefrqstId := some r.reliefrqstId }

def ReliefRqst.autoclosed (r : ReliefRqst) : ReliefRqst :=
  { r with statusCode := .filled, versionNbr := r.versionNbr + 1 }

def checkAndAutocloseRequest (users : UserStore) (rqstId : Nat) (t : ReceiptTables) :
    Except Err (ReceiptTables × AutocloseResult) :=
  match t.tables.reliefrqst.get? rqstId with
  | none => .ok (t, .requestNotFound)
  | some r =>
    let pendingPackages := (t.tables.packages rqstId).filter fun p => p.statusCode = .pending ∨ p.statusCode = .dispatched
    if r.statusCode = .filled then .ok (t, .alreadyClosed)
    else if 0 < pendingPackages.length then .ok (t, .packagesPending pendingPackages.length)
    else if ∃ i ∈ t.tables.rqstItems rqstId, t.receivedQty rqstId i.itemId < i.issueQty then .ok (t, .notFullyReceived)
    else do
      -- `db.session.flush()`
      check r.autoclosed.Check .integrityError
      pure ({ t with
        tables := t.tables.setRqst r.autoclosed
        notification := t.notification ++ createClosureNotification users r }, .closed rqstId)

/-! ## The contract -/

/-- What the intakes of the request's packages report of an item. -/
def ReceiptTables.reported (t : ReceiptTables) (rqstId itemId : Nat) : ℚ :=
  ((t.tables.packages rqstId).map fun p =>
    ((t.dbintakeItem.select fun i => i.reliefpkgId = p.reliefpkgId ∧ i.itemId = itemId).map DBIntakeItem.usableQty).sum).sum

/-- The request is being filled, no package is on its way, and what was issued, at least something, was received. -/
structure Finished (t : ReceiptTables) (r : ReliefRqst) : Prop where
  status : r.statusCode = .submitted ∨ r.statusCode = .partFilled
  packages : t.tables.packages r.reliefrqstId ≠ []
  underway : ∀ p ∈ t.tables.packages r.reliefrqstId,
    p.statusCode ≠ .pending ∧ ¬ (p.statusCode = .dispatched ∧ p.receivedDtime = none)
  received : ∀ i ∈ t.tables.rqstItems r.reliefrqstId, i.issueQty ≤ t.reported r.reliefrqstId i.itemId
  issued : ∃ i ∈ t.tables.rqstItems r.reliefrqstId, 0 < i.issueQty

/-- A status changes only where the work is finished, to one the row may have. -/
def ClosesFinished (users : UserStore) (rqstId : Nat) (t : ReceiptTables) : Prop :=
  ∀ t' result, checkAndAutocloseRequest users rqstId t = .ok (t', result) →
    ∀ x, ∀ r ∈ t.tables.reliefrqst.get? x, ∀ r' ∈ t'.tables.reliefrqst.get? x, r'.statusCode ≠ r.statusCode →
      Finished t r ∧ r'.C4a ∧ r'.C5a

/-- A request that was acted on, with no package underway and nothing missing, is part-filled, and has a package and
something issued. -/
def ReadyOnly (rqstId : Nat) (t : ReceiptTables) : Prop :=
  ∀ r ∈ t.tables.reliefrqst.get? rqstId, r.statusCode ∈ [RqstStatus.denied, .partFilled, .closed, .ineligible] →
    (∀ p ∈ t.tables.packages rqstId, p.statusCode ≠ .pending ∧ p.statusCode ≠ .dispatched) →
    (∀ i ∈ t.tables.rqstItems rqstId, i.issueQty ≤ t.reported rqstId i.itemId) →
      r.statusCode = .partFilled ∧ t.tables.packages rqstId ≠ [] ∧ ∃ i ∈ t.tables.rqstItems rqstId, 0 < i.issueQty

section
variable {users : UserStore} {rqstId itemId : Nat} {t t' : ReceiptTables} {r : ReliefRqst}

/-- The join adds up what the packages report. -/
theorem receivedQty_eq (hc : t.Consistent) (rqstId itemId : Nat) : t.receivedQty rqstId itemId = t.reported rqstId itemId := by
  have hn : ((t.tables.packages rqstId).map ReliefPkg.reliefpkgId).Nodup :=
    t.tables.reliefpkg.nodup.sublist (List.filter_sublist.map key)
  have hjoin : ∀ i ∈ t.dbintakeItem.rows,
      (i.itemId = itemId ∧ (i.reliefpkgId, i.inventoryId) ∈ t.dbintake.keys ∧
        ∃ p ∈ t.tables.reliefpkg.get? i.reliefpkgId, p.reliefrqstId = rqstId) ↔
      i.itemId = itemId ∧ i.reliefpkgId ∈ (t.tables.packages rqstId).map ReliefPkg.reliefpkgId := fun i hi => by
    refine and_congr_right fun _ => ?_
    rw [and_iff_right (hc.fkIntakeItem i hi), List.mem_map]
    constructor
    · rintro ⟨p, hp, hr⟩
      exact ⟨p, List.mem_filter.2 ⟨Table.mem_of_get? hp, decide_eq_true hr⟩, Table.key_of_get? hp⟩
    · rintro ⟨p, hp, hid⟩
      obtain ⟨hm, hr⟩ := List.mem_filter.1 hp
      exact ⟨p, hid ▸ Table.get?_key hm, of_decide_eq_true hr⟩
  have hfilter : (t.dbintakeItem.select fun i => i.itemId = itemId ∧ (i.reliefpkgId, i.inventoryId) ∈ t.dbintake.keys ∧
      ∃ p ∈ t.tables.reliefpkg.get? i.reliefpkgId, p.reliefrqstId = rqstId) =
        (t.dbintakeItem.select fun i => i.itemId = itemId).filter fun i =>
          i.reliefpkgId ∈ (t.tables.packages rqstId).map ReliefPkg.reliefpkgId := by
    unfold Table.select
    rw [List.filter_filter]
    refine List.filter_congr fun i hi => ?_
    rw [← Bool.decide_and, decide_eq_decide, hjoin i hi, and_comm]
  have hpkg : ∀ k, ((t.dbintakeItem.select fun i => i.itemId = itemId).filter fun i => i.reliefpkgId = k) =
      t.dbintakeItem.select fun i => i.reliefpkgId = k ∧ i.itemId = itemId := fun k => by
    unfold Table.select
    rw [List.filter_filter]
    exact List.filter_congr fun i _ => (Bool.decide_and _ _).symm
  rw [ReceiptTables.receivedQty, hfilter, sum_filter_mem hn, List.map_map]
  simp only [Function.comp_def, hpkg]
  rfl

/-- What makes the check close the request. -/
structure Closes (rqstId : Nat) (t : ReceiptTables) (r : ReliefRqst) : Prop where
  status : r.statusCode ≠ .filled
  packages : ∀ p ∈ t.tables.packages rqstId, p.statusCode ≠ .pending ∧ p.statusCode ≠ .dispatched
  received : ∀ i ∈ t.tables.rqstItems rqstId, i.issueQty ≤ t.reported rqstId i.itemId
  checked : r.autoclosed.Check

/-- **The check** leaves everything as it was, or closes the request. -/
theorem autoclose_eq (users : UserStore) (hc : t.Consistent) (hr : t.tables.reliefrqst.get? rqstId = some r) :
    (Closes rqstId t r → ∃ t' result, checkAndAutocloseRequest users rqstId t = .ok (t', result) ∧
      t'.tables = t.tables.setRqst r.autoclosed) ∧
    (¬ Closes rqstId t r → ∀ t' result, checkAndAutocloseRequest users rqstId t = .ok (t', result) → t' = t) := by
  have hpackages : (∀ p ∈ t.tables.packages rqstId, p.statusCode ≠ .pending ∧ p.statusCode ≠ .dispatched) ↔
      ¬ 0 < ((t.tables.packages rqstId).filter fun p => p.statusCode = .pending ∨ p.statusCode = .dispatched).length := by
    rw [List.length_pos_iff, not_not, List.filter_eq_nil_iff]
    simp only [decide_eq_true_eq, not_or]
  have hreceived : (∀ i ∈ t.tables.rqstItems rqstId, i.issueQty ≤ t.reported rqstId i.itemId) ↔
      ¬ ∃ i ∈ t.tables.rqstItems rqstId, t.receivedQty rqstId i.itemId < i.issueQty := by
    simp only [receivedQty_eq hc]
    push Not
    rfl
  unfold checkAndAutocloseRequest
  rw [hr]
  constructor
  · intro h
    have hrun : check r.autoclosed.Check Err.integrityError = .ok () := check_ok.2 h.checked
    dsimp only
    rw [if_neg h.status, if_neg (hpackages.1 h.packages), if_neg (hreceived.1 h.received), hrun]
    exact ⟨_, _, rfl, rfl⟩
  · intro h t' result hrun
    dsimp only at hrun
    split_ifs at hrun with hs hp hi
    · cases hrun
      rfl
    · cases hrun
      rfl
    · cases hrun
      rfl
    · obtain ⟨_, hcheck, -⟩ := bind_ok.1 hrun
      exact absurd ⟨hs, hpackages.2 hp, hreceived.2 hi, check_ok.1 hcheck⟩ h

/-- What is closed in line with the contract is finished. -/
theorem ClosesFinished.finished (h : ClosesFinished users rqstId t) (hc : t.Consistent)
    (hr : t.tables.reliefrqst.get? rqstId = some r) (hcloses : Closes rqstId t r) : Finished t r := by
  obtain ⟨t', result, hrun, ht'⟩ := (autoclose_eq users hc hr).1 hcloses
  have hid : r.reliefrqstId = rqstId := Table.key_of_get? hr
  have hafter : t'.tables.reliefrqst.get? rqstId = some r.autoclosed := by
    rw [ht']
    exact Table.get?_set_of_get? hr hid
  exact (h t' result hrun rqstId r hr r.autoclosed hafter (Ne.symm hcloses.status)).1

/-- The flush accepts the row of a request that was acted on. -/
theorem autoclosed_check (h : r.Check) :
    r.autoclosed.Check ∧ r.statusCode ≠ .filled ↔ r.statusCode ∈ [RqstStatus.denied, .partFilled, .closed, .ineligible] := by
  obtain ⟨h3, h4, h5⟩ := h
  unfold ReliefRqst.Check ReliefRqst.C3 ReliefRqst.C4a ReliefRqst.C5a ReliefRqst.autoclosed at *
  cases hs : r.statusCode <;> simp_all [RqstStatus.code]

end

/-- **Only finished work is closed** exactly when a request that could be closed is part-filled, with a package and
something issued. -/
theorem autoclose_only_finished (users : UserStore) (rqstId : Nat) (db : ReceiptDb) :
    ClosesFinished users rqstId db.tables ↔ ReadyOnly rqstId db.tables := by
  obtain ⟨t, hc⟩ := db
  dsimp only
  have hrow : ∀ {r : ReliefRqst}, t.tables.reliefrqst.get? rqstId = some r → r.Check ∧ r.reliefrqstId = rqstId := fun h =>
    ⟨hc.tables.rqst _ (Table.mem_of_get? h), Table.key_of_get? h⟩
  constructor
  · intro h r hr hstatus hpackages hreceived
    obtain ⟨hcheck, hid⟩ := hrow hr
    obtain ⟨hnew, hne⟩ := (autoclosed_check hcheck).2 hstatus
    have hfinished := h.finished hc hr ⟨hne, hpackages, hreceived, hnew⟩
    refine ⟨hfinished.status.resolve_left fun hs => ?_, hid ▸ hfinished.packages, hid ▸ hfinished.issued⟩
    rw [hs] at hstatus
    exact absurd hstatus (by decide)
  · intro h t' result hrun x r hr r' hr' hne
    have hsame : t' ≠ t := fun he => hne (congrArg _ (Option.mem_unique (he ▸ hr') hr))
    cases hg : t.tables.reliefrqst.get? rqstId with
    | none =>
      rw [checkAndAutocloseRequest, hg] at hrun
      cases hrun
      exact absurd rfl hsame
    | some r₀ =>
      obtain ⟨hcheck, hid⟩ := hrow hg
      have hcloses : Closes rqstId t r₀ := by
        by_contra hno
        exact hsame ((autoclose_eq users hc hg).2 hno t' result hrun)
      obtain ⟨t'', result', hrun', ht''⟩ := (autoclose_eq users hc hg).1 hcloses
      rw [hrun] at hrun'
      cases hrun'
      rw [ht''] at hr'
      have hx : x = rqstId := by
        by_contra hx
        have hkey : key r₀.autoclosed ≠ x := fun he => hx (he.symm.trans hid)
        rw [Option.mem_def, Tables.setRqst, Table.get?_set_of_ne hkey] at hr'
        exact hne (congrArg _ (Option.mem_unique hr' hr))
      subst hx
      obtain rfl := Option.mem_unique hg hr
      have hset := Table.get?_set_of_get? (r := r₀.autoclosed) hg hid
      obtain rfl := Option.mem_unique hset hr'
      have hstatus := (autoclosed_check hcheck).1 ⟨hcloses.checked, hcloses.status⟩
      obtain ⟨hpart, hpackages, hissued⟩ := h r₀ hg hstatus hcloses.packages hcloses.received
      refine ⟨⟨.inr hpart, hid.symm ▸ hpackages, hid.symm ▸ fun p hp => ?_, hid.symm ▸ hcloses.received, hid.symm ▸ hissued⟩,
        hcloses.checked.2.1, hcloses.checked.2.2⟩
      exact ⟨(hcloses.packages p hp).1, fun hd => (hcloses.packages p hp).2 hd.1⟩

/-- Request 1 was denied; request 2 is part-filled, and has no package. -/
def Site.unfinished : ReceiptDb where
  tables :=
    { tables := { tables with
        reliefrqst := ⟨[{ rqst with
            statusCode := .denied
            statusReasonDesc := some "out of stock"
            actionById := some "DIR" },
          { rqst with reliefrqstId := 2, statusCode := .partFilled, actionById := some "LO" }], by decide⟩
        reliefrqstItem := ⟨[{ rqstItem with reliefrqstId := 2 }, rqstItem], by decide⟩ }
      dbintake := .empty
      dbintakeItem := .empty
      notification := [] }
  consistent := ⟨by decide +kernel, fun _ h => (nomatch h), fun _ h => (nomatch h), fun _ h => (nomatch h)⟩

/-- Both are filled then, and nothing was issued of either. -/
theorem autoclose_unfinished :
    Site.unfinished.tables.tables.reliefrqst.rows.map ReliefRqst.statusCode = [.denied, .partFilled] ∧
    ∀ r ∈ Site.unfinished.tables.tables.reliefrqst.rows,
      (checkAndAutocloseRequest Site.users r.reliefrqstId Site.unfinished.tables).toOption.map (fun a =>
        ((a.1.tables.reliefrqst.get? r.reliefrqstId).map ReliefRqst.statusCode, a.2)) =
          some (some .filled, .closed r.reliefrqstId) ∧
      ¬ ClosesFinished Site.users r.reliefrqstId Site.unfinished.tables := by
  have hcloses : ∀ r ∈ Site.unfinished.tables.tables.reliefrqst.rows, r.statusCode ≠ .filled ∧
      (∀ p ∈ Site.unfinished.tables.tables.packages r.reliefrqstId, p.statusCode ≠ .pending ∧ p.statusCode ≠ .dispatched) ∧
      (∀ i ∈ Site.unfinished.tables.tables.rqstItems r.reliefrqstId,
        i.issueQty ≤ Site.unfinished.tables.reported r.reliefrqstId i.itemId ∧ i.issueQty = 0) ∧
      r.autoclosed.Check := by decide +kernel
  refine ⟨by decide +kernel, fun r hr => ⟨?_, fun h => ?_⟩⟩
  · revert r
    decide +kernel
  · obtain ⟨hstatus, hpackages, hreceived, hcheck⟩ := hcloses r hr
    have hfinished := h.finished Site.unfinished.consistent (Table.get?_key hr)
      ⟨hstatus, hpackages, fun i hi => (hreceived i hi).1, hcheck⟩
    obtain ⟨i, hi, hpos⟩ := hfinished.issued
    rw [(hreceived i hi).2] at hpos
    exact lt_irrefl 0 hpos

end Dmis
