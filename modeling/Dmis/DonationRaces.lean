import Dmis.Donations

/-!
# Operations that race with a verification

The five operations on one donation as they run in sessions of their own: each reads the donation, checks
its status, reads the items, and commits. `verify_donation_detail` and `edit_donation` write the donation
row, so that its version is compared; `add_donation_item`, `edit_donation_item` and `delete_donation_item`
write an item only.

`verified_items_frozen` says under which condition on the order of the turns a verified donation has the
items its verification wrote, and keeps them.
-/

namespace Dmis

open Relational Keyed

/-! ## Sessions -/

structure DonationStore where
  donation : Table Donation
  donationItem : Table DonationItem
  /-- The category type of the catalogue's items, which no operation writes. -/
  category : Nat → Option DonationType

def DonationStore.status (s : DonationStore) (donationId : Nat) : Option DonationStatus :=
  (s.donation.get? donationId).map Donation.statusCode

def DonationStore.quantity (s : DonationStore) (donationId itemId : Nat) : Option ℚ :=
  (s.donationItem.get? (donationId, itemId)).map DonationItem.itemQty

/-- The posts that concern a donation. -/
inductive DonationOp where
  | verify (form : DonationForm)
  | edit (form : DonationForm)
  | addItem (post : ItemAdd)
  | editItem (itemId : Nat) (post : ItemChange)
  | deleteItem (itemId : Nat)

/-- How far a session is. -/
inductive DonationTask where
  | begun (op : DonationOp)
  /-- The donation was `E`; the items are read next. -/
  | verifying (d : Donation) (entries : List ItemEntry)
  | editing (d : Donation) (entries : List ItemEntry)
  | adding (row : DonationItem)
  | changing (itemId : Nat) (post : ItemChange)
  | deleting (itemId : Nat)
  /-- Everything is read; the commit is next. -/
  | posting (d d' : Donation) (ws : List (Write DonationItem))
  | writing (w : Write DonationItem)
  | ended

/-- `db.session.commit()`: the donation if it is written, the items, their constraints and their foreign key. -/
def DonationStore.commit (header : Option (Donation × Donation)) (ws : List (Write DonationItem)) (s : DonationStore) :
    Option DonationStore :=
  (match header with
    | some (d, d') => s.donation.update? d d'
    | none => some s.donation).bind fun donation =>
  (s.donationItem.flush ws).bind fun items =>
  if ∀ w ∈ ws, ∀ r ∈ w.row?, r.Check ∧ (s.category r.itemId).isSome then
    some { s with donation := donation, donationItem := items }
  else none

def Donation.verified (d : Donation) : Donation := { d with statusCode := .verified, versionNbr := d.versionNbr + 1 }
def Donation.edited (d : Donation) : Donation := { d with versionNbr := d.versionNbr + 1 }

/-- The donation, if it is there and neither verified nor processed. -/
def DonationStore.enteredDonation (s : DonationStore) (donationId : Nat) : Option Donation :=
  (s.donation.get? donationId).filter fun d => d.statusCode = .entered

def goOnWith {α : Type} (next : α → DonationTask) : Option α → DonationTask
  | some a => next a
  | none => .ended

/-- The first turn: the donation's status, the posted version and the form. -/
def DonationOp.enter (donationId : Nat) (s : DonationStore) : DonationOp → DonationTask
  | .verify form => goOnWith (fun p => .verifying p.1 p.2) do
      let d ← s.enteredDonation donationId
      if form.versionNbr = .num d.versionNbr then
        let entries ← form.entries (verifyErrors s.category form) verifyEntry
        some (d, entries)
      else none
  | .edit form => goOnWith (fun p => .editing p.1 p.2) do
      let d ← s.enteredDonation donationId
      if safeVersionNumber form.versionNbr = d.versionNbr then
        let entries ← form.entries (editErrors form) editEntry
        some (d, entries)
      else none
  | .addItem post => goOnWith .adding ((s.enteredDonation donationId).bind fun _ => post.row donationId)
  | .editItem itemId post => goOnWith (fun _ => .changing itemId post) (s.enteredDonation donationId)
  | .deleteItem itemId => goOnWith (fun _ => .deleting itemId) (s.enteredDonation donationId)

def DonationTask.act (donationId : Nat) (_ : Nat) (s : DonationStore) : DonationTask → DonationStore × DonationTask
  | .begun op => (s, op.enter donationId s)
  | .verifying d entries =>
    (s, .posting d d.verified
      (verifyWrites donationId entries (s.donationItem.select fun i => i.donationId = donationId)))
  | .editing d entries =>
    (s, .posting d d.edited (editWrites donationId entries (s.donationItem.select fun i => i.donationId = donationId)))
  | .adding row => (s, if s.donationItem.get? (key row) = none then .writing (.insert row) else .ended)
  | .changing itemId post =>
    (s, goOnWith .writing do
      let i ← s.donationItem.get? (donationId, itemId)
      let i' ← post.changed i
      some (.update i i'))
  | .deleting itemId =>
    (s, goOnWith (fun i => .writing (.delete i)) (s.donationItem.get? (donationId, itemId)))
  | .posting d d' ws => ((s.commit (some (d, d')) ws).getD s, .ended)
  | .writing w => ((s.commit none [w]).getD s, .ended)
  | .ended => (s, .ended)

abbrev DonationWorld := Sessions DonationStore DonationTask

def nextDonation (donationId : Nat) : DonationWorld → Turn DonationOp → DonationWorld :=
  Sessions.next DonationTask.begun (DonationTask.act donationId)

/-! ## What a verification writes -/

/-- The quantity a form posts for an item, as the column holds it. -/
def postedQuantity (entries : List ItemEntry) (itemId : Nat) : Option ℚ :=
  ((latest entries).find? fun e => e.itemId = itemId).map fun e => numeric 2 e.quantity

/-- The row some writes leave under a key. -/
def leftRow (ws : List (Write DonationItem)) (k : Nat × Nat) : Option DonationItem :=
  (ws.find? fun w => decide (w.target = k)).bind Write.row?

section
variable {entries : List ItemEntry} {read : List DonationItem} {donationId : Nat} {e : ItemEntry}

theorem latest_sublist : ∀ entries : List ItemEntry, (latest entries).Sublist entries
  | [] => .slnil
  | e :: es => by
    unfold latest
    split
    · exact (latest_sublist es).cons _
    · exact (latest_sublist es).cons_cons _

theorem latest_nodup : ∀ entries : List ItemEntry, ((latest entries).map ItemEntry.itemId).Nodup
  | [] => List.nodup_nil
  | e :: es => by
    unfold latest
    split
    · exact latest_nodup es
    · rename_i h
      rw [List.map_cons, List.nodup_cons]
      exact ⟨fun hm => h (((latest_sublist es).map _).mem hm), latest_nodup es⟩

/-- The rows of the donation, each item once. -/
structure RowsOf (donationId : Nat) (read : List DonationItem) : Prop where
  own : ∀ i ∈ read, i.donationId = donationId
  nodup : (read.map DonationItem.itemId).Nodup

theorem rowsOf_select (t : Table DonationItem) (donationId : Nat) :
    RowsOf donationId (t.select fun i => i.donationId = donationId) := by
  have hown : ∀ i ∈ t.select fun i => i.donationId = donationId, i.donationId = donationId := fun i hi =>
    of_decide_eq_true (List.mem_filter.1 hi).2
  have hkeys : ((t.select fun i => i.donationId = donationId).map (key : DonationItem → Nat × Nat)).Nodup :=
    t.nodup.sublist (List.filter_sublist.map _)
  refine ⟨hown, ?_⟩
  have hpair : (t.select fun i => i.donationId = donationId).map (key : DonationItem → Nat × Nat) =
      ((t.select fun i => i.donationId = donationId).map DonationItem.itemId).map fun k => (donationId, k) := by
    rw [List.map_map]
    exact List.map_congr_left fun i hi => Prod.ext (hown i hi) rfl
  rw [hpair] at hkeys
  exact hkeys.of_map _

theorem target_verifyWrite (hr : RowsOf donationId read) (e : ItemEntry) :
    (e.verifyWrite donationId read).target = (donationId, e.itemId) := by
  unfold ItemEntry.verifyWrite
  split
  · rename_i i hi
    have hid : i.itemId = e.itemId := by simpa using List.find?_some hi
    exact Prod.ext (hr.own i (List.mem_of_find?_eq_some hi)) hid
  · rfl

theorem keeps_verifyWrites : ∀ w ∈ verifyWrites donationId entries read, w.Keeps := by
  intro w hw
  rcases List.mem_append.1 hw with hw | hw
  · obtain ⟨i, -, rfl⟩ := List.mem_map.1 hw
    trivial
  · obtain ⟨e, -, rfl⟩ := List.mem_map.1 hw
    unfold ItemEntry.verifyWrite
    split
    · rfl
    · trivial

theorem verifyWrites_targets (hr : RowsOf donationId read) :
    (verifyWrites donationId entries read).map Write.target =
      (((read.filter fun i => i.itemId ∉ entries.map ItemEntry.itemId).map DonationItem.itemId) ++
        (latest entries).map ItemEntry.itemId).map fun k => (donationId, k) := by
  simp only [verifyWrites, removals, List.map_append, List.map_map]
  congr 1
  · exact List.map_congr_left fun i hi => Prod.ext (hr.own i (List.mem_filter.1 hi).1) rfl
  · exact List.map_congr_left fun e _ => target_verifyWrite hr e

theorem nodup_verifyWrites (hr : RowsOf donationId read) :
    ((verifyWrites donationId entries read).map Write.target).Nodup := by
  rw [verifyWrites_targets hr]
  refine List.Nodup.map (fun a b h => (Prod.mk.inj h).2) (List.nodup_append.2 ⟨?_, latest_nodup entries, ?_⟩)
  · exact hr.nodup.sublist (List.filter_sublist.map _)
  · rintro k hk _ hk' rfl
    obtain ⟨i, hi, rfl⟩ := List.mem_map.1 hk
    have hnot : i.itemId ∉ entries.map ItemEntry.itemId := by simpa using (List.mem_filter.1 hi).2
    exact hnot (((latest_sublist entries).map _).mem hk')

/-- The rows the verification leaves are those of the form. -/
theorem leftRow_verifyWrites (hr : RowsOf donationId read) (itemId : Nat) :
    (leftRow (verifyWrites donationId entries read) (donationId, itemId)).map DonationItem.itemQty =
      postedQuantity entries itemId := by
  unfold leftRow verifyWrites
  rw [List.find?_append]
  cases hrem : (removals read entries).find? fun w => decide (w.target = (donationId, itemId)) with
  | some w =>
    -- a removed item is not in the form
    have hw := List.mem_of_find?_eq_some hrem
    have htarget : w.target = (donationId, itemId) := by simpa using List.find?_some hrem
    obtain ⟨i, hi, rfl⟩ := List.mem_map.1 hw
    have hid : i.itemId = itemId := congrArg Prod.snd htarget
    have hnot : itemId ∉ entries.map ItemEntry.itemId := by simpa [hid] using (List.mem_filter.1 hi).2
    have hnone : (latest entries).find? (fun e => decide (e.itemId = itemId)) = none := by
      rw [List.find?_eq_none]
      intro e he hk
      exact hnot (List.mem_map.2 ⟨e, (latest_sublist entries).mem he, of_decide_eq_true hk⟩)
    simp [postedQuantity, hnone, Write.row?]
  | none =>
    rw [Option.none_or, List.find?_map]
    have hp : ((fun w : Write DonationItem => decide (w.target = (donationId, itemId))) ∘
        ItemEntry.verifyWrite donationId read) = fun e => decide (e.itemId = itemId) := by
      funext e
      simp [target_verifyWrite hr e]
    rw [hp]
    unfold postedQuantity
    cases hf : (latest entries).find? fun e => decide (e.itemId = itemId) with
    | none => rfl
    | some e =>
      simp only [Option.map_some, Option.bind_some]
      unfold ItemEntry.verifyWrite
      split <;> rfl

end

/-! ## What a turn does to the donation -/

/-- The session would still write an item over items of these versions. -/
def DonationTask.Armed (donationId : Nat) (v : Nat × Nat → Option Nat) : DonationTask → Prop
  | .adding row => v (donationId, row.itemId) = none
  | .changing itemId post => (v (donationId, itemId)).map Int.ofNat = some post.versionNbr
  | .deleting itemId => v (donationId, itemId) ≠ none
  | .writing w => w.Fits v
  | _ => False

instance (donationId : Nat) (v : Nat × Nat → Option Nat) : DecidablePred (DonationTask.Armed donationId v) :=
  fun x => by unfold DonationTask.Armed; split <;> infer_instance

/-- The donation a session has read and is going to write. -/
def DonationTask.donation? : DonationTask → Option Donation
  | .verifying d _ | .editing d _ | .posting d _ _ => some d
  | _ => none

/-- The writes of a verification, or an edit that leaves the donation as it is. -/
inductive Posts (donationId : Nat) (d : Donation) : Donation → List (Write DonationItem) → Prop where
  | verify {entries read} (rows : RowsOf donationId read) : Posts donationId d d.verified (verifyWrites donationId entries read)
  | edit {ws} : Posts donationId d d.edited ws

/-- What holds before a session's next turn. -/
structure DonationTask.Holds (donationId : Nat) (s : DonationStore) (x : DonationTask) : Prop where
  donation : ∀ d ∈ x.donation?, d.donationId = donationId ∧ d.statusCode = .entered ∧ s.donation.Seen d
  posts : ∀ d d' ws, x = .posting d d' ws → Posts donationId d d' ws
  item : ∀ row, x = .adding row → row.donationId = donationId
  target : ∀ w, x = .writing w → w.target.1 = donationId
  armed : s.status donationId ≠ some .entered → ¬ x.Armed donationId s.donationItem.versions

/-- A turn of a session that was at `x`. -/
inductive DonationStep (x : DonationTask) (s s' : DonationStore) : Prop where
  | same (same : s' = s)
  | item {w} (writing : x = .writing w) (fits : w.Fits s.donationItem.versions) (donation : s'.donation = s.donation)
  | post {d d' ws} (posting : x = .posting d d' ws) (commit : s.commit (some (d, d')) ws = some s')
      (current : s.donation.Current d) (donation : s'.donation = s.donation.set d')
      (items : s.donationItem.flush ws = some s'.donationItem)

section
variable {s s' : DonationStore} {donationId n : Nat} {x y : DonationTask} {d d' : Donation}
  {ws : List (Write DonationItem)} {w : Write DonationItem}

theorem commit_post (h : s.commit (some (d, d')) ws = some s') :
    s.donation.Current d ∧ s'.donation = s.donation.set d' ∧ s.donationItem.flush ws = some s'.donationItem := by
  unfold DonationStore.commit at h
  obtain ⟨donation, hd, h⟩ := Option.bind_eq_some_iff.1 h
  obtain ⟨items, hi, h⟩ := Option.bind_eq_some_iff.1 h
  obtain ⟨hcur, rfl⟩ := Table.update?_eq_some.1 hd
  split at h
  · cases h
    exact ⟨hcur, rfl, hi⟩
  · cases h

theorem commit_item (h : s.commit none [w] = some s') :
    w.Fits s.donationItem.versions ∧ s'.donation = s.donation := by
  unfold DonationStore.commit at h
  obtain ⟨donation, hd, h⟩ := Option.bind_eq_some_iff.1 h
  obtain ⟨items, hi, h⟩ := Option.bind_eq_some_iff.1 h
  obtain ⟨t, ht, -⟩ := Option.bind_eq_some_iff.1 hi
  cases hd
  split at h
  · cases h
    exact ⟨Table.fits_of_write? ht, rfl⟩
  · cases h

theorem DonationTask.act_step (donationId n : Nat) (s : DonationStore) (x : DonationTask) :
    DonationStep x s (x.act donationId n s).1 := by
  cases x with
  | begun | verifying | editing | adding | changing | deleting | ended => exact .same rfl
  | posting d d' ws =>
    simp only [DonationTask.act]
    cases h : s.commit (some (d, d')) ws with
    | none => exact .same rfl
    | some s' =>
      obtain ⟨hcur, hd, hi⟩ := commit_post h
      exact .post rfl h hcur hd hi
  | writing w =>
    simp only [DonationTask.act]
    cases h : s.commit none [w] with
    | none => exact .same rfl
    | some s' => exact .item rfl (commit_item h).1 (commit_item h).2

theorem Posts.key_eq (h : Posts donationId d d' ws) : d'.donationId = d.donationId ∧ d.versionNbr < d'.versionNbr := by
  cases h with
  | verify | edit => exact ⟨rfl, Nat.lt_succ_self _⟩

theorem donationStatus_of_get? (h : s.donation.get? donationId = some d) {st : DonationStatus} (hs : d.statusCode = st) :
    s.status donationId = some st := by
  rw [DonationStore.status, h, Option.map_some, hs]

/-- Before a commit that goes through, the donation is still the one that was read. -/
theorem status_post (hx : x.Holds donationId s) (hp : x = .posting d d' ws) (hcur : s.donation.Current d)
    (hs : s'.donation = s.donation.set d') :
    s.status donationId = some .entered ∧ s'.status donationId = some d'.statusCode := by
  obtain ⟨hid, hent, hseen⟩ := hx.donation d (hp ▸ rfl)
  have hget : s.donation.get? donationId = some d := hid ▸ hseen.eq hcur
  have hkey : key d' = donationId := ((hx.posts d d' ws hp).key_eq).1.trans hid
  refine ⟨donationStatus_of_get? hget hent, donationStatus_of_get? (d := d') ?_ rfl⟩
  rw [hs]
  exact Table.get?_set_of_get? hget hkey

/-- **A donation that is verified or processed does not change**: nothing that is under way gets through. -/
theorem DonationStep.frozen (h : DonationStep x s s') (hx : x.Holds donationId s)
    (hs : s.status donationId ≠ some .entered) : s' = s := by
  cases h with
  | same h => exact h
  | @item w hw hfits _ => exact absurd (hw ▸ hfits) (hx.armed hs)
  | post hp _ hcur hd _ => exact absurd (status_post hx hp hcur hd).1 hs

/-! ## What a session knows -/

theorem enteredDonation_eq (h : s.enteredDonation donationId = some d) :
    s.donation.get? donationId = some d ∧ d.statusCode = .entered := by
  obtain ⟨hg, hst⟩ := Option.filter_eq_some_iff.1 h
  exact ⟨hg, of_decide_eq_true hst⟩

theorem DonationTask.holds_ended (donationId : Nat) (s : DonationStore) : DonationTask.ended.Holds donationId s :=
  ⟨by simp [DonationTask.donation?], by simp, by simp, by simp, fun _ h => h⟩

theorem holds_goOnWith {α : Type} {next : α → DonationTask} {o : Option α}
    (h : ∀ a, o = some a → (next a).Holds donationId s) : (goOnWith next o).Holds donationId s := by
  cases o with
  | none => exact DonationTask.holds_ended donationId s
  | some a => exact h a rfl

/-- A session that has just found the donation `E`. -/
theorem holds_entered (hd : s.enteredDonation donationId = some d) (hx : ∀ d' ∈ x.donation?, d' = d)
    (hposts : ∀ d d' ws, x ≠ .posting d d' ws) (hitem : ∀ row, x = .adding row → row.donationId = donationId)
    (hwrite : ∀ w, x ≠ .writing w) : x.Holds donationId s := by
  obtain ⟨hg, hst⟩ := enteredDonation_eq hd
  refine ⟨fun d' hd' => ?_, fun d d' ws h => absurd h (hposts d d' ws), hitem, fun w h => absurd h (hwrite w),
    fun hs => absurd (donationStatus_of_get? hg hst) hs⟩
  obtain rfl := hx d' hd'
  exact ⟨Table.key_of_get? hg, hst, Table.seen_of_get? hg⟩

theorem enter_holds (op : DonationOp) : (op.enter donationId s).Holds donationId s := by
  cases op with
  | verify form | edit form =>
    refine holds_goOnWith fun p hp => ?_
    obtain ⟨d, hd, hp⟩ := Option.bind_eq_some_iff.1 hp
    split at hp
    · obtain ⟨entries, -, hp⟩ := Option.bind_eq_some_iff.1 hp
      cases hp
      exact holds_entered hd (by simp [DonationTask.donation?]) (by simp) (by simp) (by simp)
    · cases hp
  | addItem post =>
    refine holds_goOnWith fun row hrow => ?_
    obtain ⟨d, hd, hrow⟩ := Option.bind_eq_some_iff.1 hrow
    refine holds_entered hd (by simp [DonationTask.donation?]) (by simp) (fun row' h => ?_) (by simp)
    cases h
    obtain ⟨id, -, hrow⟩ := Option.bind_eq_some_iff.1 hrow
    obtain ⟨q, -, hrow⟩ := Option.bind_eq_some_iff.1 hrow
    split at hrow
    · cases hrow
      rfl
    · cases hrow
  | editItem itemId post =>
    exact holds_goOnWith fun d hd => holds_entered hd (by simp [DonationTask.donation?]) (by simp) (by simp) (by simp)
  | deleteItem itemId =>
    exact holds_goOnWith fun d hd => holds_entered hd (by simp [DonationTask.donation?]) (by simp) (by simp) (by simp)

theorem DonationTask.act_holds (hx : x.Holds donationId s) :
    (x.act donationId n s).2.Holds donationId (x.act donationId n s).1 := by
  cases x with
  | begun op => exact enter_holds op
  | verifying d entries =>
    refine ⟨hx.donation, fun d₁ d₂ ws h => ?_, by simp [DonationTask.act], by simp [DonationTask.act], fun _ h => h⟩
    cases h
    exact .verify (rowsOf_select _ _)
  | editing d entries =>
    refine ⟨hx.donation, fun d₁ d₂ ws h => ?_, by simp [DonationTask.act], by simp [DonationTask.act], fun _ h => h⟩
    cases h
    exact .edit
  | adding row =>
    have hrow : row.donationId = donationId := hx.item row rfl
    simp only [DonationTask.act]
    by_cases hnone : s.donationItem.get? (key row) = none
    · rw [if_pos hnone]
      refine ⟨by simp [DonationTask.donation?], by simp, by simp, fun w h => ?_, fun hs => absurd ?_ (hx.armed hs)⟩
      · cases h
        exact hrow
      · have hkey : (donationId, row.itemId) = key row := Prod.ext hrow.symm rfl
        rw [DonationTask.Armed, Table.versions, hkey, hnone]
        rfl
    · rw [if_neg hnone]
      exact DonationTask.holds_ended donationId s
  | changing itemId post =>
    refine holds_goOnWith fun w hw => ?_
    obtain ⟨i, hi, hw⟩ := Option.bind_eq_some_iff.1 hw
    obtain ⟨i', hi', hw⟩ := Option.bind_eq_some_iff.1 hw
    cases hw
    refine ⟨by simp [DonationTask.donation?], by simp, by simp, fun w h => ?_, fun hs => absurd ?_ (hx.armed hs)⟩
    · cases h
      exact congrArg Prod.fst (Table.key_of_get? hi)
    · have hv : post.versionNbr = i.versionNbr := by
        obtain ⟨q, -, hi'⟩ := Option.bind_eq_some_iff.1 hi'
        obtain ⟨st, -, hi'⟩ := Option.bind_eq_some_iff.1 hi'
        split at hi'
        · rename_i hok
          exact hok.1
        · cases hi'
      rw [DonationTask.Armed, Table.versions, hi, hv]
      rfl
  | deleting itemId =>
    refine holds_goOnWith fun i hi => ?_
    refine ⟨by simp [DonationTask.donation?], by simp, by simp, fun w h => ?_, fun hs => absurd ?_ (hx.armed hs)⟩
    · cases h
      exact congrArg Prod.fst (Table.key_of_get? hi)
    · rw [DonationTask.Armed, Table.versions, hi]
      simp
  | posting | writing | ended => exact DonationTask.holds_ended donationId _

end

/-! ## Turns that do not cross a verification -/

/-- The versions of the rows some writes leave. -/
def leftVersions (ws : List (Write DonationItem)) (k : Nat × Nat) : Option Nat := (leftRow ws k).map DonationItem.versionNbr

/-- When a verification commits, every item of the donation was read by it or is posted, and no operation is
under way that could write over the items it leaves. -/
def Sheltered (donationId : Nat) (w : DonationWorld) : Turn DonationOp → Prop
  | .start _ => True
  | .turn n =>
    match w.sessions[n]? with
    | some (.posting d d' ws) =>
      d'.statusCode ≠ .entered → (w.store.commit (some (d, d')) ws).isSome →
        (∀ i ∈ w.store.donationItem.rows, i.donationId = donationId → key i ∈ ws.map Write.target) ∧
        ∀ x ∈ w.sessions, ¬ x.Armed donationId (leftVersions ws)
    | _ => True

instance (donationId : Nat) (w : DonationWorld) (t : Turn DonationOp) : Decidable (Sheltered donationId w t) := by
  unfold Sheltered
  split
  · infer_instance
  · split <;> infer_instance

section
variable {s s' : DonationStore} {donationId n : Nat} {x y : DonationTask} {d d' : Donation}
  {ws : List (Write DonationItem)} {entries : List ItemEntry} {read : List DonationItem}

/-- What a verification leaves, if it saw every item. -/
theorem get?_verified (hr : RowsOf donationId read)
    (hflush : s.donationItem.flush (verifyWrites donationId entries read) = some s'.donationItem)
    (hall : ∀ i ∈ s.donationItem.rows, i.donationId = donationId →
      key i ∈ (verifyWrites donationId entries read).map Write.target) (itemId : Nat) :
    s'.donationItem.get? (donationId, itemId) = leftRow (verifyWrites donationId entries read) (donationId, itemId) := by
  rw [Table.get?_flush keeps_verifyWrites (nodup_verifyWrites hr) hflush, leftRow]
  cases hf : (verifyWrites donationId entries read).find? fun w => decide (w.target = (donationId, itemId)) with
  | some w => rfl
  | none =>
    -- an item that is not written was not there
    cases hg : s.donationItem.get? (donationId, itemId) with
    | none => rfl
    | some i =>
      have hk : key i = (donationId, itemId) := Table.key_of_get? hg
      obtain ⟨w, hw, htarget⟩ := List.mem_map.1 (hall i (Table.mem_of_get? hg) (congrArg Prod.fst hk))
      exact absurd (decide_eq_true (htarget.trans hk)) (List.find?_eq_none.1 hf w hw)

/-- Only the versions under the donation's items matter. -/
theorem Armed.congr {v v' : Nat × Nat → Option Nat} (htarget : ∀ w, y = .writing w → w.target.1 = donationId)
    (hv : ∀ itemId, v (donationId, itemId) = v' (donationId, itemId)) (h : y.Armed donationId v) :
    y.Armed donationId v' := by
  cases y with
  | adding row => exact (hv _).symm.trans h
  | changing itemId post => exact (congrArg (Option.map Int.ofNat) (hv itemId)).symm.trans h
  | deleting itemId => exact fun h' => h ((hv itemId).trans h')
  | writing w =>
    have hk : ∀ k : Nat × Nat, k.1 = donationId → v k = v' k := fun k hk => by
      obtain ⟨a, b⟩ := k
      cases hk
      exact hv b
    have hw := htarget w rfl
    cases w with
    | insert r => exact (hk _ hw).symm.trans h
    | update | delete => exact (hk _ hw).symm.trans h
  | begun | verifying | editing | posting | ended => exact h

theorem Seen_after (hx : x.Holds donationId s) (h : DonationStep x s s') (hd : s.donation.Seen d') :
    s'.donation.Seen d' := by
  cases h with
  | same h => exact h ▸ hd
  | item _ _ hdon => exact hdon ▸ hd
  | @post d d₂ ws hp _ hcur hdon _ =>
    obtain ⟨hid, -, hseen⟩ := hx.donation d (hp ▸ rfl)
    obtain ⟨hkey, hv⟩ := (hx.posts d d₂ ws hp).key_eq
    have hold : s.donation.get? (key d₂) = some d := (congrArg s.donation.get? hkey).trans (hseen.eq hcur)
    rw [hdon]
    exact hd.set hold hv

/-- A turn of another session leaves what a session knows, unless it crosses a verification. -/
theorem DonationStep.holds (h : DonationStep x s s') (hx : x.Holds donationId s) (hy : y.Holds donationId s)
    (hshelter : ∀ d d' ws, x = .posting d d' ws → d'.statusCode ≠ .entered → (s.commit (some (d, d')) ws).isSome →
      (∀ i ∈ s.donationItem.rows, i.donationId = donationId → key i ∈ ws.map Write.target) ∧
      ¬ y.Armed donationId (leftVersions ws)) : y.Holds donationId s' := by
  refine ⟨fun d hd => ?_, hy.posts, hy.item, hy.target, fun hs' => ?_⟩
  · obtain ⟨hid, hent, hseen⟩ := hy.donation d hd
    exact ⟨hid, hent, Seen_after hx h hseen⟩
  · cases h with
    | same h => exact h ▸ hy.armed (h ▸ hs')
    | @item w hw hfits hdon =>
      have hs : s.status donationId ≠ some .entered := by rwa [DonationStore.status, hdon] at hs'
      exact absurd (hw ▸ hfits) (hx.armed hs)
    | @post d d' ws hp hc hcur hdon hitems =>
      have hst := (status_post hx hp hcur hdon).2
      have hne : d'.statusCode ≠ .entered := fun he => hs' (hst.trans (congrArg some he))
      obtain ⟨hall, harmed⟩ := hshelter d d' ws hp hne (hc ▸ rfl)
      cases hx.posts d d' ws hp with
      | edit => exact absurd (hx.donation d (hp ▸ rfl)).2.1 hne
      | verify hr =>
        refine fun ha => harmed (Armed.congr hy.target (fun itemId => ?_) ha)
        rw [Table.versions, get?_verified hr hitems hall]
        rfl

end

/-! ## Every run -/

def DonationValid (donationId : Nat) : DonationWorld → Prop :=
  Sessions.Valid (fun _ => True) fun _ s x => x.Holds donationId s

theorem nextDonation_valid {donationId : Nat} (w : DonationWorld) (t : Turn DonationOp) (hw : DonationValid donationId w)
    (ht : Sheltered donationId w t) : DonationValid donationId (nextDonation donationId w t) := by
  refine Sessions.rule (P := Sheltered donationId) ?_ ?_ ?_ w t hw ht
  · intro w op _ _
    exact ⟨by simp [DonationTask.donation?], by simp, by simp, by simp, fun _ h => h⟩
  · intro w n x _ hw hx
    exact ⟨trivial, DonationTask.act_holds (hw.2 n x hx)⟩
  · intro w n x m y ht hw hx hy _
    refine (DonationTask.act_step donationId n w.store x).holds (hw.2 n x hx) (hw.2 m y hy) fun d d' ws hp hne hc => ?_
    subst hp
    simp only [Sheltered, hx] at ht
    obtain ⟨hall, harmed⟩ := ht hne hc
    exact ⟨hall, harmed y (List.mem_of_getElem? hy)⟩

/-- A verification leaves the items it wrote, and a donation that is no longer `E` does not change. -/
structure KeepsVerified (donationId : Nat) (w : DonationWorld) (t : Turn DonationOp) : Prop where
  written : w.store.status donationId = some .entered →
    (nextDonation donationId w t).store.status donationId ≠ some .entered →
    ∃ n d entries read, t = .turn n ∧
      w.sessions[n]? = some (.posting d d.verified (verifyWrites donationId entries read)) ∧
      ∀ itemId, (nextDonation donationId w t).store.quantity donationId itemId = postedQuantity entries itemId
  status : w.store.status donationId ≠ some .entered →
    (nextDonation donationId w t).store.status donationId = w.store.status donationId
  frozen : w.store.status donationId ≠ some .entered →
    ∀ itemId, (nextDonation donationId w t).store.quantity donationId itemId = w.store.quantity donationId itemId

theorem keepsVerified {donationId : Nat} {w : DonationWorld} {t : Turn DonationOp} (hw : DonationValid donationId w)
    (ht : Sheltered donationId w t) : KeepsVerified donationId w t := by
  have hfrozen : w.store.status donationId ≠ some .entered → (nextDonation donationId w t).store = w.store :=
    fun hs => Sessions.next_store (R := fun s s' => s' = s) rfl fun n x _ hx =>
      (DonationTask.act_step donationId n w.store x).frozen (hw.2 n x hx) hs
  refine ⟨fun hs hs' => ?_, fun hs => by rw [hfrozen hs], fun hs itemId => by rw [hfrozen hs]⟩
  cases t with
  | start op => exact absurd hs hs'
  | turn n =>
    cases hx : w.sessions[n]? with
    | none =>
      rw [nextDonation, Sessions.next_absent hx] at hs'
      exact absurd hs hs'
    | some x =>
      rw [nextDonation, Sessions.next_turn hx] at hs' ⊢
      have hold := hw.2 n x hx
      cases DonationTask.act_step donationId n w.store x with
      | same h =>
        have hsame := congrArg (fun s => DonationStore.status s donationId) h
        exact absurd (hsame.trans hs) hs'
      | item _ _ hdon =>
        have hsame : (x.act donationId n w.store).1.status donationId = w.store.status donationId := by
          rw [DonationStore.status, hdon]
          rfl
        exact absurd (hsame.trans hs) hs'
      | @post d d' ws hp hc hcur hdon hitems =>
        have hst := (status_post hold hp hcur hdon).2
        have hne : d'.statusCode ≠ .entered := fun he => hs' (hst.trans (congrArg some he))
        cases hold.posts d d' ws hp with
        | edit => exact absurd (hold.donation d (hp ▸ rfl)).2.1 hne
        | @verify entries read hr =>
          subst hp
          simp only [Sheltered, hx] at ht
          have hall := (ht hne (hc ▸ rfl)).1
          refine ⟨n, d, entries, read, rfl, hx, fun itemId => ?_⟩
          rw [DonationStore.quantity, get?_verified hr hitems hall, leftRow_verifyWrites hr]

/-- **A verified donation is frozen** along every run whose turns do not cross a verification. -/
theorem verified_items_frozen (donationId : Nat) (s : DonationStore) (turns : List (Turn DonationOp))
    (h : Along (nextDonation donationId) (Sheltered donationId) ⟨s, []⟩ turns) :
    Along (nextDonation donationId) (KeepsVerified donationId) ⟨s, []⟩ turns :=
  Along.imp (I := DonationValid donationId) nextDonation_valid (fun _ _ hw ht => keepsVerified hw ht)
    ⟨trivial, by simp⟩ h

/-! ## Runs -/

namespace Site

def donation : Donation := ⟨1, .entered, 1⟩

def donationItem (itemId : Nat) (qty : ℚ) : DonationItem := ⟨1, itemId, .goods, qty, 0, some "EA", none, .pending, 1⟩

/-- An entered donation of five units of item 1. -/
def donations : DonationStore := ⟨⟨[donation], by decide⟩, ⟨[donationItem 1 5], by decide⟩, fun _ => some .goods⟩

def itemField (num : String) (itemId : Nat) (qty : ℚ) : ItemField :=
  ⟨num, ⟨num, some itemId⟩, "GOODS", .value (.finite qty), .value (.finite 0), "EA", "", true⟩

/-- A verification that posts the given quantities. -/
def verifying (version : ℤ) (items : List ItemField) : DonationOp := .verify ⟨.num version, [], items⟩

def addItem (itemId : Nat) (qty : ℚ) : DonationOp := .addItem ⟨⟨"item", some itemId⟩, .value (.finite qty), "EA", "STORE"⟩

/-- An item is added, the donation is verified, and a second item is turned away. -/
def verifyInOrder : List (Turn DonationOp) :=
  [.start (addItem 2 3), .turn 0, .turn 0, .turn 0,
    .start (verifying 1 [itemField "1" 1 4, itemField "2" 2 3]), .turn 1, .turn 1, .turn 1,
    .start (addItem 3 9), .turn 2, .turn 2, .turn 2]

/-- The item is checked before the verification commits, and inserted after it. -/
def addAcross : List (Turn DonationOp) :=
  [.start (addItem 2 3), .start (verifying 1 [itemField "1" 1 5]), .turn 0, .turn 0, .turn 1, .turn 1, .turn 1, .turn 0]

/-- The item is inserted after the verification read the items. -/
def addBetween : List (Turn DonationOp) :=
  [.start (addItem 2 3), .start (verifying 1 [itemField "1" 1 5]), .turn 0, .turn 0, .turn 1, .turn 1, .turn 0, .turn 1]

/-- An item that was read is deleted, and the verification inserts it anew with the same version. -/
def changeAcross : List (Turn DonationOp) :=
  [.start (.editItem 1 ⟨1, .value (.finite 9), "EA", "STORE", some .pending⟩), .turn 0, .turn 0,
    .start (.deleteItem 1), .turn 1, .turn 1, .turn 1,
    .start (verifying 1 [itemField "1" 1 5]), .turn 2, .turn 2, .turn 2, .turn 0]

end Site

theorem verified_items_frozen_site :
    Along (nextDonation 1) (KeepsVerified 1) ⟨Site.donations, []⟩ Site.verifyInOrder ∧
    (run (nextDonation 1) ⟨Site.donations, []⟩ Site.verifyInOrder).store.status 1 = some .verified ∧
    [1, 2, 3].map ((run (nextDonation 1) ⟨Site.donations, []⟩ Site.verifyInOrder).store.quantity 1) =
      [some 4, some 3, none] :=
  ⟨verified_items_frozen 1 Site.donations Site.verifyInOrder (by decide +kernel), by decide +kernel, by decide +kernel⟩

/-- An item is added to a verified donation, one of its items is changed, and a verification that posted item 1 only
leaves item 2 as well. -/
theorem verified_items_changed :
    ¬ Along (nextDonation 1) (KeepsVerified 1) ⟨Site.donations, []⟩ Site.addAcross ∧
    ¬ Along (nextDonation 1) (KeepsVerified 1) ⟨Site.donations, []⟩ Site.changeAcross ∧
    (run (nextDonation 1) ⟨Site.donations, []⟩ Site.addBetween).store.status 1 = some .verified ∧
    (run (nextDonation 1) ⟨Site.donations, []⟩ Site.addBetween).store.quantity 1 2 = some 3 := by
  refine ⟨fun h => ?_, fun h => ?_, by decide +kernel, by decide +kernel⟩
  · have hlast : KeepsVerified 1 _ _ := Along.after Site.addAcross.dropLast h
    exact absurd (hlast.frozen (by decide +kernel) 2) (by decide +kernel)
  · have hlast : KeepsVerified 1 _ _ := Along.after Site.changeAcross.dropLast h
    exact absurd (hlast.frozen (by decide +kernel) 1) (by decide +kernel)

end Dmis
