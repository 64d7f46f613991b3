import Dmis.Notifications
import Dmis.Redirects
import Dmis.Lib.Run

/-!
# Mailboxes

The notifications of all users are in one table, and every page and service picks those of `current_user` by hand.

| here | there |
| --- | --- |
| `createNotification` | `create_notification` (`notification_service.py:79-121`) |
| `markAsRead`, `deleteNotification`, `clearAllNotifications` | the services of these names (`:383-408`, `:461-508`) |
| `getUnreadCount`, `getRecentNotifications` | `get_unread_count`, `get_recent_notifications` (`:427-459`) |
| `MailPost.respond` | the routes of `features/notifications.py`, with the services they call |

Main theorem `mailboxes_separate`: whatever the others do, a user finds the mailbox and gets the answers that the
user's own posts and notifications make. One answer tells more: `mark_read` looks the number up before it looks at the
owner, so it answers 403 for the notification of another user and 404 for none (`MailAnswer.blurred`).

`mark_all_as_read` is not called. Notifications of the same instant come in the order of the table.
-/

namespace Dmis

open Relational Keyed

namespace Mail

inductive ReadStatus where
  | unread | read
  deriving DecidableEq, Repr

/-- A row of `notification`. -/
structure NotificationRow where
  id : Nat
  notification : Notification
  status : ReadStatus
  isArchived : Bool
  createdAt : Int
  deriving DecidableEq, Repr

instance : Keyed NotificationRow Nat := ⟨NotificationRow.id⟩

def NotificationRow.userId (n : NotificationRow) : Nat := n.notification.userId

abbrev MailStore := Table NotificationRow

/-! ## The services -/

/-- `Notification.query.filter_by(id=…, user_id=…).first()`. -/
def find (t : MailStore) (id userId : Nat) : Option NotificationRow :=
  (t.select fun n => n.id = id && n.userId = userId).head?

/-- With the number the sequence gives it. -/
def createNotification (id : Nat) (notification : Notification) (now : Int) (t : MailStore) : MailStore :=
  (t.insert ⟨id, notification, .unread, false, now⟩).getD t

def markAsRead (id userId : Nat) (t : MailStore) : MailStore × Bool :=
  match find t id userId with
  | none => (t, false)
  | some n => (t.set { n with status := .read }, true)

def deleteNotification (id userId : Nat) (t : MailStore) : MailStore × Bool :=
  match find t id userId with
  | none => (t, false)
  | some n => (t.deleteWhere fun m => m.id = n.id, true)

def clearAllNotifications (userId : Nat) (t : MailStore) : MailStore × Nat :=
  (t.deleteWhere fun n => n.userId = userId, (t.select fun n => n.userId = userId).length)

def getUnreadCount (userId : Nat) (t : MailStore) : Nat :=
  (t.select fun n => n.userId = userId && n.status = .unread && !n.isArchived).length

/-- The newest first. -/
def getRecentNotifications (userId : Nat) (limit : Option Nat) (t : MailStore) : List NotificationRow :=
  let l := sortOn (fun n => -n.createdAt) (t.select fun n => n.userId = userId && !n.isArchived)
  limit.elim l l.take

/-! ## The routes -/

/-- A notification that some workflow creates, or a post of a user. -/
inductive MailPost where
  | create (id : Nat) (notification : Notification) (now : Int)
  | unreadCount (userId : Nat)
  | notificationList (userId : Nat)
  | index (userId : Nat)
  | markRead (userId id : Nat)
  | apiMarkRead (userId id : Nat)
  /-- `delete_notification` and `api_delete_notification`. -/
  | delete (userId id : Nat)
  /-- `clear_all` and `api_clear_all`. -/
  | clearAll (userId : Nat)
  deriving DecidableEq, Repr

/-- An entry of the list, with the link of its button. -/
structure MailEntry where
  row : NotificationRow
  linkUrl : List Char
  isUnread : Bool
  deriving DecidableEq, Repr

inductive MailAnswer where
  | created
  | count (n : Nat)
  | list (entries : List MailEntry)
  /-- The page, with its counts of unread and read notifications. -/
  | page (notifications : List NotificationRow) (unread read : Nat)
  | notFound
  | forbidden
  | redirect (target : List Char)
  | done (success : Bool)
  | cleared (n : Nat)
  /-- `urlparse` raised. -/
  | serverError
  deriving DecidableEq, Repr

/-- Without the difference between the two refusals. -/
def MailAnswer.blurred : MailAnswer → MailAnswer
  | .forbidden => .notFound
  | a => a

/-- The user who posts, or whom the notification is for. -/
def MailPost.userId : MailPost → Nat
  | .create _ notification _ => notification.userId
  | .unreadCount u | .notificationList u | .index u | .markRead u _ | .apiMarkRead u _ | .delete u _ | .clearAll u => u

section
variable (lib : Redirects.Library) (site : Redirects.Site)

/-- The stored link if it is safe, else the page of notifications. -/
def safeLink (n : NotificationRow) : Option (List Char) := do
  let link := n.notification.linkUrl.toList
  if link = [] then pure (lib.urlFor "notifications.index".toList)
  else
    let safe ← Redirects.validateInternalUrl lib site (some link)
    pure (if safe then link else lib.urlFor "notifications.index".toList)

def entry (n : NotificationRow) : Option MailEntry := (safeLink lib site n).map fun l => ⟨n, l, n.status = .unread⟩

def MailPost.respond (t : MailStore) : MailPost → MailStore × MailAnswer
  | .create id notification now => (createNotification id notification now t, .created)
  | .unreadCount u => (t, .count (getUnreadCount u t))
  | .notificationList u =>
    (t, ((getRecentNotifications u (some 10) t).mapM (entry lib site)).elim .serverError .list)
  | .index u =>
    let l := getRecentNotifications u none t
    (t, .page l (l.countP fun n => n.status = .unread) (l.countP fun n => n.status = .read))
  | .markRead u id =>
    match t.get? id with
    | none => (t, .notFound)
    | some n =>
      if n.userId ≠ u then (t, .forbidden)
      else ((markAsRead id u t).1, (safeLink lib site n).elim .serverError .redirect)
  | .apiMarkRead u id => ((markAsRead id u t).1, .done (markAsRead id u t).2)
  | .delete u id => ((deleteNotification id u t).1, .done (deleteNotification id u t).2)
  | .clearAll u => ((clearAllNotifications u t).1, .cleared (clearAllNotifications u t).2)

def mailStep (t : MailStore) (p : MailPost) : MailStore := (p.respond lib site t).1

def answer (t : MailStore) (p : MailPost) : MailAnswer := (p.respond lib site t).2

end

/-! ## Mailboxes -/

def mailbox (u : Nat) (t : MailStore) : List NotificationRow := t.rows.filter fun n => n.userId = u

def createdIds (posts : List MailPost) : List Nat := posts.filterMap fun
  | .create id _ _ => some id
  | _ => none

/-- The sequence gives every notification a number of its own. -/
structure FreshIds (t : MailStore) (posts : List MailPost) : Prop where
  distinct : (createdIds posts).Nodup
  unused : ∀ id ∈ createdIds posts, id ∉ t.keys

/-- What becomes of a notification: nothing, or it is read. -/
def NotificationRow.Later (n n' : NotificationRow) : Prop := n' = n ∨ n' = { n with status := .read }

/-! ## The services on a mailbox -/

section
variable {t : MailStore} {u v id : Nat}

/-- The row as read, if it is the one. -/
def marked (id userId : Nat) (n : NotificationRow) : NotificationRow :=
  if n.id = id ∧ n.userId = userId then { n with status := .read } else n

@[simp] theorem marked_id (n : NotificationRow) : (marked id v n).id = n.id := by unfold marked; split <;> rfl

@[simp] theorem marked_userId (n : NotificationRow) : (marked id v n).userId = n.userId := by
  unfold marked; split <;> rfl

theorem find_eq (t : MailStore) (id u : Nat) : find t id u = (mailbox u t).find? fun n => n.id = id := by
  simp [find, mailbox, Table.select, List.head?_filter, List.find?_filter, and_comm]

theorem mem_of_find {n : NotificationRow} (h : find t id u = some n) : n ∈ t.rows ∧ n.id = id ∧ n.userId = u := by
  rw [find, Table.select, List.head?_filter] at h
  have hn := List.find?_some h
  simp at hn
  exact ⟨List.mem_of_find?_eq_some h, hn⟩

theorem not_of_find {n : NotificationRow} (h : find t id u = none) (hn : n ∈ t.rows) : ¬ (n.id = id ∧ n.userId = u) := by
  rw [find, Table.select, List.head?_filter, List.find?_eq_none] at h
  simpa using h n hn

/-- The row of a number. -/
theorem eq_of_id {n m : NotificationRow} (hn : n ∈ t.rows) (hm : m ∈ t.rows) (h : n.id = m.id) : n = m :=
  List.inj_on_of_nodup_map t.nodup hn hm h

theorem rows_markAsRead (id u : Nat) (t : MailStore) : (markAsRead id u t).1.rows = t.rows.map (marked id u) := by
  unfold markAsRead
  split
  · rename_i hnone
    have hid : ∀ n ∈ t.rows, marked id u n = n := fun n hn => if_neg (not_of_find hnone hn)
    simpa using (List.map_congr_left hid).symm
  · rename_i n hsome
    obtain ⟨hn, hid, hu⟩ := mem_of_find hsome
    refine List.map_congr_left fun m hm => ?_
    by_cases he : m.id = n.id
    · cases eq_of_id hm hn he
      simp [key, marked, hid, hu]
    · have hne : ¬ (m.id = id ∧ m.userId = u) := fun h => he (h.1.trans hid.symm)
      simp [key, marked, he, hne]

theorem rows_deleteNotification (id u : Nat) (t : MailStore) :
    (deleteNotification id u t).1.rows = t.rows.filter fun n => !(n.id = id && n.userId = u) := by
  unfold deleteNotification
  split
  · rename_i hnone
    refine (List.filter_eq_self.2 fun n hn => ?_).symm
    have hne := not_of_find hnone hn
    by_cases hid : n.id = id <;> simp_all
  · rename_i n hsome
    obtain ⟨hn, hid, hu⟩ := mem_of_find hsome
    refine List.filter_congr fun m hm => ?_
    by_cases he : m.id = n.id
    · cases eq_of_id hm hn he
      simp [hid, hu]
    · have hne : m.id ≠ id := fun h => he (h.trans hid.symm)
      simp [he, hne]

theorem rows_createNotification {notification : Notification} {now : Int} (h : id ∉ t.keys) :
    (createNotification id notification now t).rows = t.rows ++ [⟨id, notification, .unread, false, now⟩] := by
  have hkey : ¬ key (⟨id, notification, .unread, false, now⟩ : NotificationRow) ∈ t.keys := h
  simp [createNotification, Table.insert, hkey]

/-- What a post makes of the mailbox of `u`. -/
def MailPost.effect (u : Nat) : MailPost → List NotificationRow → List NotificationRow
  | .create id notification now, l =>
    if notification.userId = u then l ++ [⟨id, notification, .unread, false, now⟩] else l
  | .markRead v id, l | .apiMarkRead v id, l => l.map (marked id v)
  | .delete v id, l => l.filter fun n => !(n.id = id && n.userId = v)
  | .clearAll v, l => l.filter fun n => !(n.userId = v)
  | .unreadCount _, l | .notificationList _, l | .index _, l => l

theorem mailbox_marked {t' : MailStore} (h : t'.rows = t.rows.map (marked id v)) :
    mailbox u t' = (mailbox u t).map (marked id v) := by
  rw [mailbox, h, List.filter_map]
  congr 1
  exact List.filter_congr fun n _ => by simp

end

section
variable {lib : Redirects.Library} {site : Redirects.Site} {t t' : MailStore} {p : MailPost} {posts : List MailPost} {u : Nat}

/-- The page marks what the service would mark. -/
theorem rows_markRead (v id : Nat) (t : MailStore) :
    (mailStep lib site t (.markRead v id)).rows = t.rows.map (marked id v) := by
  have hskip : (∀ n ∈ t.rows, ¬ (n.id = id ∧ n.userId = v)) → t.rows = t.rows.map (marked id v) := by
    intro h
    have hid : ∀ n ∈ t.rows, marked id v n = n := fun n hn => if_neg (h n hn)
    simpa using (List.map_congr_left hid).symm
  cases hg : t.get? id with
  | none =>
    have hnone := Table.get?_eq_none.1 hg
    simp only [mailStep, MailPost.respond, hg]
    exact hskip fun n hn h => hnone (h.1 ▸ List.mem_map_of_mem hn)
  | some n =>
    obtain ⟨hn, hid⟩ := Table.get?_eq_some.1 hg
    by_cases hv : n.userId = v
    · simp [mailStep, MailPost.respond, hg, hv, rows_markAsRead]
    · simp only [mailStep, MailPost.respond, hg, hv, ne_eq, not_false_eq_true, if_true]
      refine hskip fun m hm h => hv ?_
      rw [← eq_of_id hm hn (h.1.trans hid.symm)]
      exact h.2

/-- **What a post does to a mailbox** depends on that mailbox alone. -/
theorem mailbox_step (h : FreshIds t (p :: posts)) : mailbox u (mailStep lib site t p) = p.effect u (mailbox u t) := by
  cases p with
  | create id notification now =>
    have hid : id ∉ t.keys := h.unused id (by simp [createdIds])
    have hrows : (mailStep lib site t (.create id notification now)).rows = _ := rows_createNotification hid
    rw [mailbox, hrows, List.filter_append, MailPost.effect, mailbox]
    by_cases hu : notification.userId = u <;> simp [NotificationRow.userId, hu]
  | unreadCount v => rfl
  | notificationList v => rfl
  | index v => rfl
  | markRead v id => exact mailbox_marked (rows_markRead v id t)
  | apiMarkRead v id => exact mailbox_marked (rows_markAsRead id v t)
  | delete v id =>
    have hrows : (mailStep lib site t (.delete v id)).rows = _ := rows_deleteNotification id v t
    rw [mailbox, hrows, MailPost.effect, mailbox, List.filter_filter, List.filter_filter]
    exact List.filter_congr fun n _ => Bool.and_comm _ _
  | clearAll v =>
    have hrows : (mailStep lib site t (.clearAll v)).rows = t.rows.filter fun n => !(n.userId = v) := rfl
    rw [mailbox, hrows, MailPost.effect, mailbox, List.filter_filter, List.filter_filter]
    exact List.filter_congr fun n _ => Bool.and_comm _ _

/-- The posts of the others leave it as it is. -/
theorem effect_of_ne (hp : p.userId ≠ u) (t : MailStore) : p.effect u (mailbox u t) = mailbox u t := by
  have hown : ∀ n ∈ mailbox u t, n.userId = u := fun n hn => by simpa using (List.mem_filter.1 hn).2
  have hmark : ∀ v id, v ≠ u → (mailbox u t).map (marked id v) = mailbox u t := by
    intro v id hv
    have hid : ∀ n ∈ mailbox u t, marked id v n = n := fun n hn => if_neg fun h => hv (h.2.symm.trans (hown n hn))
    simpa using List.map_congr_left hid
  cases p with
  | create id notification now => exact if_neg hp
  | unreadCount v => rfl
  | notificationList v => rfl
  | index v => rfl
  | markRead v id => exact hmark v id hp
  | apiMarkRead v id => exact hmark v id hp
  | delete v id =>
    refine List.filter_eq_self.2 fun n hn => ?_
    have hv : n.userId ≠ v := fun h => hp (h.symm.trans (hown n hn))
    simp [hv]
  | clearAll v =>
    refine List.filter_eq_self.2 fun n hn => ?_
    have hv : n.userId ≠ v := fun h => hp (h.symm.trans (hown n hn))
    simp [hv]

/-! ## Answers -/

theorem getUnreadCount_eq (u : Nat) (t : MailStore) :
    getUnreadCount u t = (mailbox u t).countP fun n => n.status = .unread && !n.isArchived := by
  rw [getUnreadCount, Table.select, mailbox, List.countP_eq_length_filter, List.filter_filter]
  congr 1
  refine List.filter_congr fun n _ => ?_
  cases decide (n.userId = u) <;> simp

theorem getRecentNotifications_eq (limit : Option Nat) (h : mailbox u t = mailbox u t') :
    getRecentNotifications u limit t = getRecentNotifications u limit t' := by
  have hsel : ∀ t : MailStore, (t.select fun n => n.userId = u && !n.isArchived) =
      (mailbox u t).filter fun n => !n.isArchived := fun t => by
    rw [mailbox, List.filter_filter, Table.select]
    exact List.filter_congr fun n _ => Bool.and_comm _ _
  simp [getRecentNotifications, hsel, h]

theorem find_of_get? {id v : Nat} {n : NotificationRow} (h : t.get? id = some n) :
    find t id v = if n.userId = v then some n else none := by
  obtain ⟨hn, hid⟩ := Table.get?_eq_some.1 h
  cases hf : find t id v with
  | none =>
    have hv : ¬ n.userId = v := fun hv => not_of_find hf hn ⟨hid, hv⟩
    simp [hv]
  | some m =>
    obtain ⟨hm, hmid, hmv⟩ := mem_of_find hf
    cases eq_of_id hm hn (hmid.trans hid.symm)
    simp [hmv]

theorem find_of_get?_none {id : Nat} (h : t.get? id = none) (v : Nat) : find t id v = none := by
  cases hf : find t id v with
  | none => rfl
  | some n =>
    obtain ⟨hn, hid, -⟩ := mem_of_find hf
    exact absurd (hid ▸ List.mem_map_of_mem hn) (Table.get?_eq_none.1 h)

/-- The page looks in the whole table, and answers what it would answer to a look in the mailbox. -/
theorem answer_markRead (v id : Nat) (t : MailStore) : (answer lib site t (.markRead v id)).blurred =
    (find t id v).elim .notFound fun n => (safeLink lib site n).elim .serverError .redirect := by
  cases hg : t.get? id with
  | none => simp [answer, MailPost.respond, hg, find_of_get?_none hg, MailAnswer.blurred]
  | some n =>
    rw [find_of_get? hg]
    by_cases hv : n.userId = v
    · cases hl : safeLink lib site n <;> simp [answer, MailPost.respond, hg, hv, hl, MailAnswer.blurred]
    · simp [answer, MailPost.respond, hg, hv, MailAnswer.blurred]

/-- **The answer to a user** depends on the user's mailbox alone, but for the two refusals. -/
theorem answer_eq (h : mailbox p.userId t = mailbox p.userId t') :
    (answer lib site t p).blurred = (answer lib site t' p).blurred := by
  have hfind : ∀ id, find t id p.userId = find t' id p.userId := fun id => by rw [find_eq, find_eq, h]
  cases p with
  | create id notification now => rfl
  | unreadCount v =>
    have hv : mailbox v t = mailbox v t' := h
    simp only [answer, MailPost.respond, getUnreadCount_eq, hv]
  | notificationList v =>
    have hv : mailbox v t = mailbox v t' := h
    simp only [answer, MailPost.respond, getRecentNotifications_eq _ hv]
  | index v =>
    have hv : mailbox v t = mailbox v t' := h
    simp only [answer, MailPost.respond, getRecentNotifications_eq _ hv]
  | markRead v id =>
    have hv : find t id v = find t' id v := hfind id
    rw [answer_markRead, answer_markRead, hv]
  | apiMarkRead v id =>
    have hv : find t id v = find t' id v := hfind id
    simp only [answer, MailPost.respond, markAsRead, hv]
    cases find t' id v <;> rfl
  | delete v id =>
    have hv : find t id v = find t' id v := hfind id
    simp only [answer, MailPost.respond, deleteNotification, hv]
    cases find t' id v <;> rfl
  | clearAll v =>
    have hlen : (t.select fun n => n.userId = v).length = (t'.select fun n => n.userId = v).length :=
      congrArg List.length h
    simp only [answer, MailPost.respond, clearAllNotifications, hlen]

/-! ## Runs -/

/-- **What a post leaves of the table**: rows that were there, and the new one. -/
theorem mem_step {n : NotificationRow} (hn : n ∈ (mailStep lib site t p).rows) :
    (∃ m ∈ t.rows, m.Later n) ∨ n.id ∈ createdIds [p] := by
  have hmark : ∀ v id, n ∈ t.rows.map (marked id v) → ∃ m ∈ t.rows, m.Later n := by
    intro v id h
    obtain ⟨m, hm, rfl⟩ := List.mem_map.1 h
    refine ⟨m, hm, ?_⟩
    unfold marked
    split
    · exact .inr rfl
    · exact .inl rfl
  cases p with
  | create id notification now =>
    simp only [mailStep, MailPost.respond, createNotification] at hn
    cases hi : t.insert ⟨id, notification, .unread, false, now⟩ with
    | none =>
      rw [hi] at hn
      exact .inl ⟨n, hn, .inl rfl⟩
    | some t' =>
      obtain ⟨-, hrows⟩ := Table.insert_eq_some.1 hi
      simp only [hi, Option.getD_some, hrows, List.mem_append, List.mem_singleton] at hn
      rcases hn with hn | rfl
      · exact .inl ⟨n, hn, .inl rfl⟩
      · exact .inr (by simp [createdIds])
  | unreadCount v => exact .inl ⟨n, hn, .inl rfl⟩
  | notificationList v => exact .inl ⟨n, hn, .inl rfl⟩
  | index v => exact .inl ⟨n, hn, .inl rfl⟩
  | markRead v id => exact .inl (hmark v id (rows_markRead v id t ▸ hn))
  | apiMarkRead v id => exact .inl (hmark v id (rows_markAsRead id v t ▸ hn))
  | delete v id =>
    have hrows : (mailStep lib site t (.delete v id)).rows = _ := rows_deleteNotification id v t
    rw [hrows] at hn
    exact .inl ⟨n, (List.mem_filter.1 hn).1, .inl rfl⟩
  | clearAll v => exact .inl ⟨n, (List.mem_filter.1 hn).1, .inl rfl⟩

theorem NotificationRow.Later.id_eq {n m : NotificationRow} (h : n.Later m) : m.id = n.id := by
  rcases h with rfl | rfl <;> rfl

theorem NotificationRow.Later.trans {n m k : NotificationRow} (h : n.Later m) (h' : m.Later k) : n.Later k := by
  rcases h with rfl | rfl
  · exact h'
  · rcases h' with rfl | rfl <;> exact .inr rfl

theorem createdIds_cons (p : MailPost) (posts : List MailPost) :
    createdIds (p :: posts) = createdIds [p] ++ createdIds posts := by cases p <;> simp [createdIds]

theorem FreshIds.tail (h : FreshIds t (p :: posts)) : FreshIds (mailStep lib site t p) posts := by
  have hdistinct := h.distinct
  rw [createdIds_cons, List.nodup_append] at hdistinct
  refine ⟨hdistinct.2.1, fun id hid hkey => ?_⟩
  obtain ⟨n, hn, rfl⟩ := List.mem_map.1 hkey
  rcases mem_step hn with ⟨m, hm, hlater⟩ | hnew
  · refine h.unused n.id ?_ (hlater.id_eq ▸ List.mem_map_of_mem hm)
    rw [createdIds_cons]
    exact List.mem_append_right _ hid
  · exact hdistinct.2.2 _ hnew _ hid rfl

theorem FreshIds.filter (h : FreshIds t posts) (q : MailPost → Bool) : FreshIds t (posts.filter q) := by
  have hsub : (createdIds (posts.filter q)).Sublist (createdIds posts) := List.filter_sublist.filterMap _
  exact ⟨h.distinct.sublist hsub, fun id hid => h.unused id (hsub.mem hid)⟩

/-- What was there of a number is there unchanged, or read, or not at all. -/
theorem mem_run {n : NotificationRow} (hn : n ∈ (run (mailStep lib site) t posts).rows) :
    (∃ m ∈ t.rows, m.Later n) ∨ n.id ∈ createdIds posts := by
  induction posts generalizing t with
  | nil => exact .inl ⟨n, hn, .inl rfl⟩
  | cons p posts ih =>
    rw [createdIds_cons]
    rcases ih hn with ⟨m, hm, hlater⟩ | hnew
    · rcases mem_step hm with ⟨k, hk, hstep⟩ | hnew
      · exact .inl ⟨k, hk, hstep.trans hlater⟩
      · exact .inr (List.mem_append_left _ (hlater.id_eq ▸ hnew))
    · exact .inr (List.mem_append_right _ hnew)

/-- **Mailboxes are separate**: a user finds what the user's own posts and notifications make, and is answered by it. And
a number that is known keeps its notification: it is not changed but for being read, and once deleted it does not come
back. -/
theorem mailboxes_separate (lib : Redirects.Library) (site : Redirects.Site) (t : MailStore) (posts : List MailPost)
    (h : FreshIds t posts) :
    (∀ u : Nat, let own := posts.filter fun p => p.userId = u
      mailbox u (run (mailStep lib site) t posts) = mailbox u (run (mailStep lib site) t own) ∧
      trace (mailStep lib site) (fun t p => (answer lib site t p).blurred) (fun p => p.userId = u) t posts =
        trace (mailStep lib site) (fun t p => (answer lib site t p).blurred) (fun p => p.userId = u) t own) ∧
    ∀ ps qs, posts = ps ++ qs → ∀ n ∈ (run (mailStep lib site) t posts).rows, n.id ∈ t.keys ++ createdIds ps →
      ∃ m ∈ (run (mailStep lib site) t ps).rows, m.Later n := by
  refine ⟨fun u => ?_, ?_⟩
  · refine unwinding (R := fun t t' => mailbox u t = mailbox u t') (Q := FreshIds) (fun _ _ _ h => h.tail) ?_ ?_ rfl h
      (h.filter _)
    · intro t t' p posts posts' hR hQ hQ' hp
      have hu : p.userId = u := by simpa using hp
      refine ⟨?_, answer_eq (hu ▸ hR)⟩
      rw [mailbox_step hQ, mailbox_step hQ', hR]
    · intro t t' p posts hR hQ hp
      have hu : p.userId ≠ u := by simpa using hp
      rw [mailbox_step hQ, effect_of_ne hu, hR]
  · rintro ps qs rfl n hn hid
    rw [run_append] at hn
    rcases mem_run hn with hlater | hnew
    · exact hlater
    · exfalso
      have hnew' : n.id ∈ createdIds (ps ++ qs) := by
        rw [createdIds, List.filterMap_append]
        exact List.mem_append_right _ hnew
      rcases List.mem_append.1 hid with hkey | hold
      · exact h.unused _ hnew' hkey
      · have hdistinct := h.distinct
        rw [createdIds, List.filterMap_append, List.nodup_append] at hdistinct
        exact hdistinct.2.2 _ hold _ hnew rfl

end

/-! ## Two users -/

def dispatched (userId : Nat) : Notification :=
  { userId := userId, title := "Package Dispatched", message := "On its way.", type := .packageDispatched
    linkUrl := "/requests/1", reliefrqstId := some 1 }

/-- A notification each; the first user reads the other's, and deletes the own one. -/
def twoUsers : List MailPost :=
  [.create 1 (dispatched 1) 100, .create 2 (dispatched 2) 100, .markRead 1 2, .markRead 2 2, .delete 1 1, .index 2]

theorem freshIds_twoUsers : FreshIds Table.empty twoUsers := ⟨by decide, fun _ _ h => by cases h⟩

theorem mailboxes_separate_twoUsers :
    mailbox 2 (run (mailStep Redirects.asciiLibrary Redirects.officeSite) Table.empty twoUsers) =
      [⟨2, dispatched 2, .read, false, 100⟩] :=
  (((mailboxes_separate Redirects.asciiLibrary Redirects.officeSite Table.empty twoUsers freshIds_twoUsers).1 2).1).trans
    (by decide +kernel)

/-- The notification of another user is refused otherwise than one that is not there. -/
example :
    answer Redirects.asciiLibrary Redirects.officeSite (createNotification 2 (dispatched 2) 100 Table.empty) (.markRead 1 2) =
      .forbidden ∧
    answer Redirects.asciiLibrary Redirects.officeSite Table.empty (.markRead 1 2) = .notFound := by
  decide +kernel

end Mail

end Dmis
