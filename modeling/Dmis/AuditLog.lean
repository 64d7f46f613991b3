import Dmis.Lib.Fields
import Dmis.Lib.Lists
import Dmis.Lib.PythonText
import Mathlib.Data.List.Infix
import Mathlib.Data.Char

/-!
# Audit lines

`audit_log` writes one line of `name=value` fields, joined by blanks, that a log server reads back
(`app/security/audit_logger.py:167-230`). Texts go through `sanitize_for_log`, whose purpose is that nothing a user
types can forge an entry (`log_sanitizer.py:4-12`). A text is the list of its characters.

| here | there |
| --- | --- |
| `sanitizeForLog`, `sanitizeDictForLog` | `app/security/log_sanitizer.py:25-75`, `:113-151` |
| `getClientIp` | `_get_client_ip` (`audit_logger.py:134-146`) |
| `isoformat` | `_get_jamaica_timestamp` |
| `headFields`, `auditLog` | `log_parts` and the call of the logger in `audit_log` |

The sanitizer replaces control characters and leaves blanks and equals signs; the address and the keys of the details
do not go through it. Main theorem `audit_line_unforged_iff`: the line is free of control characters and reads back as
it was meant exactly when no visible blank is in the user id and the target, no blank or control character in the
address, and no visible control character in a key.
-/

namespace Dmis

open Relational Python

namespace AuditLog

abbrev Text := List Char

/-! ## Sanitizing -/

/-- C0 and DEL. -/
def isControl (c : Char) : Bool := c.toNat < 32 || c.toNat = 127

/-- `s.replace("\\r\\n", "[CRLF]")`. -/
def markCrlf : Text → Text
  | c :: d :: s => if c = '\r' ∧ d = '\n' then "[CRLF]".toList ++ markCrlf s else c :: markCrlf (d :: s)
  | [c] => [c]
  | [] => []

/-- The replacements after the first. -/
def mark (c : Char) : Text :=
  if c = '\n' then "[LF]".toList
  else if c = '\r' then "[CR]".toList
  else if c = '\t' then "[TAB]".toList
  else if isControl c then "[CTRL]".toList
  else [c]

def marked (s : Text) : Text := (markCrlf s).flatMap mark

def truncate (maxLength : ℕ) (suffix s : Text) : Text :=
  if maxLength < s.length then s.take maxLength ++ suffix else s

def sanitizeForLog (maxLength : ℕ) : Option Text → Text
  | none => "[None]".toList
  | some s => truncate maxLength "...(truncated)".toList (marked s)

def sensitiveKeys : List Text :=
  ["password", "secret", "token", "key", "auth", "credential", "ssn", "credit_card", "card_number", "cvv", "pin"].map
    String.toList

/-- A key of the details and the text of its value, `none` for `None`. -/
abbrev Detail := Text × Option Text

/-- `lower` is `str.lower`. -/
def detailText (lower : Text → Text) (d : Detail) : Text :=
  if ∃ sensitive ∈ sensitiveKeys, sensitive <:+: lower d.1 then d.1 ++ "=[REDACTED]".toList
  else d.1 ++ '=' :: sanitizeForLog 100 d.2

def dictText (lower : Text → Text) (details : List Detail) : Text :=
  '{' :: ((", ".toList).intercalate (details.map (detailText lower)) ++ ['}'])

def sanitizeDictForLog (lower : Text → Text) (details : List Detail) : Text :=
  truncate 500 "...(truncated)\x7d".toList (dictText lower details)

/-! ## The request -/

structure Request where
  /-- `X-Forwarded-For`. -/
  forwardedFor : Option Text
  remoteAddr : Option Text

/-- `None` and the empty text are false. -/
def truthy (s : Option Text) : Option Text := s.filter (· ≠ [])

/-- The first address of the header, or the peer; `none` outside a request. -/
def getClientIp (req : Option Request) : Option Text :=
  req.bind fun r =>
    match truthy r.forwardedFor with
    | some header => some (strip (header.takeWhile (· ≠ ',')))
    | none => r.remoteAddr

/-! ## The event -/

inductive AuditCategory where
  | authentication | authorization | userManagement | dataAccess | system | security
  deriving DecidableEq, Repr

def AuditCategory.value : AuditCategory → String
  | authentication => "AUTHENTICATION" | authorization => "AUTHORIZATION" | userManagement => "USER_MGMT"
  | dataAccess => "DATA_ACCESS" | system => "SYSTEM" | security => "SECURITY"

inductive AuditAction where
  | loginSuccess | loginFailure | loginLocked | loginInactive | logout | sessionExpired
  | accessGranted | accessDenied | privilegeCheck | roleRequired
  | userCreate | userUpdate | userDelete | userLock | userUnlock | roleAssign | roleRevoke | passwordChange
  | passwordReset
  | create | read | update | delete | exportData | importData
  | dispatch | cancel | approve | reject | verify | submit
  | configChange | rateLimitExceeded | csrfViolation | invalidInput | securityAlert
  deriving DecidableEq, Repr

def AuditAction.value : AuditAction → String
  | loginSuccess => "LOGIN_SUCCESS" | loginFailure => "LOGIN_FAILURE" | loginLocked => "LOGIN_LOCKED"
  | loginInactive => "LOGIN_INACTIVE" | logout => "LOGOUT" | sessionExpired => "SESSION_EXPIRED"
  | accessGranted => "ACCESS_GRANTED" | accessDenied => "ACCESS_DENIED" | privilegeCheck => "PRIVILEGE_CHECK"
  | roleRequired => "ROLE_REQUIRED"
  | userCreate => "USER_CREATE" | userUpdate => "USER_UPDATE" | userDelete => "USER_DELETE"
  | userLock => "USER_LOCK" | userUnlock => "USER_UNLOCK" | roleAssign => "ROLE_ASSIGN"
  | roleRevoke => "ROLE_REVOKE" | passwordChange => "PASSWORD_CHANGE" | passwordReset => "PASSWORD_RESET"
  | create => "CREATE" | read => "READ" | update => "UPDATE" | delete => "DELETE"
  | exportData => "EXPORT" | importData => "IMPORT"
  | dispatch => "DISPATCH" | cancel => "CANCEL" | approve => "APPROVE" | reject => "REJECT" | verify => "VERIFY"
  | submit => "SUBMIT"
  | configChange => "CONFIG_CHANGE" | rateLimitExceeded => "RATE_LIMIT_EXCEEDED"
  | csrfViolation => "CSRF_VIOLATION" | invalidInput => "INVALID_INPUT" | securityAlert => "SECURITY_ALERT"

inductive AuditOutcome where
  | success | failure | denied | error
  deriving DecidableEq, Repr

def AuditOutcome.value : AuditOutcome → String
  | success => "SUCCESS" | failure => "FAILURE" | denied => "DENIED" | error => "ERROR"

/-- `Union[int, str]`. -/
inductive Ident where
  | int (n : ℤ)
  | str (s : Text)
  deriving DecidableEq, Repr

def Ident.text : Ident → Text
  | int n => (toString n).toList
  | str s => s

/-- The arguments of `audit_log`. -/
structure Entry where
  category : AuditCategory
  action : AuditAction
  userId : Option Ident
  targetEntity : Option Text
  targetId : Option Ident
  outcome : AuditOutcome
  details : Option (List Detail)
  level : ℕ

/-- A naive `datetime`. -/
structure DateTime where
  year : ℕ
  month : ℕ
  day : ℕ
  hour : ℕ
  minute : ℕ
  second : ℕ
  microsecond : ℕ

/-- A number with leading zeros. -/
def padded (width n : ℕ) : Text := List.replicate (width - (Nat.toDigits 10 n).length) '0' ++ Nat.toDigits 10 n

/-- `datetime.isoformat()`; microseconds only if there are some. -/
def isoformat (t : DateTime) : Text :=
  padded 4 t.year ++ '-' :: padded 2 t.month ++ '-' :: padded 2 t.day ++ 'T' :: padded 2 t.hour ++
    ':' :: padded 2 t.minute ++ ':' :: padded 2 t.second ++
    if t.microsecond = 0 then [] else '.' :: padded 6 t.microsecond

/-! ## The line -/

/-- An id of 0 and an empty id are false. -/
def userText (e : Entry) : Text :=
  match e.userId with
  | none | some (.int 0) | some (.str []) => "anonymous".toList
  | some u => sanitizeForLog 500 (some u.text)

def targetText (e : Entry) : Option Text :=
  (truthy e.targetEntity).map fun entity =>
    match e.targetId with
    | some id => sanitizeForLog 500 (some entity) ++ ':' :: sanitizeForLog 500 (some id.text)
    | none => sanitizeForLog 500 (some entity)

/-- `None` and the empty dictionary are false. -/
def detailsText (lower : Text → Text) (e : Entry) : Option Text :=
  (e.details.filter (· ≠ [])).map (sanitizeDictForLog lower)

/-- The parts before the details, names and values. -/
def headFields (now : DateTime) (req : Option Request) (e : Entry) : List (Text × Text) :=
  [("timestamp".toList, isoformat now), ("category".toList, e.category.value.toList),
    ("action".toList, e.action.value.toList), ("user_id".toList, userText e)] ++
    (truthy (targetText e)).toList.map (Prod.mk "target".toList) ++
    ("outcome".toList, e.outcome.value.toList) ::
      (truthy (getClientIp req)).toList.map (Prod.mk "ip".toList)

def logMessage (lower : Text → Text) (now : DateTime) (req : Option Request) (e : Entry) : Text :=
  [' '].intercalate ((headFields now req e ++
    (truthy (detailsText lower e)).toList.map (Prod.mk "details".toList)).map (Fields.field '='))

/-- `logging.WARNING`. -/
def warning : ℕ := 30

/-- The level and the message that are passed to the logger. -/
def auditLog (lower : Text → Text) (now : DateTime) (req : Option Request) (e : Entry) : ℕ × Text :=
  (if e.outcome = .success then e.level else max e.level warning, logMessage lower now req e)

/-! ## What the line should be -/

/-- What is read of a line before its details. -/
def readFields (message : Text) : List (Text × Text) :=
  Fields.before "details".toList (Fields.parse ' ' '=' message)

def readValues (name : String) (message : Text) : List Text := Fields.valuesOf name.toList (readFields message)

/-- No control character, and each field once, with the value it was given. -/
structure Unforged (req : Option Request) (e : Entry) (message : Text) : Prop where
  clean : ∀ c ∈ message, isControl c = false
  category : readValues "category" message = [e.category.value.toList]
  action : readValues "action" message = [e.action.value.toList]
  userId : readValues "user_id" message = [userText e]
  target : readValues "target" message = (targetText e).toList
  outcome : readValues "outcome" message = [e.outcome.value.toList]
  ip : readValues "ip" message = (truthy (getClientIp req)).toList

/-- A blank of the text stands behind the 500 characters that are shown. -/
def HidesBlanks (s : Text) : Prop := ∀ pre post, s = pre ++ ' ' :: post → 500 ≤ (marked pre).length

/-- What stands before a key: the brace and the details before it. -/
def opening (lower : Text → Text) (pre : List Detail) : Text :=
  '{' :: pre.flatMap fun d => detailText lower d ++ ", ".toList

/-- A control character of a key stands behind the 500 characters that are shown of the details. -/
def HidesControls (lower : Text → Text) (details : List Detail) : Prop :=
  ∀ pre key value post, details = pre ++ (key, value) :: post → ∀ k c k', key = k ++ c :: k' → isControl c = true →
    500 ≤ (opening lower pre).length + k.length

structure Harmless (lower : Text → Text) (req : Option Request) (e : Entry) : Prop where
  userId : ∀ u ∈ e.userId, HidesBlanks u.text
  target : ∀ entity ∈ truthy e.targetEntity, HidesBlanks entity ∧ ∀ id ∈ e.targetId, HidesBlanks id.text
  ip : ∀ ip ∈ getClientIp req, ∀ c ∈ ip, c ≠ ' ' ∧ isControl c = false
  keys : ∀ details ∈ e.details, HidesControls lower details

/-! ## Sanitized texts -/

/-- Neither a blank nor a control character. -/
def Plain (s : Text) : Prop := ∀ c ∈ s, c ≠ ' ' ∧ isControl c = false

instance (s : Text) : Decidable (Plain s) :=
  decidable_of_iff ((s.all fun c => c ≠ ' ' && !isControl c) = true) (by simp [Plain])

theorem plain_append {s t : Text} : Plain (s ++ t) ↔ Plain s ∧ Plain t := List.forall_mem_append

theorem plain_cons {c : Char} {s : Text} : Plain (c :: s) ↔ (c ≠ ' ' ∧ isControl c = false) ∧ Plain s :=
  List.forall_mem_cons

theorem Plain.blank {s : Text} (h : Plain s) : ' ' ∉ s := fun hm => (h _ hm).1 rfl

theorem Plain.clean {s : Text} (h : Plain s) : ∀ c ∈ s, isControl c = false := fun c hc => (h c hc).2

theorem clean_of_all {s : Text} (h : (s.all fun c => !isControl c) = true) : ∀ c ∈ s, isControl c = false := by
  simpa using h

theorem marks_plain : ∀ m ∈ ["[LF]", "[CR]", "[TAB]", "[CTRL]", "[None]", "...(truncated)"], Plain m.toList := by
  decide +kernel

theorem mark_clean {c d : Char} (h : d ∈ mark c) : isControl d = false := by
  unfold mark at h
  split_ifs at h with hlf hcr htab hctrl
  · exact (marks_plain "[LF]" (by simp)).clean d h
  · exact (marks_plain "[CR]" (by simp)).clean d h
  · exact (marks_plain "[TAB]" (by simp)).clean d h
  · exact (marks_plain "[CTRL]" (by simp)).clean d h
  · rw [List.mem_singleton.1 h]
    simpa using hctrl

theorem marked_clean {s : Text} {c : Char} (h : c ∈ marked s) : isControl c = false := by
  obtain ⟨d, -, hc⟩ := List.mem_flatMap.1 h
  exact mark_clean hc

/-- A property of the suffix holds of a truncated text if it holds of what is shown. -/
theorem forall_mem_truncate {p : Char → Prop} {n : ℕ} {suffix s : Text} (h : ∀ c ∈ suffix, p c) :
    (∀ c ∈ truncate n suffix s, p c) ↔ ∀ c ∈ s.take n, p c := by
  unfold truncate
  split
  · rw [List.forall_mem_append]
    exact and_iff_left h
  · rename_i hlen
    rw [List.take_of_length_le (not_lt.1 hlen)]

theorem sanitizeForLog_some (n : ℕ) (s : Text) :
    sanitizeForLog n (some s) = truncate n "...(truncated)".toList (marked s) := rfl

theorem sanitizeForLog_clean {n : ℕ} {s : Option Text} : ∀ c ∈ sanitizeForLog n s, isControl c = false := by
  cases s with
  | none => exact (marks_plain "[None]" (by simp)).clean
  | some s =>
    refine (forall_mem_truncate (marks_plain "...(truncated)" (by simp)).clean).2 fun c hc => ?_
    exact marked_clean (List.mem_of_mem_take hc)

theorem marked_ne_nil {s : Text} (h : s ≠ []) : marked s ≠ [] := by
  obtain ⟨c, t, hct⟩ : ∃ c t, markCrlf s = c :: t := by
    cases s with
    | nil => exact absurd rfl h
    | cons c s =>
      cases s with
      | nil => exact ⟨c, [], rfl⟩
      | cons d s =>
        unfold markCrlf
        split
        · exact ⟨_, _, rfl⟩
        · exact ⟨_, _, rfl⟩
  have hmark : mark c ≠ [] := by
    unfold mark
    split_ifs <;> simp
  simp [marked, hct, hmark]

theorem sanitizeForLog_ne_nil {s : Text} (h : s ≠ []) : sanitizeForLog 500 (some s) ≠ [] := by
  rw [sanitizeForLog_some]
  unfold truncate
  split
  · exact fun he => absurd (List.append_eq_nil_iff.1 he).2 (by decide)
  · exact marked_ne_nil h

/-! ## Blanks -/

/-- Only a blank is marked with a blank. -/
theorem eq_of_mark {c : Char} {u v : Text} (h : mark c = u ++ ' ' :: v) : c = ' ' ∧ u = [] ∧ v = [] := by
  have hmem : ' ' ∈ mark c := by simp [h]
  unfold mark at h hmem
  split_ifs at h hmem
  · exact absurd hmem (marks_plain "[LF]" (by simp)).blank
  · exact absurd hmem (marks_plain "[CR]" (by simp)).blank
  · exact absurd hmem (marks_plain "[TAB]" (by simp)).blank
  · exact absurd hmem (marks_plain "[CTRL]" (by simp)).blank
  · obtain ⟨rfl, h'⟩ | ⟨u', rfl, h'⟩ := List.cons_eq_append_iff.1 h
    · cases h'
      exact ⟨rfl, rfl, rfl⟩
    · simp at h'

theorem markCrlf_of_not {c d : Char} {s : Text} (h : ¬ (c = '\r' ∧ d = '\n')) :
    markCrlf (c :: d :: s) = c :: markCrlf (d :: s) := by
  rw [markCrlf, if_neg h]

theorem markCrlf_blank (s : Text) : markCrlf (' ' :: s) = ' ' :: markCrlf s := by
  cases s with
  | nil => rfl
  | cons d s => exact markCrlf_of_not fun h => absurd h.1 (by decide)

theorem markCrlf_append (pre post : Text) : markCrlf (pre ++ ' ' :: post) = markCrlf pre ++ ' ' :: markCrlf post := by
  induction pre using markCrlf.induct with
  | case1 c d s h ih =>
    rw [List.cons_append, List.cons_append, markCrlf, if_pos h, ih, markCrlf, if_pos h, List.append_assoc]
  | case2 c d s h ih =>
    rw [List.cons_append, List.cons_append, markCrlf_of_not h, ← List.cons_append, ih, markCrlf_of_not h]
    rfl
  | case3 c =>
    show markCrlf (c :: ' ' :: post) = c :: ' ' :: markCrlf post
    rw [markCrlf_of_not fun h => absurd h.2 (by decide), markCrlf_blank]
  | case4 => exact markCrlf_blank post

/-- A blank that is left is a blank of the text. -/
theorem exists_of_markCrlf {s u v : Text} (h : markCrlf s = u ++ ' ' :: v) :
    ∃ pre post, s = pre ++ ' ' :: post ∧ markCrlf pre = u := by
  induction s using markCrlf.induct generalizing u with
  | case1 c d s hcd ih =>
    rw [markCrlf, if_pos hcd] at h
    obtain ⟨w, rfl, hs⟩ := exists_right_of_append_eq h (by decide)
    obtain ⟨pre, post, rfl, rfl⟩ := ih hs
    exact ⟨c :: d :: pre, post, rfl, by rw [markCrlf, if_pos hcd]⟩
  | case2 c d s hcd ih =>
    rw [markCrlf_of_not hcd] at h
    cases u with
    | nil =>
      obtain ⟨rfl, -⟩ := List.cons.inj h
      exact ⟨[], d :: s, rfl, rfl⟩
    | cons b u =>
      obtain ⟨rfl, htail⟩ := List.cons.inj h
      obtain ⟨pre, post, hs, rfl⟩ := ih htail
      cases pre with
      | nil =>
        obtain ⟨rfl, rfl⟩ := List.cons.inj hs
        exact ⟨[c], s, rfl, rfl⟩
      | cons b pre =>
        obtain ⟨rfl, rfl⟩ := List.cons.inj hs
        exact ⟨c :: d :: pre, post, rfl, markCrlf_of_not hcd⟩
  | case3 c =>
    cases u with
    | nil =>
      obtain ⟨rfl, -⟩ := List.cons.inj h
      exact ⟨[], [], rfl, rfl⟩
    | cons b u => simp [markCrlf] at h
  | case4 => simp [markCrlf] at h

theorem marked_append (pre post : Text) : marked (pre ++ ' ' :: post) = marked pre ++ ' ' :: marked post := by
  unfold marked
  rw [markCrlf_append, List.flatMap_append, List.flatMap_cons]
  rfl

theorem exists_of_marked {s u v : Text} (h : marked s = u ++ ' ' :: v) :
    ∃ pre post, s = pre ++ ' ' :: post ∧ marked pre = u := by
  obtain ⟨w, c, w', x, y, hs, hc, rfl, -⟩ := exists_of_flatMap_eq h
  obtain ⟨rfl, rfl, rfl⟩ := eq_of_mark hc
  obtain ⟨pre, post, rfl, rfl⟩ := exists_of_markCrlf hs
  exact ⟨pre, post, rfl, (List.append_nil _).symm⟩

/-- The blanks of a sanitized text are the visible ones. -/
theorem blank_notMem_sanitizeForLog {s : Text} : ' ' ∉ sanitizeForLog 500 (some s) ↔ HidesBlanks s := by
  have hsuffix : ∀ c ∈ "...(truncated)".toList, c ≠ ' ' := fun c hc => (marks_plain _ (by simp) c hc).1
  have hvisible : ' ' ∉ sanitizeForLog 500 (some s) ↔ ∀ c ∈ (marked s).take 500, c ≠ ' ' := by
    rw [sanitizeForLog_some, ← forall_mem_truncate hsuffix]
    exact ⟨fun h c hc he => h (he ▸ hc), fun h hm => h _ hm rfl⟩
  rw [hvisible, forall_mem_take_iff]
  constructor
  · rintro h pre post rfl
    exact h _ _ _ (marked_append pre post) (by simp)
  · intro h u c v hs hc
    rw [not_not.1 hc] at hs
    obtain ⟨pre, post, rfl, rfl⟩ := exists_of_marked hs
    exact h pre post rfl

/-! ## Details -/

theorem detailText_eq (lower : Text → Text) (d : Detail) :
    ∃ rest, detailText lower d = d.1 ++ rest ∧ ∀ c ∈ rest, isControl c = false := by
  unfold detailText
  split
  · exact ⟨_, rfl, clean_of_all (by decide)⟩
  · refine ⟨_, rfl, ?_⟩
    rw [List.forall_mem_cons]
    exact ⟨by decide, sanitizeForLog_clean⟩

/-- The details up to the closing brace, which takes the place of the last separator. -/
theorem dictText_eq (lower : Text → Text) {details : List Detail} (h : details ≠ []) :
    ∃ shown, dictText lower details = shown ++ ['}'] ∧ opening lower details = shown ++ ", ".toList := by
  have hjoin : ∀ ds : List Detail, ds ≠ [] →
      ds.flatMap (fun d => detailText lower d ++ ", ".toList) =
        (", ".toList).intercalate (ds.map (detailText lower)) ++ ", ".toList := by
    intro ds
    induction ds with
    | nil => exact fun h => absurd rfl h
    | cons d ds ih =>
      intro _
      cases ds with
      | nil => simp
      | cons d' ds =>
        rw [List.flatMap_cons, ih (by simp), List.map_cons (a := d), List.intercalate_cons_of_ne_nil (by simp)]
        simp only [List.append_assoc]
  exact ⟨'{' :: (", ".toList).intercalate (details.map (detailText lower)), rfl, by rw [opening, hjoin details h]; rfl⟩

/-- A control character of the details is one of a key. -/
theorem sanitizeDictForLog_clean {lower : Text → Text} {details : List Detail} (h : details ≠ []) :
    (∀ c ∈ sanitizeDictForLog lower details, isControl c = false) ↔ HidesControls lower details := by
  obtain ⟨shown, hdict, hopening⟩ := dictText_eq lower h
  have hsep : ∀ c ∈ ", ".toList, isControl c = false := clean_of_all (by decide)
  have hsame : (∀ c ∈ sanitizeDictForLog lower details, isControl c = false) ↔
      ∀ c ∈ (opening lower details).take 500, isControl c = false := by
    rw [sanitizeDictForLog, forall_mem_truncate (clean_of_all (by decide)), hdict, hopening,
      forall_mem_take_append (clean_of_all (by decide)), forall_mem_take_append hsep]
  rw [hsame, forall_mem_take_iff]
  constructor
  · rintro hclean pre key value post rfl k c k' rfl hc
    obtain ⟨rest, hrest, -⟩ := detailText_eq lower (k ++ c :: k', value)
    have hpos : opening lower (pre ++ (k ++ c :: k', value) :: post) =
        (opening lower pre ++ k) ++
          c :: (k' ++ rest ++ ", ".toList ++ post.flatMap fun d => detailText lower d ++ ", ".toList) := by
      simp [opening, hrest]
    simpa using hclean _ c _ hpos (by simp [hc])
  · intro hkeys u c v hu hc
    rw [Bool.not_eq_false] at hc
    cases u with
    | nil =>
      obtain ⟨rfl, -⟩ := List.cons.inj hu
      exact absurd hc (by decide)
    | cons b u =>
      obtain ⟨rfl, hflat⟩ := List.cons.inj hu
      obtain ⟨pre, ⟨key, value⟩, post, w, w', rfl, hd, rfl, -⟩ := exists_of_flatMap_eq hflat
      obtain ⟨rest, hrest, hclean⟩ := detailText_eq lower (key, value)
      have hc' : c ∉ rest ++ ", ".toList := by
        intro hm
        rcases List.mem_append.1 hm with hm | hm
        · exact absurd hc (by simp [hclean c hm])
        · exact absurd hc (by simp [hsep c hm])
      rw [hrest, List.append_assoc] at hd
      obtain ⟨k', hkey⟩ := exists_left_of_append_eq hd hc'
      have hle := hkeys pre key value post rfl w c k' hkey hc
      simp only [opening, List.length_cons, List.length_append] at hle ⊢
      omega

/-! ## The fields -/

theorem plain_of_digits {s : Text} (h : ∀ c ∈ s, c.isDigit = true) : Plain s := by
  intro c hc
  have hd := h c hc
  refine ⟨?_, ?_⟩
  · rintro rfl
    cases hd
  · obtain ⟨hlow, hhigh⟩ : 48 ≤ c.val ∧ c.val ≤ 57 := by simpa [Char.isDigit] using hd
    have hlow : 48 ≤ c.toNat := UInt32.le_iff_toNat_le.1 hlow
    have hhigh : c.toNat ≤ 57 := UInt32.le_iff_toNat_le.1 hhigh
    simp only [isControl, Bool.or_eq_false_iff, decide_eq_false_iff_not]
    omega

theorem padded_plain (width n : ℕ) : Plain (padded width n) := by
  refine plain_of_digits fun c hc => ?_
  rcases List.mem_append.1 hc with hc | hc
  · rw [List.eq_of_mem_replicate hc]
    rfl
  · exact Nat.isDigit_of_mem_toDigits (by decide) (by decide) hc

theorem isoformat_plain (t : DateTime) : Plain (isoformat t) := by
  have hmicro : Plain (if t.microsecond = 0 then [] else '.' :: padded 6 t.microsecond) := by
    split
    · exact fun c hc => nomatch hc
    · exact plain_cons.2 ⟨by decide, padded_plain _ _⟩
  simp only [isoformat, plain_append, plain_cons, padded_plain, hmicro]
  decide

theorem category_plain (c : AuditCategory) : Plain c.value.toList := by cases c <;> decide +kernel
theorem action_plain (a : AuditAction) : Plain a.value.toList := by cases a <;> decide +kernel
theorem outcome_plain (o : AuditOutcome) : Plain o.value.toList := by cases o <;> decide +kernel

section
variable {lower : Text → Text} {now : DateTime} {req : Option Request} {e : Entry}

theorem mem_truthy {s : Option Text} {t : Text} : t ∈ truthy s ↔ t ∈ s ∧ t ≠ [] := by
  simp [truthy, Option.filter_eq_some_iff]

theorem userText_clean : ∀ c ∈ userText e, isControl c = false := by
  have hanonymous : ∀ c ∈ "anonymous".toList, isControl c = false := clean_of_all (by decide)
  unfold userText
  split
  · exact hanonymous
  · exact hanonymous
  · exact hanonymous
  · exact sanitizeForLog_clean

theorem blank_notMem_userText : ' ' ∉ userText e ↔ ∀ u ∈ e.userId, HidesBlanks u.text := by
  have hnone : ∀ {s : Text}, ' ' ∉ s → HidesBlanks s := fun hs pre post he => absurd (by simp [he]) hs
  unfold userText
  split
  · rename_i hu
    simp [hu]
  · rename_i hu
    simp only [hu, Option.mem_some, forall_eq']
    exact iff_of_true (by decide) (hnone (by decide))
  · rename_i hu
    simp only [hu, Option.mem_some, forall_eq']
    exact iff_of_true (by decide) (hnone (by decide))
  · rename_i u hu
    simp only [hu, Option.mem_some, forall_eq']
    exact blank_notMem_sanitizeForLog

theorem targetText_clean {t : Text} (h : t ∈ targetText e) : ∀ c ∈ t, isControl c = false := by
  obtain ⟨entity, -, rfl⟩ := Option.map_eq_some_iff.1 h
  split
  · rw [List.forall_mem_append, List.forall_mem_cons]
    exact ⟨sanitizeForLog_clean, by decide, sanitizeForLog_clean⟩
  · exact sanitizeForLog_clean

theorem blank_notMem_targetText : (∀ t ∈ targetText e, ' ' ∉ t) ↔
    ∀ entity ∈ truthy e.targetEntity, HidesBlanks entity ∧ ∀ id ∈ e.targetId, HidesBlanks id.text := by
  unfold targetText
  cases truthy e.targetEntity with
  | none => simp
  | some entity =>
    cases e.targetId with
    | none => simp [blank_notMem_sanitizeForLog]
    | some id => simp [blank_notMem_sanitizeForLog]

theorem truthy_targetText : truthy (targetText e) = targetText e := by
  have hne : ∀ t ∈ targetText e, t ≠ [] := by
    intro t ht
    obtain ⟨entity, hentity, rfl⟩ := Option.map_eq_some_iff.1 ht
    have hshown := sanitizeForLog_ne_nil (mem_truthy.1 hentity).2
    split
    · simp
    · exact hshown
  unfold truthy
  cases ht : targetText e with
  | none => rfl
  | some t => exact Option.filter_some_pos (decide_eq_true (hne t ht))

theorem sanitizeDictForLog_ne_nil (details : List Detail) : sanitizeDictForLog lower details ≠ [] := by
  unfold sanitizeDictForLog truncate dictText
  split <;> simp

theorem truthy_detailsText : truthy (detailsText lower e) = detailsText lower e := by
  unfold truthy
  cases hd : detailsText lower e with
  | none => rfl
  | some t =>
    obtain ⟨details, -, rfl⟩ := Option.map_eq_some_iff.1 hd
    exact Option.filter_some_pos (decide_eq_true (sanitizeDictForLog_ne_nil details))

theorem detailsText_clean : (∀ t ∈ detailsText lower e, ∀ c ∈ t, isControl c = false) ↔
    ∀ details ∈ e.details, HidesControls lower details := by
  unfold detailsText
  cases e.details with
  | none => simp
  | some details =>
    by_cases hnil : details = []
    · subst hnil
      refine iff_of_true (by simp) ?_
      rintro details ⟨⟩ pre key value post he
      simp at he
    · simp [hnil, sanitizeDictForLog_clean]

/-- The fields one by one. -/
theorem forall_mem_headFields {p : Text × Text → Prop} : (∀ f ∈ headFields now req e, p f) ↔
    p ("timestamp".toList, isoformat now) ∧ p ("category".toList, e.category.value.toList) ∧
      p ("action".toList, e.action.value.toList) ∧ p ("user_id".toList, userText e) ∧
      (∀ t ∈ targetText e, p ("target".toList, t)) ∧ p ("outcome".toList, e.outcome.value.toList) ∧
      ∀ ip ∈ truthy (getClientIp req), p ("ip".toList, ip) := by
  simp only [headFields, truthy_targetText, List.forall_mem_append, List.forall_mem_cons, List.forall_mem_map,
    Option.mem_toList, and_assoc]
  simp

/-! ## Reading the line -/

def names : List String := ["timestamp", "category", "action", "user_id", "target", "outcome", "ip", "details"]

theorem names_plain : ∀ name ∈ names, Plain name.toList ∧ '=' ∉ name.toList := by decide +kernel

theorem field_readable {name : String} {value : Text} (h : name ∈ names) (hv : ' ' ∉ value) :
    Fields.Readable ' ' '=' (name.toList, value) :=
  ⟨(names_plain name h).2, (names_plain name h).1.blank, hv⟩

theorem field_clean {name : String} {value : Text} (h : name ∈ names) :
    (∀ c ∈ Fields.field '=' (name.toList, value), isControl c = false) ↔ ∀ c ∈ value, isControl c = false := by
  rw [Fields.field, List.forall_mem_append, List.forall_mem_cons]
  exact ⟨fun hc => hc.2.2, fun hc => ⟨fun c hm => ((names_plain name h).1 c hm).2, by decide, hc⟩⟩

theorem headFields_readable (hu : ' ' ∉ userText e) (ht : ∀ t ∈ targetText e, ' ' ∉ t)
    (hip : ∀ ip ∈ getClientIp req, ' ' ∉ ip) : ∀ f ∈ headFields now req e, Fields.Readable ' ' '=' f :=
  forall_mem_headFields.2
    ⟨field_readable (by decide) (isoformat_plain now).blank,
      field_readable (by decide) (category_plain e.category).blank,
      field_readable (by decide) (action_plain e.action).blank,
      field_readable (by decide) hu,
      fun t hmem => field_readable (by decide) (ht t hmem),
      field_readable (by decide) (outcome_plain e.outcome).blank,
      fun ip hmem => field_readable (by decide) (hip ip (mem_truthy.1 hmem).1)⟩

theorem headFields_names : ∀ f ∈ headFields now req e, f.1 ≠ "details".toList := by
  rw [forall_mem_headFields]
  simp

/-- **Fields without blanks read back**, up to the details. -/
theorem readFields_logMessage (h : ∀ f ∈ headFields now req e, Fields.Readable ' ' '=' f) :
    readFields (logMessage lower now req e) = headFields now req e := by
  have hne : headFields now req e ≠ [] := by simp [headFields]
  unfold readFields logMessage
  cases truthy (detailsText lower e) with
  | none =>
    rw [Option.toList_none, List.map_nil, List.append_nil, Fields.parse_line (by decide) h hne]
    exact Fields.before_eq_self headFields_names
  | some details =>
    obtain ⟨value, rest, hrest⟩ : ∃ value rest, Fields.parse ' ' '=' (Fields.field '=' ("details".toList, details)) =
        ("details".toList, value) :: rest :=
      Fields.parse_field (by decide) (by decide) (by decide)
    rw [Option.toList_some, List.map_singleton, List.map_append, List.map_singleton,
      Fields.parse_line_append (by decide) _ h hne, hrest]
    exact Fields.before_append headFields_names

/-- Control characters come with the address or with a key. -/
theorem logMessage_clean : (∀ c ∈ logMessage lower now req e, isControl c = false) ↔
    (∀ ip ∈ getClientIp req, ∀ c ∈ ip, isControl c = false) ∧ ∀ details ∈ e.details, HidesControls lower details := by
  have hip : (∀ ip ∈ truthy (getClientIp req), ∀ c ∈ ip, isControl c = false) ↔
      ∀ ip ∈ getClientIp req, ∀ c ∈ ip, isControl c = false :=
    ⟨fun h ip hmem c hc => h ip (mem_truthy.2 ⟨hmem, List.ne_nil_of_mem hc⟩) c hc,
      fun h ip hmem => h ip (mem_truthy.1 hmem).1⟩
  rw [logMessage, forall_mem_intercalate (clean_of_all (by decide)), List.forall_mem_map, List.forall_mem_append,
    forall_mem_headFields, truthy_detailsText]
  constructor
  · rintro ⟨⟨-, -, -, -, -, -, hips⟩, hdetails⟩
    rw [List.forall_mem_map] at hdetails
    exact ⟨hip.1 fun ip hmem => (field_clean (by decide : "ip" ∈ names)).1 (hips ip hmem),
      detailsText_clean.1 fun t ht => (field_clean (by decide : "details" ∈ names)).1 (hdetails t (by simpa using ht))⟩
  · rintro ⟨hips, hkeys⟩
    rw [List.forall_mem_map]
    refine ⟨⟨(field_clean (by decide)).2 ?_, (field_clean (by decide)).2 ?_, (field_clean (by decide)).2 ?_,
      (field_clean (by decide)).2 userText_clean, fun t ht => (field_clean (by decide)).2 (targetText_clean ht),
      (field_clean (by decide)).2 ?_, fun ip hmem => (field_clean (by decide)).2 (hip.2 hips ip hmem)⟩,
      fun t ht => (field_clean (by decide)).2 (detailsText_clean.2 hkeys t (by simpa using ht))⟩
    · exact fun c hc => (isoformat_plain now c hc).2
    · exact fun c hc => (category_plain e.category c hc).2
    · exact fun c hc => (action_plain e.action c hc).2
    · exact fun c hc => (outcome_plain e.outcome c hc).2

theorem valuesOf_headFields (name : Text) : Fields.valuesOf name (headFields now req e) =
    (if "timestamp".toList = name then [isoformat now] else []) ++
    ((if "category".toList = name then [e.category.value.toList] else []) ++
    ((if "action".toList = name then [e.action.value.toList] else []) ++
    ((if "user_id".toList = name then [userText e] else []) ++
    ((if "target".toList = name then (targetText e).toList else []) ++
    ((if "outcome".toList = name then [e.outcome.value.toList] else []) ++
    (if "ip".toList = name then (truthy (getClientIp req)).toList else [])))))) := by
  unfold headFields
  rw [truthy_targetText, Fields.valuesOf_append, Fields.valuesOf_append, Fields.valuesOf_cons, Fields.valuesOf_cons,
    Fields.valuesOf_cons, Fields.valuesOf_cons, Fields.valuesOf_cons, Fields.valuesOf_map_mk, Fields.valuesOf_map_mk,
    show Fields.valuesOf name [] = [] from rfl]
  simp only [List.append_assoc, List.append_nil]

/-- A line whose fields read back is unforged. -/
theorem unforged_of_readable (hclean : ∀ c ∈ logMessage lower now req e, isControl c = false)
    (h : ∀ f ∈ headFields now req e, Fields.Readable ' ' '=' f) : Unforged req e (logMessage lower now req e) := by
  have hvalues : ∀ name, readValues name (logMessage lower now req e) =
      Fields.valuesOf name.toList (headFields now req e) := by
    intro name
    rw [readValues, readFields_logMessage h]
  refine ⟨hclean, ?_, ?_, ?_, ?_, ?_, ?_⟩ <;>
  · rw [hvalues, valuesOf_headFields]
    simp only [String.toList_inj, String.reduceEq, if_true, if_false, List.nil_append, List.append_nil]

/-- **An audit line cannot be forged** exactly when no visible blank is in the user id and the target, the address has
no blank and no control character, and no control character of a key is visible. -/
theorem audit_line_unforged_iff (lower : Text → Text) (now : DateTime) (req : Option Request) (e : Entry) :
    Unforged req e (auditLog lower now req e).2 ↔ Harmless lower req e := by
  show Unforged req e (logMessage lower now req e) ↔ Harmless lower req e
  constructor
  · intro h
    obtain ⟨hip, hkeys⟩ := logMessage_clean.1 h.clean
    have hblank : ∀ {name : String} {value : Text}, value ∈ readValues name (logMessage lower now req e) →
        ' ' ∉ value := fun hv => Fields.sep_notMem_of_valuesOf hv
    have huser : userText e ∈ readValues "user_id" (logMessage lower now req e) := by simp [h.userId]
    refine ⟨blank_notMem_userText.1 (hblank huser), blank_notMem_targetText.1 fun t ht => ?_, fun ip hmem c hc => ?_,
      hkeys⟩
    · have htarget : t ∈ readValues "target" (logMessage lower now req e) := by simpa [h.target] using ht
      exact hblank htarget
    · have hread : ip ∈ readValues "ip" (logMessage lower now req e) := by
        rw [h.ip, Option.mem_toList]
        exact mem_truthy.2 ⟨hmem, List.ne_nil_of_mem hc⟩
      exact ⟨fun he => hblank hread (he ▸ hc), hip ip hmem c hc⟩
  · intro h
    refine unforged_of_readable (logMessage_clean.2 ⟨fun ip hmem c hc => (h.ip ip hmem c hc).2, h.keys⟩) ?_
    exact headFields_readable (blank_notMem_userText.2 h.userId) (blank_notMem_targetText.2 h.target)
      fun ip hmem => Plain.blank (h.ip ip hmem)

end

/-! ## A failed login -/

namespace AuditSite

def lower (s : Text) : Text := s.map Char.toLower

def now : DateTime := ⟨2025, 12, 3, 15, 25, 0, 0⟩

/-- The header of a client that adds a field of its own. -/
def header : Text := "203.0.113.7 outcome=SUCCESS".toList

def request : Request := { forwardedFor := some header, remoteAddr := some "10.0.0.5".toList }

def failedLogin : Entry :=
  { category := .authentication, action := .loginFailure, userId := none, targetEntity := none, targetId := none
    outcome := .failure, details := some [("email".toList, some "cu***@odpem.gov.jm".toList)], level := warning }

end AuditSite

/-- The line of a failed login carries a second outcome, from the client's header. -/
theorem forged_outcome :
    '\r' ∉ AuditSite.header ∧ '\n' ∉ AuditSite.header ∧
      readValues "outcome" (auditLog AuditSite.lower AuditSite.now (some AuditSite.request) AuditSite.failedLogin).2 =
        ["FAILURE".toList, "SUCCESS".toList] ∧
      ¬ Unforged (some AuditSite.request) AuditSite.failedLogin
        (auditLog AuditSite.lower AuditSite.now (some AuditSite.request) AuditSite.failedLogin).2 := by
  have hread : readValues "outcome"
      (auditLog AuditSite.lower AuditSite.now (some AuditSite.request) AuditSite.failedLogin).2 =
        ["FAILURE".toList, "SUCCESS".toList] := by
    decide +kernel
  refine ⟨by decide +kernel, by decide +kernel, hread, fun h => ?_⟩
  have hone := h.outcome
  rw [hread] at hone
  simp at hone

end AuditLog

end Dmis
