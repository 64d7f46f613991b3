import Mathlib.Data.Nat.Notation
import Mathlib.Algebra.Ring.Int.Defs

/-!
# Times of day

`now()` gives the time of Jamaica without a time zone, and every default of the models stores it
(`app/utils/timezone.py:18-30`). The display takes a time without a zone for UTC (`:63-148`), as the docstring of the
module says the database has it.

| here | there |
| --- | --- |
| `now`, `today` | `now`, `today` (`:18-43`) at a UTC instant |
| `utcToJamaica`, `formatDatetime` | `utc_to_jamaica`, which `to_jamaica_time` and the filter `to_jamaica` call; `format_datetime` |
| `Format` | the formats of the filters `format_datetime` and `format_date` (`drims_app.py:174-182`) |

A result that is no `datetime` gives `none`: Python raises `OverflowError`. Main theorem
`never_shown_as_happened`: at no instant is what `now()` gives displayed as the time it was; the five hours are taken
off twice, so the date is right from five in the morning on.
-/

namespace Dmis

namespace Timezone

abbrev Text := List Char

def hourMicros : ℕ := 3600000000
def dayMicros : ℕ := 86400000000

/-- The years 1 to 9999. -/
def limit : ℕ := 3652059 * dayMicros

/-- A `datetime` without its zone, in microseconds from the beginning of year 1. -/
structure DateTime where
  micros : ℕ
  lt_limit : micros < limit

namespace DateTime

/-- `x + timedelta`. -/
def add? (x : DateTime) (delta : ℤ) : Option DateTime :=
  if h : 0 ≤ (x.micros : ℤ) + delta ∧ (x.micros : ℤ) + delta < limit then
    some ⟨((x.micros : ℤ) + delta).toNat, by omega⟩
  else none

/-- `x.date()`, in days. -/
def date (x : DateTime) : ℕ := x.micros / dayMicros

def hour (x : DateTime) : ℕ := x.micros % dayMicros / hourMicros
def minute (x : DateTime) : ℕ := x.micros % hourMicros / 60000000
def second (x : DateTime) : ℕ := x.micros % 60000000 / 1000000

theorem add?_eq_some {x y : DateTime} {delta : ℤ} (h : x.add? delta = some y) : (y.micros : ℤ) = x.micros + delta := by
  unfold add? at h
  split at h
  · cases h
    simp only
    omega
  · cases h

end DateTime

/-- A `datetime` with a fixed offset, in microseconds. -/
structure Aware where
  wall : DateTime
  offset : ℤ

def Aware.astimezone (a : Aware) (offset : ℤ) : Option Aware :=
  (a.wall.add? (-a.offset)).bind fun utc => (utc.add? offset).map fun wall => ⟨wall, offset⟩

def utcTz : ℤ := 0
def jamaicaTz : ℤ := -5 * hourMicros

/-- What the display can be given. -/
inductive Stamp where
  | date (day : ℕ)
  | naive (x : DateTime)
  | aware (a : Aware)

/-! ## The clock -/

/-- `now()` at an instant in UTC. -/
def now (t : DateTime) : Option DateTime := ((⟨t, utcTz⟩ : Aware).astimezone jamaicaTz).map Aware.wall

def today (t : DateTime) : Option ℕ := (now t).map DateTime.date

/-! ## The display -/

/-- `None` is handed on. -/
def utcToJamaica : Option Stamp → Option (Option Stamp)
  | none => some none
  | some (.date day) => some (some (.date day))
  | some (.naive x) => ((⟨x, utcTz⟩ : Aware).astimezone jamaicaTz).map fun a => some (.naive a.wall)
  | some (.aware a) => ((a.astimezone utcTz).bind (·.astimezone jamaicaTz)).map fun a => some (.naive a.wall)

inductive Format where
  /-- `%Y-%m-%d %H:%M:%S` -/
  | dateTime
  /-- `%Y-%m-%d` -/
  | date

def twoDigits (n : ℕ) : Text := [Nat.digitChar (n / 10), Nat.digitChar (n % 10)]

def clockText (x : DateTime) : Text :=
  twoDigits x.hour ++ ':' :: (twoDigits x.minute ++ ':' :: twoDigits x.second)

section
variable (dateText : ℕ → Text)

/-- `dateText` writes a day as `%Y-%m-%d`. -/
def strftime (format : Format) (x : DateTime) : Text :=
  match format with
  | .dateTime => dateText x.date ++ ' ' :: clockText x
  | .date => dateText x.date

/-- A day has no time but midnight. -/
def strftimeDate (format : Format) (day : ℕ) : Text :=
  match format with
  | .dateTime => dateText day ++ ' ' :: (twoDigits 0 ++ ':' :: (twoDigits 0 ++ ':' :: twoDigits 0))
  | .date => dateText day

def formatDatetime (stamp : Option Stamp) (format : Format) : Option Text :=
  match stamp with
  | none => some []
  | some (.date day) => some (strftimeDate dateText format day)
  | some stamp =>
    (utcToJamaica (some stamp)).bind fun shown =>
      match shown with
      | some (.naive x) => some (strftime dateText format x)
      | _ => none

/-! ## Shown as it happened -/

/-- The wall clock of Jamaica, five hours behind UTC, shows `w` at `t`. -/
def WallClock (t w : DateTime) : Prop := w.micros + 5 * hourMicros = t.micros

/-- `format_datetime` displays what `now()` gave at `t` as the wall clock of `t`. -/
def TextRight (t : DateTime) : Prop :=
  ∃ x w, now t = some x ∧ WallClock t w ∧
    formatDatetime dateText (some (.naive x)) .dateTime = some (strftime dateText .dateTime w)

end

/-- `to_jamaica_time` gives back the wall clock. -/
def ValueRight (t : DateTime) : Prop :=
  ∃ x w, now t = some x ∧ WallClock t w ∧ utcToJamaica (some (.naive x)) = some (some (.naive w))

/-- The displayed date is that of `today()`. -/
def DateRight (t : DateTime) : Prop :=
  ∃ x shown, now t = some x ∧ utcToJamaica (some (.naive x)) = some (some (.naive shown)) ∧ today t = some shown.date

structure ShownAsHappened (dateText : ℕ → Text) (t : DateTime) : Prop where
  text : TextRight dateText t
  value : ValueRight t
  date : DateRight t

/-! ## Twice five hours -/

theorem add?_zero (x : DateTime) : x.add? 0 = some x := by
  have hlt := x.lt_limit
  unfold DateTime.add?
  rw [dif_pos (by omega)]
  congr

theorem astimezone_utc (x : DateTime) (offset : ℤ) :
    (⟨x, utcTz⟩ : Aware).astimezone offset = (x.add? offset).map fun wall => ⟨wall, offset⟩ := by
  unfold Aware.astimezone utcTz
  rw [neg_zero, add?_zero]
  rfl

theorem now_eq (t : DateTime) : now t = t.add? jamaicaTz := by
  unfold now
  rw [astimezone_utc, Option.map_map]
  exact Option.map_id'

theorem utcToJamaica_naive (x : DateTime) :
    utcToJamaica (some (.naive x)) = (x.add? jamaicaTz).map fun w => some (.naive w) := by
  change ((⟨x, utcTz⟩ : Aware).astimezone jamaicaTz).map (fun a => some (Stamp.naive a.wall)) = _
  rw [astimezone_utc, Option.map_map]
  rfl

theorem wallClock_of_add? {t w : DateTime} (h : t.add? jamaicaTz = some w) : WallClock t w := by
  have hw := DateTime.add?_eq_some h
  unfold WallClock
  simp only [jamaicaTz, hourMicros] at hw ⊢
  omega

theorem now_wallClock {t x : DateTime} (h : now t = some x) : WallClock t x :=
  wallClock_of_add? ((now_eq t).symm.trans h)

/-- What is displayed of a stored time is five hours behind it. -/
theorem shown_wallClock {x shown : DateTime} (h : utcToJamaica (some (.naive x)) = some (some (.naive shown))) :
    WallClock x shown := by
  rw [utcToJamaica_naive] at h
  obtain ⟨w, hw, he⟩ := Option.map_eq_some_iff.1 h
  cases he
  exact wallClock_of_add? hw

theorem WallClock.unique {t w w' : DateTime} (h : WallClock t w) (h' : WallClock t w') : w = w' := by
  obtain ⟨m, hm⟩ := w
  obtain ⟨m', hm'⟩ := w'
  have he : m = m' := by
    unfold WallClock at h h'
    simp only at h h'
    omega
  subst he
  rfl

theorem WallClock.hour_ne {t w : DateTime} (h : WallClock t w) : w.hour ≠ t.hour := by
  unfold WallClock hourMicros at h
  unfold DateTime.hour dayMicros hourMicros
  omega

theorem WallClock.date_eq_iff {t w : DateTime} (h : WallClock t w) : t.date = w.date ↔ 5 ≤ t.hour := by
  unfold WallClock hourMicros at h
  unfold DateTime.date DateTime.hour dayMicros hourMicros
  omega

theorem hour_lt (x : DateTime) : x.hour < 24 := by
  unfold DateTime.hour dayMicros hourMicros
  omega

theorem twoDigits_inj {a b : ℕ} (ha : a < 24) (hb : b < 24) (h : twoDigits a = twoDigits b) : a = b := by
  have hall : ∀ a < 24, ∀ b < 24, twoDigits a = twoDigits b → a = b := by decide
  exact hall a ha b hb h

theorem hour_eq_of_strftime {dateText : ℕ → Text} {x y : DateTime}
    (h : strftime dateText .dateTime x = strftime dateText .dateTime y) : x.hour = y.hour := by
  have hclock : ' ' :: clockText x = ' ' :: clockText y := List.append_inj_right' h rfl
  simp only [clockText, twoDigits, List.cons_append, List.nil_append, List.cons.injEq, true_and] at hclock
  refine twoDigits_inj (hour_lt x) (hour_lt y) ?_
  unfold twoDigits
  rw [hclock.1, hclock.2.1]

theorem formatDatetime_naive (dateText : ℕ → Text) (format : Format) (x : DateTime) :
    formatDatetime dateText (some (.naive x)) format = (x.add? jamaicaTz).map (strftime dateText format) := by
  unfold formatDatetime
  simp only [utcToJamaica_naive]
  cases x.add? jamaicaTz with
  | none => rfl
  | some w => rfl

theorem not_textRight (dateText : ℕ → Text) (t : DateTime) : ¬ TextRight dateText t := by
  rintro ⟨x, w, hnow, hw, htext⟩
  rw [formatDatetime_naive] at htext
  obtain ⟨shown, hshown, he⟩ := Option.map_eq_some_iff.1 htext
  have hwall := wallClock_of_add? hshown
  rw [(now_wallClock hnow).unique hw] at hwall
  exact hwall.hour_ne (hour_eq_of_strftime he)

theorem not_valueRight (t : DateTime) : ¬ ValueRight t := by
  rintro ⟨x, w, hnow, hw, hvalue⟩
  have hshown := shown_wallClock hvalue
  rw [(now_wallClock hnow).unique hw] at hshown
  exact hshown.hour_ne rfl

/-- **No time is shown as it happened**: neither the text nor the value is the wall clock. The date is right when it
was five in the morning or later. -/
theorem never_shown_as_happened (dateText : ℕ → Text) (t : DateTime) :
    ¬ ShownAsHappened dateText t ∧ ¬ TextRight dateText t ∧ ¬ ValueRight t ∧
      ∀ x shown, now t = some x → utcToJamaica (some (.naive x)) = some (some (.naive shown)) →
        WallClock x shown ∧ (today t = some shown.date ↔ 5 ≤ x.hour) := by
  refine ⟨fun h => not_valueRight t h.value, not_textRight dateText t, not_valueRight t, ?_⟩
  intro x shown hnow hshown
  have hwall := shown_wallClock hshown
  refine ⟨hwall, ?_⟩
  unfold today
  rw [hnow, Option.map_some, Option.some.injEq]
  exact hwall.date_eq_iff

theorem add?_of_wallClock {t w : DateTime} (h : WallClock t w) : t.add? jamaicaTz = some w := by
  have hlt := w.lt_limit
  unfold WallClock at h
  unfold DateTime.add? jamaicaTz
  rw [dif_pos (by omega)]
  congr
  omega

/-- A day at an hour. -/
def onDay (day hour : ℕ) (hday : day < 3652059) (hhour : hour < 24) : DateTime where
  micros := day * dayMicros + hour * hourMicros
  lt_limit := by
    unfold limit dayMicros hourMicros
    omega

/-- Two days. -/
def twoDays (day : ℕ) : Text := if day = 738999 then "2024-04-24".toList else "2024-04-25".toList

/-- Three in the morning in Jamaica is displayed as ten in the evening before. -/
theorem morning_shown :
    now (onDay 739000 8 (by decide) (by decide)) = some (onDay 739000 3 (by decide) (by decide)) ∧
      formatDatetime twoDays (some (.naive (onDay 739000 3 (by decide) (by decide)))) .dateTime =
        some "2024-04-24 22:00:00".toList ∧
      ¬ ShownAsHappened twoDays (onDay 739000 8 (by decide) (by decide)) := by
  refine ⟨?_, ?_, fun h => not_valueRight _ h.value⟩
  · rw [now_eq]
    exact add?_of_wallClock rfl
  · have hshown : WallClock (onDay 739000 3 (by decide) (by decide)) (onDay 738999 22 (by decide) (by decide)) := rfl
    rw [formatDatetime_naive, add?_of_wallClock hshown]
    rfl

end Timezone

end Dmis
