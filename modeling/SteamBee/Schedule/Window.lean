import Mathlib.Data.Int.Notation
import Mathlib.Data.List.Sort

/-! Schedules, their windows at an instant and the window that wins. Instants are
milliseconds, local dates are numbered from the first of January 1970. -/
namespace SteamBee.Schedule

/-- Schedule ids are numbered as `localeCompare` orders them. -/
abbrev ScheduleId := ℕ

abbrev AccountId := ℕ

abbrev PresetId := ℕ

/-- A time of day, `HH:mm` in the source. -/
structure ClockTime where
  hour : ℕ
  minute : ℕ
  hour_lt : hour < 24
  minute_lt : minute < 60
  deriving DecidableEq, Repr

def ClockTime.of (hour minute : ℕ) : ClockTime :=
  ⟨hour % 24, minute % 60, Nat.mod_lt _ (Nat.succ_pos _), Nat.mod_lt _ (Nat.succ_pos _)⟩

/-- The code units of `HH:mm`. -/
def ClockTime.text (t : ClockTime) : List ℕ :=
  [48 + t.hour / 10, 48 + t.hour % 10, 58, 48 + t.minute / 10, 48 + t.minute % 10]

def timeToMinute (t : ClockTime) : ℤ := t.hour * 60 + t.minute

/-- A time zone: its offset from UTC in minutes, at every instant. -/
structure TimeZone where
  offsetAt : ℤ → ℤ

abbrev Intl := String → Option TimeZone

/-- What `weekdays_json` may hold. -/
inductive JsonItem where
  | integer (value : ℤ)
  | other
  deriving DecidableEq, Repr

inductive WeekdaysJson where
  | array (items : List JsonItem)
  | other
  | unparsable
  deriving DecidableEq, Repr

/-- `id:dateKey:startTime-endTime`; a date is `YYYY-MM-DD` in the source. -/
structure WindowId where
  scheduleId : ScheduleId
  dateKey : ℤ
  startTime : ClockTime
  endTime : ClockTime
  deriving DecidableEq, Repr

structure ScheduleRecord where
  id : ScheduleId
  accountId : AccountId
  presetId : PresetId
  name : String
  enabled : Bool
  weekdaysJson : WeekdaysJson
  startTime : ClockTime
  endTime : ClockTime
  timezone : String
  lastStartedWindow : Option WindowId
  lastStoppedWindow : Option WindowId
  updatedAt : ℤ
  deriving DecidableEq, Repr

structure ScheduleWindowState where
  active : Bool
  windowId : Option WindowId
  windowStartedAt : Option ℤ
  deriving DecidableEq, Repr

inductive RangeError where
  | invalidTimeZone
  deriving DecidableEq, Repr

def minuteMs : ℤ := 60000

def minutesPerDay : ℤ := 1440

def parseWeekdays : WeekdaysJson → List ℤ
  | .array items =>
    (items.filterMap fun item => match item with
      | .integer value => if 0 ≤ value ∧ value ≤ 6 then some value else none
      | .other => none).eraseDups
  | .other | .unparsable => []

/-- Sunday is 0; the first of January 1970 was a Thursday. -/
def weekdayOf (dateKey : ℤ) : ℤ := (dateKey + 4) % 7

/-- Minutes since the first of January 1970 on the clocks of the zone. -/
def localMinute (date : ℤ) (zone : TimeZone) : ℤ := date / minuteMs + zone.offsetAt date

structure DateParts where
  dateKey : ℤ
  time : ClockTime
  weekday : ℤ

def zonedDateParts (date : ℤ) (zone : TimeZone) : DateParts where
  dateKey := localMinute date zone / minutesPerDay
  time := {
    hour := (localMinute date zone % minutesPerDay / 60).toNat
    minute := (localMinute date zone % 60).toNat
    hour_lt := by simp only [minutesPerDay]; omega
    minute_lt := by omega }
  weekday := weekdayOf (localMinute date zone / minutesPerDay)

def addLocalDays (dateKey : ℤ) (days : ℤ) : ℤ := dateKey + days

/-- `Date.UTC` of a local date and time. -/
def dateUTC (dateKey : ℤ) (time : ClockTime) : ℤ :=
  (dateKey * minutesPerDay + timeToMinute time) * minuteMs

def correctCandidate (target : ℤ) (zone : TimeZone) : (attempts : ℕ) → (candidate : ℤ) → ℤ
  | 0, candidate => candidate
  | attempts + 1, candidate =>
    let parts := zonedDateParts candidate zone
    let correction := target - dateUTC parts.dateKey parts.time
    if correction = 0 then candidate
    else correctCandidate target zone attempts (candidate + correction)

def zonedLocalTimeToEpoch (dateKey : ℤ) (time : ClockTime) (zone : TimeZone) : ℤ :=
  correctCandidate (dateUTC dateKey time) zone 3 (dateUTC dateKey time)

def inactiveWindow : ScheduleWindowState := ⟨false, none, none⟩

def ScheduleRecord.windowId (schedule : ScheduleRecord) (dateKey : ℤ) : WindowId :=
  ⟨schedule.id, dateKey, schedule.startTime, schedule.endTime⟩

def activeWindow (schedule : ScheduleRecord) (zone : TimeZone) (dateKey : ℤ) :
    ScheduleWindowState :=
  ⟨true, some (schedule.windowId dateKey),
    some (zonedLocalTimeToEpoch dateKey schedule.startTime zone)⟩

def evaluateScheduleWindow (intl : Intl) (schedule : ScheduleRecord) (now : ℤ) :
    Except RangeError ScheduleWindowState :=
  let weekdays := parseWeekdays schedule.weekdaysJson
  if weekdays.length = 0 then .ok inactiveWindow
  else match intl schedule.timezone with
    | none => .error .invalidTimeZone
    | some zone =>
      let parts := zonedDateParts now zone
      let minute := timeToMinute parts.time
      let startMinute := timeToMinute schedule.startTime
      let endMinute := timeToMinute schedule.endTime
      let overnight := startMinute > endMinute
      if ¬overnight then
        if parts.weekday ∈ weekdays ∧ minute ≥ startMinute ∧ minute < endMinute then
          .ok (activeWindow schedule zone parts.dateKey)
        else .ok inactiveWindow
      else if parts.weekday ∈ weekdays ∧ minute ≥ startMinute then
        .ok (activeWindow schedule zone parts.dateKey)
      else if (parts.weekday + 6) % 7 ∈ weekdays ∧ minute < endMinute then
        .ok (activeWindow schedule zone (addLocalDays parts.dateKey (-1)))
      else .ok inactiveWindow

/-- A schedule with its window; `state` is `none` when it was not evaluated. -/
structure ScheduleEntry where
  schedule : ScheduleRecord
  state : Option ScheduleWindowState
  deriving DecidableEq, Repr

def evaluateEntry (intl : Intl) (isSkipped : WindowId → Bool) (schedule : ScheduleRecord)
    (now : ℤ) : ScheduleEntry where
  schedule
  state :=
    if schedule.enabled then
      match evaluateScheduleWindow intl schedule now with
      | .ok state => some (if state.windowId.any isSkipped then inactiveWindow else state)
      | .error _ => none
    else none

def localeCompare (a b : ℕ) : ℤ := if a < b then -1 else if b < a then 1 else 0

def ScheduleEntry.isCandidate (entry : ScheduleEntry) : Bool :=
  entry.state.any fun state => state.active && state.windowId.isSome && state.windowStartedAt.isSome

/-- The order of two windows: the later start first, then the later update, then the
later id. -/
def compareWindows (leftStart rightStart leftUpdate rightUpdate : ℤ) (leftId rightId : ℕ) :
    ℤ :=
  let startDifference := rightStart - leftStart
  if startDifference ≠ 0 then startDifference
  else
    let updateDifference := rightUpdate - leftUpdate
    if updateDifference ≠ 0 then updateDifference
    else localeCompare rightId leftId

def ScheduleEntry.startedAt (entry : ScheduleEntry) : ℤ :=
  (entry.state.bind (·.windowStartedAt)).getD 0

def compareEntries (left right : ScheduleEntry) : ℤ :=
  compareWindows left.startedAt right.startedAt left.schedule.updatedAt right.schedule.updatedAt
    left.schedule.id right.schedule.id

def selectScheduleWinner (entries : List ScheduleEntry) : Option ScheduleEntry :=
  ((entries.filter ScheduleEntry.isCandidate).insertionSort fun left right =>
    compareEntries left right ≤ 0).head?

end SteamBee.Schedule
