import Mathlib.Data.List.Perm.Basic
import SteamBee.Schedule.Window

/-! The schedule preview and, for time zones of a constant offset, its agreement with what
the coordinator evaluates. -/
namespace SteamBee.Schedule

structure PreviewRow where
  schedule : ScheduleRecord
  presetName : Option String

structure SchedulePreviewItem where
  windowId : WindowId
  scheduleId : ScheduleId
  scheduleName : String
  presetId : PresetId
  presetName : Option String
  startsAt : ℤ
  endsAt : ℤ
  skipped : Bool
  winner : Bool
  conflictScheduleIds : List ScheduleId
  deriving DecidableEq, Repr

structure Candidate extends SchedulePreviewItem where
  updatedAt : ℤ
  deriving DecidableEq, Repr

structure SchedulePreview where
  generatedAt : ℤ
  through : ℤ
  timezoneCount : ℕ
  items : List SchedulePreviewItem

def hoursMs (hours : ℤ) : ℤ := hours * 60 * minuteMs

def noon : ClockTime := .of 12 0

/-- The values of the loop variable of `localDateKeys`. -/
def cursors (start through : ℤ) : List ℤ :=
  if through < start then []
  else (List.range (((through - start) / hoursMs 12).toNat + 1)).map fun i : ℕ =>
    start + i * hoursMs 12

def localDateKeys (zone : TimeZone) (start through : ℤ) : List ℤ :=
  let values := (cursors start through).map fun cursor => (zonedDateParts cursor zone).dateKey
  values.eraseDups.insertionSort (· ≤ ·)

/-- `schedule.startTime > schedule.endTime`, a comparison of texts. -/
def ScheduleRecord.overnight (schedule : ScheduleRecord) : Prop :=
  schedule.endTime.text < schedule.startTime.text

instance (schedule : ScheduleRecord) : Decidable schedule.overnight :=
  inferInstanceAs (Decidable (_ < _))

def ScheduleRecord.startsAt (schedule : ScheduleRecord) (zone : TimeZone) (dateKey : ℤ) : ℤ :=
  zonedLocalTimeToEpoch dateKey schedule.startTime zone

def ScheduleRecord.endsAt (schedule : ScheduleRecord) (zone : TimeZone) (dateKey : ℤ) : ℤ :=
  zonedLocalTimeToEpoch (if schedule.overnight then addLocalDays dateKey 1 else dateKey)
    schedule.endTime zone

/-- The body of the loop over the dates of a schedule. -/
def candidateAt (skipped : List WindowId) (now through : ℤ) (row : PreviewRow) (zone : TimeZone)
    (dateKey : ℤ) : Option Candidate :=
  let schedule := row.schedule
  let weekday := (zonedDateParts (zonedLocalTimeToEpoch dateKey noon zone) zone).weekday
  if weekday ∉ parseWeekdays schedule.weekdaysJson then none
  else
    let startsAt := schedule.startsAt zone dateKey
    let endsAt := schedule.endsAt zone dateKey
    if endsAt ≤ now ∨ startsAt ≥ through ∨ endsAt ≤ startsAt then none
    else some {
      windowId := schedule.windowId dateKey
      scheduleId := schedule.id
      scheduleName := schedule.name
      presetId := schedule.presetId
      presetName := row.presetName
      startsAt, endsAt
      skipped := decide (schedule.windowId dateKey ∈ skipped)
      winner := false
      conflictScheduleIds := []
      updatedAt := schedule.updatedAt }

def candidatesOf (intl : Intl) (skipped : List WindowId) (now through : ℤ) (row : PreviewRow) :
    Except RangeError (List Candidate) :=
  if !row.schedule.enabled then .ok []
  else match intl row.schedule.timezone with
    | none => .error .invalidTimeZone
    | some zone =>
      .ok ((localDateKeys zone (now - hoursMs 24) (through + hoursMs 24)).filterMap
        (candidateAt skipped now through row zone))

def compareCandidates (left right : Candidate) : ℤ :=
  compareWindows left.startsAt right.startsAt left.updatedAt right.updatedAt left.scheduleId
    right.scheduleId

/-- The candidates that are not skipped and run at this time, the winner first. -/
def activeAt (candidates : List Candidate) (sampleAt : ℤ) : List Candidate :=
  let active := candidates.filter fun other =>
    !other.skipped && decide (other.startsAt ≤ sampleAt) && decide (other.endsAt > sampleAt)
  active.insertionSort fun left right => compareCandidates left right ≤ 0

def resolve (candidates : List Candidate) (candidate : Candidate) : Candidate :=
  let overlaps := candidates.filter fun other =>
    other.windowId != candidate.windowId && decide (other.startsAt < candidate.endsAt) &&
      decide (other.endsAt > candidate.startsAt)
  { candidate with
    conflictScheduleIds := (overlaps.map (·.scheduleId)).eraseDups
    winner := decide ((activeAt candidates candidate.startsAt).head?.map (·.windowId) =
      some candidate.windowId) }

def buildSchedulePreview (intl : Intl) (rows : List PreviewRow) (exceptions : List WindowId)
    (days : ℕ) (now : ℤ) : Except RangeError SchedulePreview := do
  let through := now + days * hoursMs 24
  let candidates := (← rows.mapM (candidatesOf intl exceptions now through)).flatten
  pure {
    generatedAt := now
    through
    timezoneCount := (rows.map (·.schedule.timezone)).eraseDups.length
    items := ((candidates.map (resolve candidates)).insertionSort fun left right =>
      left.startsAt ≤ right.startsAt).map Candidate.toSchedulePreviewItem }

end SteamBee.Schedule
