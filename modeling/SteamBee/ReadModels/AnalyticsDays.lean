import SteamBee.ReadModels.Analytics
import SteamBee.Schedule.LocalTime

/-! When the seven days of the analytics partition the time since the first of them: always,
unless the midnight that ends today is found too early. -/
namespace SteamBee.ReadModels
open Schedule

variable {zone : TimeZone} {now target t before after today : ℤ} {session : StoredSession}
  {sessions stored : List StoredSession} {startedAt endedAt dateKey : ℤ} {time : ClockTime}

/-! ## Overlaps -/

/-- Ranges that follow one another are overlapped piece by piece. By induction on their
number. -/
theorem total_overlappingDurationMs (startedAt endedAt : ℤ) (bound : ℕ → ℤ)
    (hmono : ∀ i, bound i ≤ bound (i + 1)) (n : ℕ) : bound 0 ≤ bound n ∧
      ((List.range n).total fun i =>
        overlappingDurationMs startedAt endedAt (bound i) (bound (i + 1))) =
        overlappingDurationMs startedAt endedAt (bound 0) (bound n) := by
  induction n with
  | zero =>
    refine ⟨le_rfl, ?_⟩
    simp only [List.range_zero, List.total_nil, overlappingDurationMs]
    omega
  | succ n ih =>
    obtain ⟨hle, htotal⟩ := ih
    have hnext := hmono n
    refine ⟨hle.trans hnext, ?_⟩
    rw [List.range_succ, List.total_append, List.total_cons, List.total_nil, htotal]
    simp only [overlappingDurationMs]
    omega

namespace StoredSession

/-- What is skipped would not have counted. -/
theorem within_eq (session : StoredSession) (now : ℤ) (day : DayRange) :
    session.within now day = overlappingDurationMs session.startedAt (min (session.endOr now) now)
      day.startsAt day.endsAt := by
  unfold within overlappingDurationMs
  split_ifs <;> omega

theorem since_eq (session : StoredSession) (now start : ℤ) :
    session.since now start =
      overlappingDurationMs session.startedAt (session.endOr now) start now := by
  unfold since overlappingDurationMs
  split_ifs <;> omega

def beyond (session : StoredSession) (now boundary : ℤ) : ℕ :=
  overlappingDurationMs session.startedAt (session.endOr now) boundary now

theorem since_split (session : StoredSession) {now start boundary : ℤ} (h : start ≤ boundary) :
    session.since now start = overlappingDurationMs session.startedAt
      (min (session.endOr now) now) start boundary + session.beyond now boundary := by
  rw [since_eq]
  simp only [beyond, overlappingDurationMs]
  omega

end StoredSession

/-! ## The days -/

/-- Within three days a zone changes its offset by at most a day. -/
def IsGradual (zone : TimeZone) : Prop :=
  ∀ x y, x ≤ y + hoursMs 72 → y ≤ x + hoursMs 72 → zone.offsetAt x ≤ zone.offsetAt y + 1440

theorem startOfDay_le (hbounded : zone.Bounded) (hgradual : IsGradual zone) (dateKey : ℤ) :
    startOfDay zone dateKey ≤ startOfDay zone (dateKey + 1) := by
  unfold startOfDay
  rw [zonedLocalTimeToEpoch_eq, zonedLocalTimeToEpoch_eq]
  have hday : dateUTC (dateKey + 1) midnight = dateUTC dateKey midnight + hoursMs 24 := by
    simp only [dateUTC, minutesPerDay, minuteMs, hoursMs]
    omega
  rw [hday]
  generalize dateUTC dateKey midnight = target
  have hnear := guess_near target (zone.guess target target) hbounded
  have hnext := guess_near (target + hoursMs 24)
    (zone.guess (target + hoursMs 24) (target + hoursMs 24)) hbounded
  generalize zone.guess target (zone.guess target target) = x at *
  generalize zone.guess (target + hoursMs 24) (zone.guess (target + hoursMs 24)
    (target + hoursMs 24)) = y at *
  have hoffset := hgradual y x (by simp only [hoursMs, minuteMs] at *; omega)
    (by simp only [hoursMs, minuteMs] at *; omega)
  simp only [TimeZone.guess, hoursMs, minuteMs]
  omega

def bound (zone : TimeZone) (today : ℤ) (index : ℕ) : ℤ := startOfDay zone (today - 6 + index)

theorem dayRange_eq (index : ℕ) :
    dayRange zone today index = ⟨bound zone today index, bound zone today (index + 1)⟩ := by
  have hfirst : today + ((index : ℤ) - 6) = today - 6 + index := by omega
  have hlast : today + ((index : ℤ) - 6) + 1 = today - 6 + ((index + 1 : ℕ) : ℤ) := by omega
  simp only [dayRange, addLocalDays, bound]
  rw [hlast, hfirst]

theorem bound_mono (today : ℤ) (hbounded : zone.Bounded) (hgradual : IsGradual zone) (index : ℕ) :
    bound zone today index ≤ bound zone today (index + 1) := by
  have hnext : today - 6 + ((index + 1 : ℕ) : ℤ) = today - 6 + index + 1 := by omega
  unfold bound
  rw [hnext]
  exact startOfDay_le hbounded hgradual _

/-! ## The end of today -/

/-- The midnight is skipped, it would be behind the transition if it were read as UTC, and its
instant under the latter offset is over. -/
def SkippedMidnight (target t before after now : ℤ) : Prop :=
  t ≤ target - before * minuteMs ∧ target - after * minuteMs < t ∧ t ≤ target ∧
    target - after * minuteMs < now

/-- The midnight was there, it would be before the transition if it were read as UTC, and the
transition has brought the day back. -/
def RepeatedMidnight (target t before now : ℤ) : Prop :=
  target - before * minuteMs < t ∧ target < t ∧ t ≤ now

/-- The instant that is found for a local time that the clocks have not reached lies ahead,
unless the time is skipped or over. -/
theorem epoch_ahead (hbounded : zone.Bounded)
    (hswitch : zone.Switches (dateUTC dateKey time) t before after)
    (hahead : zone.localTime now < dateUTC dateKey time) :
    now ≤ zonedLocalTimeToEpoch dateKey time zone ∧
        ¬SkippedMidnight (dateUTC dateKey time) t before after now ∧
        ¬RepeatedMidnight (dateUTC dateKey time) t before now ∨
      SkippedMidnight (dateUTC dateKey time) t before after now ∧
        ¬RepeatedMidnight (dateUTC dateKey time) t before now ∧
        zonedLocalTimeToEpoch dateKey time zone = dateUTC dateKey time - after * minuteMs ∨
      RepeatedMidnight (dateUTC dateKey time) t before now ∧
        ¬SkippedMidnight (dateUTC dateKey time) t before after now ∧
        zonedLocalTimeToEpoch dateKey time zone = dateUTC dateKey time - before * minuteMs := by
  have hnear := epoch_near dateKey time hbounded
  have htarget := hswitch (dateUTC dateKey time) (by simp only [hoursMs, minuteMs]; omega)
    (by simp only [hoursMs, minuteMs]; omega)
  have htargetBounded := hbounded (dateUTC dateKey time)
  have hnowBounded := hbounded now
  have hof_lt := epoch_of_lt hbounded hswitch
  have hof_le := epoch_of_le hbounded hswitch
  have hnow := hswitch now
  unfold TimeZone.localTime at hahead
  unfold SkippedMidnight RepeatedMidnight
  generalize dateUTC dateKey time = target at *
  generalize zonedLocalTimeToEpoch dateKey time zone = start at *
  simp only [hoursMs, minuteMs] at *
  by_cases hfar : now < target - 26 * 60 * 60000
  · split_ifs at htarget <;> omega
  · have hnow := hnow (by omega) (by omega)
    by_cases hlt : target < t
    · have hstart := hof_lt hlt
      split_ifs at hnow hstart <;> omega
    · have hstart := hof_le (by omega)
      split_ifs at hnow hstart <;> omega

theorem localTime_lt_tomorrow (zone : TimeZone) (now : ℤ) :
    zone.localTime now < dateUTC ((zonedDateParts now zone).dateKey + 1) midnight := by
  show zone.localTime now < dateUTC (localMinute now zone / 1440 + 1) midnight
  simp only [dateUTC, localMinute, TimeZone.localTime, minutesPerDay, minuteMs, midnight,
    timeToMinute, ClockTime.of]
  omega

/-! ## The seven days -/

/-- The days follow one another, they add up to the time since the first of them, and the last of
them is today. -/
structure Partitioned (zone : TimeZone) (stored : List StoredSession) (now : ℤ)
    (analytics : BoostAnalytics) : Prop where
  starts : analytics.days.map AnalyticsDay.startsAt = (List.range 7).map fun index =>
    (dayRange zone (zonedDateParts now zone).dateKey index).startsAt
  contiguous : ∀ index, (dayRange zone (zonedDateParts now zone).dateKey index).endsAt =
    (dayRange zone (zonedDateParts now zone).dateKey (index + 1)).startsAt
  ordered : ∀ index, (dayRange zone (zonedDateParts now zone).dateKey index).startsAt ≤
    (dayRange zone (zonedDateParts now zone).dateKey index).endsAt
  total : analytics.days.total AnalyticsDay.durationMs =
    (stored.take 500).total fun session => overlappingDurationMs session.startedAt
      (session.endOr now) (dayRange zone (zonedDateParts now zone).dateKey 0).startsAt now
  today : analytics.days.getLast?.map AnalyticsDay.durationMs = some analytics.todayMs

def RunsBeyond (sessions : List StoredSession) (boundary now : ℤ) : Prop :=
  ∃ session ∈ sessions, max session.startedAt boundary < min (session.endOr now) now

theorem total_beyond_eq_zero_iff {boundary : ℤ} :
    (sessions.total fun session => session.beyond now boundary) = 0 ↔
      ¬RunsBeyond sessions boundary now := by
  rw [List.total_eq_zero_iff, RunsBeyond]
  constructor
  · rintro h ⟨session, hmem, hlt⟩
    have hzero := h session hmem
    simp only [StoredSession.beyond, overlappingDurationMs] at hzero
    omega
  · intro h session hmem
    by_contra hne
    refine h ⟨session, hmem, ?_⟩
    simp only [StoredSession.beyond, overlappingDurationMs] at hne
    omega

/-- The days miss the time that the sessions run beyond the last of them, and nothing else. -/
theorem total_days (sessions : List StoredSession) (now today : ℤ) (hbounded : zone.Bounded)
    (hgradual : IsGradual zone) :
    (sessions.total fun session => overlappingDurationMs session.startedAt (session.endOr now)
        (bound zone today 0) now) =
      ((List.range 7).total fun index => sessions.total fun session =>
        session.within now (dayRange zone today index)) +
      sessions.total fun session => session.beyond now (bound zone today 7) := by
  rw [List.total_comm, ← List.total_add]
  apply List.total_congr
  intro session _
  have hpieces : ((List.range 7).total fun index =>
      session.within now (dayRange zone today index)) = overlappingDurationMs session.startedAt
        (min (session.endOr now) now) (bound zone today 0) (bound zone today 7) := by
    simp only [StoredSession.within_eq, dayRange_eq]
    exact (total_overlappingDurationMs _ _ _ (bound_mono _ hbounded hgradual) 7).2
  have hle := (total_overlappingDurationMs 0 0 _ (bound_mono today hbounded hgradual) 7).1
  rw [hpieces, ← StoredSession.since_split session hle, StoredSession.since_eq]

/-- So does the last day. -/
theorem total_lastDay (sessions : List StoredSession) (now today : ℤ) (hbounded : zone.Bounded)
    (hgradual : IsGradual zone) :
    (sessions.total fun session => session.since now (bound zone today 6)) =
      (sessions.total fun session => session.within now (dayRange zone today 6)) +
      sessions.total fun session => session.beyond now (bound zone today 7) := by
  rw [← List.total_add]
  apply List.total_congr
  intro session _
  rw [StoredSession.since_split session (bound_mono _ hbounded hgradual 6),
    StoredSession.within_eq, dayRange_eq]

theorem bound_six : bound zone today 6 = startOfDay zone today := by
  have hday : today - 6 + ((6 : ℕ) : ℤ) = today := by omega
  unfold bound
  rw [hday]

theorem bound_seven : bound zone today 7 = startOfDay zone (today + 1) := by
  have hday : today - 6 + ((7 : ℕ) : ℤ) = today + 1 := by omega
  unfold bound
  rw [hday]

variable {intl : Intl} {serverZone : TimeZone} {appNames : ℕ → Option String}
  {timezone : Option String}

theorem partitioned_iff_missed (hzone : viewerZone intl serverZone timezone = zone)
    (hbounded : zone.Bounded) (hgradual : IsGradual zone) :
    Partitioned zone stored now
        (getAccountAnalytics intl serverZone appNames stored now timezone) ↔
      ((stored.take 500).total fun session => session.beyond now
        (startOfDay zone ((zonedDateParts now zone).dateKey + 1))) = 0 := by
  have hdays := total_days (stored.take 500) now (zonedDateParts now zone).dateKey hbounded hgradual
  have hlast :=
    total_lastDay (stored.take 500) now (zonedDateParts now zone).dateKey hbounded hgradual
  rw [bound_seven] at hdays hlast
  rw [bound_six] at hlast
  constructor
  · intro h
    have htotal := h.total
    rw [dayRange_eq] at htotal
    simp only [getAccountAnalytics, hzone, List.total_map] at htotal
    omega
  · intro hmissed
    constructor
    case starts =>
      simp only [getAccountAnalytics, hzone, List.map_map]
      rfl
    case contiguous =>
      intro index
      rw [dayRange_eq, dayRange_eq]
    case ordered =>
      intro index
      rw [dayRange_eq]
      exact bound_mono _ hbounded hgradual index
    case total =>
      rw [dayRange_eq]
      simp only [getAccountAnalytics, hzone, List.total_map]
      omega
    case today =>
      simp only [getAccountAnalytics, hzone, List.range_succ, List.map_append, List.map_cons,
        List.map_nil, List.getLast?_append, List.getLast?_singleton, Option.some_or,
        Option.map_some]
      congr 1
      omega

/-- The seven days partition the time since the first of them, and the last of them is today, just
if no session runs on after a midnight that was found too early. -/
theorem analytics_partitioned_iff (hzone : viewerZone intl serverZone timezone = zone)
    (hbounded : zone.Bounded) (hgradual : IsGradual zone)
    (hswitch : zone.Switches (dateUTC ((zonedDateParts now zone).dateKey + 1) midnight)
      t before after) (appNames : ℕ → Option String) (stored : List StoredSession) :
    Partitioned zone stored now
        (getAccountAnalytics intl serverZone appNames stored now timezone) ↔
      ¬(SkippedMidnight (dateUTC ((zonedDateParts now zone).dateKey + 1) midnight) t before after
            now ∧
          RunsBeyond (stored.take 500)
            (dateUTC ((zonedDateParts now zone).dateKey + 1) midnight - after * minuteMs) now ∨
        RepeatedMidnight (dateUTC ((zonedDateParts now zone).dateKey + 1) midnight) t before now ∧
          RunsBeyond (stored.take 500)
            (dateUTC ((zonedDateParts now zone).dateKey + 1) midnight - before * minuteMs) now) := by
  rw [partitioned_iff_missed hzone hbounded hgradual, total_beyond_eq_zero_iff]
  apply not_congr
  rcases epoch_ahead hbounded hswitch (localTime_lt_tomorrow zone now) with
    ⟨hle, hskipped, hrepeated⟩ | ⟨hskipped, hrepeated, hepoch⟩ | ⟨hrepeated, hskipped, hepoch⟩
  · constructor
    · rintro ⟨session, -, hlt⟩
      have hle : now ≤ startOfDay zone ((zonedDateParts now zone).dateKey + 1) := hle
      omega
    · rintro (⟨h, -⟩ | ⟨h, -⟩)
      · exact absurd h hskipped
      · exact absurd h hrepeated
  · unfold startOfDay
    rw [hepoch]
    constructor
    · intro h
      exact .inl ⟨hskipped, h⟩
    · rintro (⟨-, h⟩ | ⟨h, -⟩)
      · exact h
      · exact absurd h hrepeated
  · unfold startOfDay
    rw [hepoch]
    constructor
    · intro h
      exact .inr ⟨hrepeated, h⟩
    · rintro (⟨h, -⟩ | ⟨-, h⟩)
      · exact absurd h hskipped
      · exact h

def runningSince (startedAt : ℤ) : StoredSession where
  id := 1
  presetId := none
  presetName := none
  appIds := [730]
  startedAt
  endedAt := none
  stopReason := none

theorem analytics_partitioned_constant :
    Partitioned (.constant 60) [runningSince 0] 1000 (getAccountAnalytics (fun _ => none)
      (.constant 60) (fun _ => none) [runningSince 0] 1000 none) := by
  have hzone : viewerZone (fun _ => none) (.constant 60) none = .constant 60 := rfl
  have hbounded : (TimeZone.constant 60).Bounded := by
    intro date
    simp only [TimeZone.constant]
    omega
  have hgradual : IsGradual (.constant 60) := by
    intro x y _ _
    simp only [TimeZone.constant]
    omega
  have hswitch : (TimeZone.constant 60).Switches
      (dateUTC ((zonedDateParts 1000 (.constant 60)).dateKey + 1) midnight) 0 60 60 := by
    intro date _ _
    rw [ite_self]
    rfl
  apply (analytics_partitioned_iff hzone hbounded hgradual hswitch (fun _ => none)
    [runningSince 0]).mpr
  rintro (⟨⟨-, hlt, hle, -⟩, -⟩ | ⟨⟨-, hlt, -⟩, -⟩)
  · exact absurd hlt (by decide)
  · exact absurd hlt (by decide)

/-- Beirut in the spring of 2024, when 00:00 was followed by 01:00. -/
def skippedMidnight : TimeZone :=
  ⟨fun date => if date < dateUTC 19812 (.of 22 0) then 120 else 180⟩

/-- St. John's in the autumn of 2010, when 00:01 was followed by 23:01 of the day before. -/
def repeatedMidnight : TimeZone :=
  ⟨fun date => if date < dateUTC 14920 (.of 2 31) then -150 else -210⟩

/-- What the last day and the whole say of a session, at 23:30 before a midnight that is skipped
and at 23:15 after one that is over. -/
theorem not_analytics_partitioned :
    ¬Partitioned skippedMidnight [runningSince (dateUTC 19812 (.of 20 0))]
        (dateUTC 19812 (.of 21 30)) (getAccountAnalytics (fun _ => none) skippedMidnight
          (fun _ => none) [runningSince (dateUTC 19812 (.of 20 0))] (dateUTC 19812 (.of 21 30))
            none) ∧
      ¬Partitioned repeatedMidnight [runningSince (dateUTC 14920 (.of 2 0))]
        (dateUTC 14920 (.of 2 45)) (getAccountAnalytics (fun _ => none) repeatedMidnight
          (fun _ => none) [runningSince (dateUTC 14920 (.of 2 0))] (dateUTC 14920 (.of 2 45))
            none) := by
  constructor
  · intro h
    exact absurd h.today (by decide +kernel)
  · intro h
    exact absurd h.today (by decide +kernel)

end SteamBee.ReadModels
