import SteamBee.Schedule.LocalTime

/-! When the reported start of an active window has come: always, unless a transition of the
time zone skips the start or repeats it. -/
namespace SteamBee.Schedule

variable {intl : Intl} {schedule : ScheduleRecord} {now : ℤ} {state : ScheduleWindowState}
  {zone : TimeZone} {t before after : ℤ} {dateKey : ℤ} {time : ClockTime}

/-- The start is skipped, it would be before the transition if it were read as UTC, and its instant
under the former offset has not come. -/
def SkippedStart (target t before after now : ℤ) : Prop :=
  target - after * minuteMs < t ∧ t ≤ target - before * minuteMs ∧ target < t ∧
    now < target - before * minuteMs

/-- The start is repeated, it would be behind the transition if it were read as UTC, and the
transition has not come. -/
def RepeatedStart (target t before after now : ℤ) : Prop :=
  target - before * minuteMs < t ∧ t ≤ target - after * minuteMs ∧ t ≤ target ∧ now < t

/-- On its weekday, the start of an active window is no later than what the clocks show. -/
theorem active_begun (h : evaluateScheduleWindow intl schedule now = .ok state)
    (hactive : state.active = true) (hzone : intl schedule.timezone = some zone) :
    ∃ dateKey, state = activeWindow schedule zone dateKey ∧
      weekdayOf dateKey ∈ parseWeekdays schedule.weekdaysJson ∧
      dateKey * 1440 + timeToMinute schedule.startTime ≤ localMinute now zone := by
  have hminute := timeToMinute_parts now zone
  have hday : (zonedDateParts now zone).dateKey = localMinute now zone / 1440 := rfl
  have hweekday : (zonedDateParts now zone).weekday = weekdayOf (localMinute now zone / 1440) := rfl
  have hstart := schedule.startTime.minute_lt_day
  have hinactive : inactiveWindow.active = false := rfl
  unfold evaluateScheduleWindow at h
  simp only [hzone, hminute, hday, hweekday] at h
  split_ifs at h with hnone hovernight hsame hprevious hsame
  · obtain rfl := Except.ok.inj h
    cases hinactive.symm.trans hactive
  · obtain rfl := Except.ok.inj h
    exact ⟨localMinute now zone / 1440, rfl, hsame.1, by omega⟩
  · obtain rfl := Except.ok.inj h
    refine ⟨localMinute now zone / 1440 - 1, rfl, ?_, by omega⟩
    have hback : weekdayOf (localMinute now zone / 1440 - 1) =
        (weekdayOf (localMinute now zone / 1440) + 6) % 7 := by
      simp only [weekdayOf]
      omega
    rw [hback]
    exact hprevious.1
  · obtain rfl := Except.ok.inj h
    cases hinactive.symm.trans hactive
  · obtain rfl := Except.ok.inj h
    exact ⟨localMinute now zone / 1440, rfl, hsame.1, by omega⟩
  · obtain rfl := Except.ok.inj h
    cases hinactive.symm.trans hactive

/-- What the clocks show in whole minutes has been reached. -/
theorem dateUTC_le_localTime
    (h : dateKey * 1440 + timeToMinute time ≤ localMinute now zone) :
    dateUTC dateKey time ≤ zone.localTime now := by
  simp only [dateUTC, localMinute, TimeZone.localTime, minutesPerDay, minuteMs] at h ⊢
  omega

/-- Once the clocks have reached a local time, so has the instant that is found for it, unless
it is skipped or repeated. -/
theorem epoch_le_now_iff (hbounded : zone.Bounded)
    (hswitch : zone.Switches (dateUTC dateKey time) t before after)
    (hbegun : dateUTC dateKey time ≤ zone.localTime now) :
    zonedLocalTimeToEpoch dateKey time zone ≤ now ↔
      ¬(SkippedStart (dateUTC dateKey time) t before after now ∨
        RepeatedStart (dateUTC dateKey time) t before after now) := by
  have hnear := epoch_near dateKey time hbounded
  have htarget := hswitch (dateUTC dateKey time) (by simp only [hoursMs, minuteMs]; omega)
    (by simp only [hoursMs, minuteMs]; omega)
  have htargetBounded := hbounded (dateUTC dateKey time)
  have hnowBounded := hbounded now
  have hof_lt := epoch_of_lt hbounded hswitch
  have hof_le := epoch_of_le hbounded hswitch
  have hnow := hswitch now
  unfold TimeZone.localTime at hbegun
  unfold SkippedStart RepeatedStart
  generalize dateUTC dateKey time = target at *
  generalize zonedLocalTimeToEpoch dateKey time zone = start at *
  simp only [hoursMs, minuteMs] at *
  by_cases hfar : target + 26 * 60 * 60000 < now
  · constructor
    · rintro - (⟨-, -, hlt, hearly⟩ | ⟨-, -, hle, hearly⟩)
      · rw [if_pos hlt] at htarget
        omega
      · omega
    · intro _
      omega
  · have hnow := hnow (by omega) (by omega)
    by_cases hlt : target < t
    · have hstart := hof_lt hlt
      split_ifs at hnow hstart <;> omega
    · have hstart := hof_le (by omega)
      split_ifs at hnow hstart <;> omega

/-- An active window lies on a weekday of its schedule, and its reported start has come, just if
no transition makes it late. -/
theorem activeWindow_begun_iff (hzone : intl schedule.timezone = some zone)
    (hbounded : zone.Bounded) (h : evaluateScheduleWindow intl schedule now = .ok state)
    (hactive : state.active = true) : ∃ dateKey start,
      state.windowId = some (schedule.windowId dateKey) ∧ state.windowStartedAt = some start ∧
      ∀ t before after, zone.Switches (dateUTC dateKey schedule.startTime) t before after →
        ((start ≤ now ∧ weekdayOf dateKey ∈ parseWeekdays schedule.weekdaysJson) ↔
          ¬(SkippedStart (dateUTC dateKey schedule.startTime) t before after now ∨
            RepeatedStart (dateUTC dateKey schedule.startTime) t before after now)) := by
  obtain ⟨dateKey, rfl, hweekday, hminute⟩ := active_begun h hactive hzone
  refine ⟨dateKey, _, rfl, rfl, ?_⟩
  intro t before after hswitch
  rw [← epoch_le_now_iff hbounded hswitch (dateUTC_le_localTime hminute)]
  exact and_iff_left hweekday

/-- A schedule from half past two on each day. -/
def nightly (timezone : String) : ScheduleRecord where
  id := 1
  accountId := 1
  presetId := 1
  name := "Night"
  enabled := true
  weekdaysJson := .array [.integer 0, .integer 1, .integer 2, .integer 3, .integer 4, .integer 5,
    .integer 6]
  startTime := .of 2 30
  endTime := .of 5 0
  timezone
  lastStartedWindow := none
  lastStoppedWindow := none
  updatedAt := 0

/-- Berlin in the autumn of 2024, when 03:00 was followed by 02:00. -/
def fallBack : TimeZone := ⟨fun date => if date < dateUTC 20023 (.of 1 0) then 120 else 60⟩

def twoZones : Intl
  | "America/New_York" => some springForward
  | "Europe/Berlin" => some fallBack
  | _ => none

/-- Windows that are active before they start: at 03:10, as 02:30 is skipped, and at the first
02:40, as 02:30 is repeated. -/
theorem not_activeWindow_begun :
    (∃ state start, evaluateScheduleWindow twoZones (nightly "America/New_York")
        (dateUTC 19792 (.of 7 10)) = .ok state ∧ state.active = true ∧
      state.windowStartedAt = some start ∧ dateUTC 19792 (.of 7 10) < start) ∧
    ∃ state start, evaluateScheduleWindow twoZones (nightly "Europe/Berlin")
        (dateUTC 20023 (.of 0 40)) = .ok state ∧ state.active = true ∧
      state.windowStartedAt = some start ∧ dateUTC 20023 (.of 0 40) < start :=
  ⟨⟨_, dateUTC 19792 (.of 7 30), by rfl, rfl, by decide +kernel, by decide⟩,
    ⟨_, dateUTC 20023 (.of 1 30), by rfl, rfl, by decide +kernel, by decide⟩⟩

theorem activeWindow_begun_springForward : ∃ dateKey start, start ≤ dateUTC 19792 (.of 7 30) ∧
    weekdayOf dateKey ∈ parseWeekdays (nightly "America/New_York").weekdaysJson := by
  have hzone : twoZones (nightly "America/New_York").timezone = some springForward := rfl
  have hstate : ∃ state, evaluateScheduleWindow twoZones (nightly "America/New_York")
      (dateUTC 19792 (.of 7 30)) = .ok state ∧ state.active = true ∧
        state.windowId.map WindowId.dateKey = some 19792 := ⟨_, by rfl, rfl, by rfl⟩
  obtain ⟨state, hstate, hactive, hday⟩ := hstate
  obtain ⟨dateKey, start, hid, -, hiff⟩ :=
    activeWindow_begun_iff hzone bounded_springForward hstate hactive
  rw [hid] at hday
  obtain rfl : dateKey = 19792 := Option.some.inj hday
  refine ⟨19792, start, (hiff (dateUTC 19792 (.of 7 0)) (-300) (-240) fun _ _ _ => rfl).mpr ?_⟩
  rintro (⟨-, -, -, hearly⟩ | ⟨-, -, hle, -⟩)
  · exact absurd hearly (by decide)
  · exact absurd hle (by decide)

end SteamBee.Schedule
