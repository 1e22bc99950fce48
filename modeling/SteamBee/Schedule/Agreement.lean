import Mathlib.Algebra.Order.Ring.Int
import SteamBee.Schedule.Preview
import SteamBee.Schedule.Winner

/-! With time zones of a constant offset, the schedule preview tells what the coordinator
will evaluate: the same windows at every instant before its horizon, and the same winner. -/
namespace SteamBee.Schedule

namespace ClockTime

theorem minute_nonneg (t : ClockTime) : 0 ≤ timeToMinute t := by
  unfold timeToMinute
  omega

theorem minute_lt_day (t : ClockTime) : timeToMinute t < 1440 := by
  have hhour := t.hour_lt
  have hminute := t.minute_lt
  unfold timeToMinute
  omega

/-- Times of day compare as their texts do. -/
theorem text_lt_iff (a b : ClockTime) : a.text < b.text ↔ timeToMinute a < timeToMinute b := by
  have ha := a.minute_lt
  have hb := b.minute_lt
  simp only [text, List.cons_lt_cons_iff, timeToMinute, List.lt_irrefl, and_false, or_false,
    Nat.lt_irrefl, false_or, true_and, Nat.add_lt_add_iff_left, Nat.add_left_cancel_iff]
  constructor
  · rintro (h | ⟨h₁, h | ⟨h₂, h | ⟨h₃, h⟩⟩⟩)
    · omega
    · omega
    · omega
    · omega
  · intro h
    by_cases hhour : a.hour = b.hour
    · right
      refine ⟨by rw [hhour], .inr ⟨by rw [hhour], ?_⟩⟩
      omega
    · omega

end ClockTime

theorem overnight_iff (schedule : ScheduleRecord) :
    schedule.overnight ↔ timeToMinute schedule.endTime < timeToMinute schedule.startTime :=
  ClockTime.text_lt_iff _ _

/-- A zone whose offset from UTC never changes. -/
def TimeZone.constant (offset : ℤ) : TimeZone := ⟨fun _ => offset⟩

theorem timeToMinute_parts (date : ℤ) (zone : TimeZone) :
    timeToMinute (zonedDateParts date zone).time = localMinute date zone % 1440 := by
  simp only [timeToMinute, zonedDateParts, minutesPerDay]
  omega

theorem dateUTC_parts (date : ℤ) (zone : TimeZone) :
    dateUTC (zonedDateParts date zone).dateKey (zonedDateParts date zone).time =
      localMinute date zone * minuteMs := by
  have hminute := timeToMinute_parts date zone
  have hday : (zonedDateParts date zone).dateKey = localMinute date zone / 1440 := rfl
  unfold dateUTC
  rw [hminute, hday]
  simp only [minutesPerDay]
  congr 1
  omega

variable {offset : ℤ}

theorem localMinute_constant (minute : ℤ) :
    localMinute (minute * minuteMs) (.constant offset) = minute + offset := by
  simp [localMinute, TimeZone.constant, minuteMs]

/-- Where the offset is constant the second candidate is right. -/
theorem epoch_constant (dateKey : ℤ) (time : ClockTime) :
    zonedLocalTimeToEpoch dateKey time (.constant offset) =
      (dateKey * 1440 + timeToMinute time - offset) * minuteMs := by
  unfold zonedLocalTimeToEpoch
  have htarget : dateUTC dateKey time = (dateKey * 1440 + timeToMinute time) * minuteMs := rfl
  rw [htarget]
  generalize dateKey * 1440 + timeToMinute time = minute
  simp only [correctCandidate, dateUTC_parts, localMinute_constant]
  by_cases hzero : offset = 0
  · simp [hzero]
  · have hsecond : minute * minuteMs + (minute * minuteMs - (minute + offset) * minuteMs) =
        (minute - offset) * minuteMs := by
      simp only [minuteMs]
      omega
    have hne : minute * minuteMs - (minute + offset) * minuteMs ≠ 0 := by
      simp only [minuteMs]
      omega
    rw [if_neg hne, hsecond, localMinute_constant]
    simp

theorem startsAt_constant (schedule : ScheduleRecord) (dateKey : ℤ) :
    schedule.startsAt (.constant offset) dateKey =
      (dateKey * 1440 + timeToMinute schedule.startTime - offset) * minuteMs :=
  epoch_constant dateKey schedule.startTime

theorem endsAt_constant (schedule : ScheduleRecord) (dateKey : ℤ) :
    schedule.endsAt (.constant offset) dateKey =
      ((if schedule.overnight then dateKey + 1 else dateKey) * 1440 +
        timeToMinute schedule.endTime - offset) * minuteMs :=
  epoch_constant _ schedule.endTime

/-- An instant is compared with a minute of the clock by its own minute. -/
theorem clock_le_iff (minute t : ℤ) :
    (minute - offset) * minuteMs ≤ t ↔ minute ≤ localMinute t (.constant offset) := by
  simp only [localMinute, TimeZone.constant, minuteMs]
  omega

theorem lt_clock_iff (minute t : ℤ) :
    t < (minute - offset) * minuteMs ↔ localMinute t (.constant offset) < minute := by
  simp only [localMinute, TimeZone.constant, minuteMs]
  omega

structure Runs (schedule : ScheduleRecord) (zone : TimeZone) (dateKey t : ℤ) : Prop where
  weekday : weekdayOf dateKey ∈ parseWeekdays schedule.weekdaysJson
  starts : schedule.startsAt zone dateKey ≤ t
  ends : t < schedule.endsAt zone dateKey

variable {intl : Intl} {schedule : ScheduleRecord} {t : ℤ}

/-- The window covers the minutes of its date, or of its date and the next one. -/
theorem runs_iff {dateKey : ℤ} :
    Runs schedule (.constant offset) dateKey t ↔
      weekdayOf dateKey ∈ parseWeekdays schedule.weekdaysJson ∧
        dateKey * 1440 + timeToMinute schedule.startTime ≤ localMinute t (.constant offset) ∧
        localMinute t (.constant offset) <
          (if schedule.overnight then dateKey + 1 else dateKey) * 1440 +
            timeToMinute schedule.endTime := by
  constructor
  · rintro ⟨hweekday, hstarts, hends⟩
    rw [startsAt_constant, clock_le_iff] at hstarts
    rw [endsAt_constant, lt_clock_iff] at hends
    exact ⟨hweekday, hstarts, hends⟩
  · rintro ⟨hweekday, hstarts, hends⟩
    refine ⟨hweekday, ?_, ?_⟩
    · rw [startsAt_constant, clock_le_iff]
      exact hstarts
    · rw [endsAt_constant, lt_clock_iff]
      exact hends

/-- The date of a window that covers `t` is the date of `t`, or the one before. -/
theorem Runs.date {dateKey : ℤ} (h : Runs schedule (.constant offset) dateKey t) :
    (¬schedule.overnight ∧ localMinute t (.constant offset) / 1440 = dateKey ∧
        timeToMinute schedule.startTime ≤ localMinute t (.constant offset) % 1440 ∧
        localMinute t (.constant offset) % 1440 < timeToMinute schedule.endTime) ∨
      (schedule.overnight ∧ localMinute t (.constant offset) / 1440 = dateKey ∧
        timeToMinute schedule.startTime ≤ localMinute t (.constant offset) % 1440) ∨
      schedule.overnight ∧ localMinute t (.constant offset) / 1440 = dateKey + 1 ∧
        localMinute t (.constant offset) % 1440 < timeToMinute schedule.endTime := by
  obtain ⟨-, hstarts, hends⟩ := runs_iff.mp h
  have hstart := schedule.startTime.minute_nonneg
  have hend := schedule.endTime.minute_lt_day
  have hend' := schedule.endTime.minute_nonneg
  by_cases hover : schedule.overnight
  · rw [if_pos hover] at hends
    by_cases hsame : localMinute t (.constant offset) / 1440 = dateKey
    · exact .inr (.inl ⟨hover, hsame, by omega⟩)
    · exact .inr (.inr ⟨hover, by omega, by omega⟩)
  · rw [if_neg hover] at hends
    exact .inl ⟨hover, by omega, by omega, by omega⟩

theorem weekdayOf_previous (dateKey : ℤ) :
    (weekdayOf dateKey + 6) % 7 = weekdayOf (addLocalDays dateKey (-1)) := by
  simp only [weekdayOf, addLocalDays]
  omega

/-- The evaluation by the minutes of the clock. -/
theorem evaluate_constant (hzone : intl schedule.timezone = some (.constant offset)) {minute : ℤ}
    (hminute : localMinute t (.constant offset) = minute) :
    evaluateScheduleWindow intl schedule t =
      if (parseWeekdays schedule.weekdaysJson).length = 0 then .ok inactiveWindow
      else if ¬schedule.overnight then
        if weekdayOf (minute / 1440) ∈ parseWeekdays schedule.weekdaysJson ∧
            minute % 1440 ≥ timeToMinute schedule.startTime ∧
            minute % 1440 < timeToMinute schedule.endTime then
          .ok (activeWindow schedule (.constant offset) (minute / 1440))
        else .ok inactiveWindow
      else if weekdayOf (minute / 1440) ∈ parseWeekdays schedule.weekdaysJson ∧
          minute % 1440 ≥ timeToMinute schedule.startTime then
        .ok (activeWindow schedule (.constant offset) (minute / 1440))
      else if weekdayOf (minute / 1440 - 1) ∈ parseWeekdays schedule.weekdaysJson ∧
          minute % 1440 < timeToMinute schedule.endTime then
        .ok (activeWindow schedule (.constant offset) (minute / 1440 - 1))
      else .ok inactiveWindow := by
  unfold evaluateScheduleWindow
  simp only [hzone, timeToMinute_parts, hminute, gt_iff_lt, overnight_iff]
  have hdate : (zonedDateParts t (.constant offset)).dateKey = minute / 1440 :=
    congrArg (· / 1440) hminute
  have hweekday : (zonedDateParts t (.constant offset)).weekday = weekdayOf (minute / 1440) :=
    congrArg weekdayOf hdate
  rw [hweekday, hdate, weekdayOf_previous]
  rfl

theorem evaluate_runs (hzone : intl schedule.timezone = some (.constant offset)) {dateKey : ℤ}
    (h : Runs schedule (.constant offset) dateKey t) :
    evaluateScheduleWindow intl schedule t =
      .ok (activeWindow schedule (.constant offset) dateKey) := by
  have hsome : (parseWeekdays schedule.weekdaysJson).length ≠ 0 := by
    have hpos := List.length_pos_of_mem h.weekday
    omega
  rw [evaluate_constant hzone rfl, if_neg hsome]
  rcases h.date with ⟨hno, rfl, hstart, hend⟩ | ⟨hyes, rfl, hstart⟩ | ⟨hyes, hdate, hend⟩
  · rw [if_pos hno, if_pos ⟨h.weekday, hstart, hend⟩]
  · rw [if_neg (not_not.mpr hyes), if_pos ⟨h.weekday, hstart⟩]
  · have hyesterday : localMinute t (.constant offset) / 1440 - 1 = dateKey := by omega
    have hlate : ¬(weekdayOf (localMinute t (.constant offset) / 1440) ∈
        parseWeekdays schedule.weekdaysJson ∧
        localMinute t (.constant offset) % 1440 ≥ timeToMinute schedule.startTime) := by
      rintro ⟨-, hstart⟩
      have hlt := (overnight_iff schedule).mp hyes
      omega
    rw [if_neg (not_not.mpr hyes), if_neg hlate, hyesterday, if_pos ⟨h.weekday, hend⟩]

/-- What is evaluated is a window that covers the instant, or none. -/
theorem runs_of_evaluate (hzone : intl schedule.timezone = some (.constant offset)) :
    evaluateScheduleWindow intl schedule t = .ok inactiveWindow ∨
      ∃ dateKey, Runs schedule (.constant offset) dateKey t ∧
        evaluateScheduleWindow intl schedule t =
          .ok (activeWindow schedule (.constant offset) dateKey) := by
  have hlast := schedule.startTime.minute_lt_day
  have hfirst := schedule.endTime.minute_nonneg
  rw [evaluate_constant hzone rfl]
  split
  next => exact .inl rfl
  next =>
    split
    next hno =>
      split
      next h =>
        right
        refine ⟨_, runs_iff.mpr ⟨h.1, by omega, ?_⟩, rfl⟩
        rw [if_neg hno]
        omega
      next => exact .inl rfl
    next hyes =>
      have hyes : schedule.overnight := not_not.mp hyes
      split
      next h =>
        right
        refine ⟨_, runs_iff.mpr ⟨h.1, by omega, ?_⟩, rfl⟩
        rw [if_pos hyes]
        omega
      next =>
        split
        next h =>
          right
          refine ⟨_, runs_iff.mpr ⟨h.1, by omega, ?_⟩, rfl⟩
          rw [if_pos hyes]
          omega
        next => exact .inl rfl

theorem mem_localDateKeys {zone : TimeZone} {start through dateKey : ℤ} :
    dateKey ∈ localDateKeys zone start through ↔
      ∃ cursor ∈ cursors start through, localMinute cursor zone / 1440 = dateKey := by
  unfold localDateKeys
  rw [List.mem_insertionSort, List.mem_eraseDups, List.mem_map]
  rfl

theorem mem_cursors {start through : ℤ} (i : ℕ) (h : start + i * hoursMs 12 ≤ through) :
    start + i * hoursMs 12 ∈ cursors start through := by
  unfold cursors
  simp only [hoursMs, minuteMs] at *
  rw [if_neg (by omega)]
  refine List.mem_map.mpr ⟨i, List.mem_range.mpr ?_, rfl⟩
  omega

/-- Every date between those of the first and of the last cursor is visited. -/
theorem date_mem_localDateKeys {start through dateKey : ℤ}
    (hfirst : localMinute start (.constant offset) / 1440 ≤ dateKey)
    (hlast : dateKey ≤ localMinute (through - hoursMs 24) (.constant offset) / 1440)
    (hlong : start ≤ through) :
    dateKey ∈ localDateKeys (.constant offset) start through := by
  rw [mem_localDateKeys]
  simp only [localMinute, TimeZone.constant, hoursMs, minuteMs] at hfirst hlast
  by_cases hdate : localMinute start (.constant offset) / 1440 = dateKey
  · refine ⟨start + (0 : ℕ) * hoursMs 12, mem_cursors 0 (by simpa using hlong), ?_⟩
    simpa using hdate
  · simp only [localMinute, TimeZone.constant, minuteMs] at hdate
    -- the first cursor after midnight is still on this date
    obtain ⟨i, hi⟩ : ∃ i : ℕ, (i : ℤ) =
        ((dateKey * 1440 - offset) * 60000 - start + 43199999) / 43200000 := by
      refine ⟨_, Int.toNat_of_nonneg ?_⟩
      omega
    refine ⟨start + i * hoursMs 12, mem_cursors i ?_, ?_⟩
    · simp only [hoursMs, minuteMs]
      omega
    · simp only [localMinute, TimeZone.constant, hoursMs, minuteMs]
      omega

/-- The preview looks at the date of every window that covers an instant before its
horizon. -/
theorem Runs.mem_localDateKeys {dateKey now through : ℤ}
    (h : Runs schedule (.constant offset) dateKey t) (hnow : now ≤ t) (ht : t < through) :
    dateKey ∈ localDateKeys (.constant offset) (now - hoursMs 24) (through + hoursMs 24) := by
  have hdate : localMinute t (.constant offset) / 1440 = dateKey ∨
      localMinute t (.constant offset) / 1440 = dateKey + 1 := by
    rcases h.date with ⟨-, hdate, -⟩ | ⟨-, hdate, -⟩ | ⟨-, hdate, -⟩
    · exact .inl hdate
    · exact .inl hdate
    · exact .inr hdate
  simp only [localMinute, TimeZone.constant, minuteMs] at hdate
  apply date_mem_localDateKeys
  · simp only [localMinute, TimeZone.constant, hoursMs, minuteMs]
    omega
  · simp only [localMinute, TimeZone.constant, hoursMs, minuteMs]
    omega
  · simp only [hoursMs, minuteMs]
    omega

/-- The weekday at noon is the weekday of the date. -/
theorem weekday_noon (dateKey : ℤ) :
    (zonedDateParts (zonedLocalTimeToEpoch dateKey noon (.constant offset))
      (.constant offset)).weekday = weekdayOf dateKey := by
  rw [epoch_constant]
  show weekdayOf (localMinute _ _ / 1440) = _
  rw [localMinute_constant]
  have hnoon : timeToMinute noon = 720 := rfl
  congr 1
  omega

instance : Std.Total fun left right : Candidate => compareCandidates left right ≤ 0 where
  total left right := by
    simp only [compareCandidates, compareWindows_le_iff]
    omega

instance : IsTrans Candidate fun left right => compareCandidates left right ≤ 0 where
  trans left middle right := by
    simp only [compareCandidates, compareWindows_le_iff]
    omega

structure Describes (c : Candidate) (row : PreviewRow) (zone : TimeZone) (skipped : List WindowId)
    (dateKey : ℤ) : Prop where
  windowId : c.windowId = row.schedule.windowId dateKey
  scheduleId : c.scheduleId = row.schedule.id
  updatedAt : c.updatedAt = row.schedule.updatedAt
  startsAt : c.startsAt = row.schedule.startsAt zone dateKey
  endsAt : c.endsAt = row.schedule.endsAt zone dateKey
  skipped : c.skipped = decide (row.schedule.windowId dateKey ∈ skipped)

variable {now through dateKey : ℤ} {skipped : List WindowId} {row : PreviewRow}
  {rows : List PreviewRow} {c : Candidate}

theorem candidateAt_spec
    (h : candidateAt skipped now through row (.constant offset) dateKey = some c) :
    Describes c row (.constant offset) skipped dateKey ∧
      weekdayOf dateKey ∈ parseWeekdays row.schedule.weekdaysJson ∧ c.startsAt < through := by
  unfold candidateAt at h
  rw [weekday_noon] at h
  dsimp only at h
  split at h
  next => cases h
  next hweekday =>
    split at h
    next => cases h
    next hbounds =>
      obtain rfl := Option.some.inj h
      refine ⟨⟨rfl, rfl, rfl, rfl, rfl, rfl⟩, not_not.mp hweekday, ?_⟩
      show row.schedule.startsAt _ _ < through
      omega

theorem candidateAt_isSome (skipped : List WindowId)
    (h : Runs row.schedule (.constant offset) dateKey t) (hnow : now ≤ t) (ht : t < through) :
    ∃ c, candidateAt skipped now through row (.constant offset) dateKey = some c := by
  have hstarts := h.starts
  have hends := h.ends
  unfold candidateAt
  rw [weekday_noon]
  dsimp only
  rw [if_neg (not_not.mpr h.weekday), if_neg (by omega)]
  exact ⟨_, rfl⟩

def ConstantZones (intl : Intl) (rows : List PreviewRow) : Prop :=
  ∀ row ∈ rows, ∃ offset, intl row.schedule.timezone = some (.constant offset)

theorem mapM_ok {α β ε : Type} {f : α → Except ε β} {g : α → β} {l : List α}
    (h : ∀ a ∈ l, f a = .ok (g a)) : l.mapM f = .ok (l.map g) := by
  induction l with
  | nil => rfl
  | cons a l ih =>
    rw [List.mapM_cons, h a List.mem_cons_self, ih fun b hb => h b (List.mem_cons_of_mem a hb)]
    rfl

/-- The candidates are the windows of the enabled schedules, those before the horizon all
among them. -/
structure Lists (intl : Intl) (rows : List PreviewRow) (skipped : List WindowId) (now through : ℤ)
    (candidates : List Candidate) : Prop where
  sound : ∀ c ∈ candidates, ∃ row ∈ rows, row.schedule.enabled = true ∧
    ∃ offset dateKey, intl row.schedule.timezone = some (.constant offset) ∧
      Describes c row (.constant offset) skipped dateKey ∧
      weekdayOf dateKey ∈ parseWeekdays row.schedule.weekdaysJson ∧ c.startsAt < through
  complete : ∀ row ∈ rows, row.schedule.enabled = true → ∀ offset dateKey t,
    intl row.schedule.timezone = some (.constant offset) →
    Runs row.schedule (.constant offset) dateKey t → now ≤ t → t < through →
    ∃ c ∈ candidates, Describes c row (.constant offset) skipped dateKey

theorem lists_candidates (skipped : List WindowId) (now through : ℤ)
    (hzones : ConstantZones intl rows) :
    ∃ lists, rows.mapM (candidatesOf intl skipped now through) = .ok lists ∧
      Lists intl rows skipped now through lists.flatten := by
  have hok (row : PreviewRow) (hrow : row ∈ rows) : ∃ l,
      candidatesOf intl skipped now through row = .ok l := by
    obtain ⟨offset, hzone⟩ := hzones row hrow
    unfold candidatesOf
    rw [hzone]
    split
    next => exact ⟨_, rfl⟩
    next => exact ⟨_, rfl⟩
  have hmap := mapM_ok (l := rows) (f := candidatesOf intl skipped now through)
    (g := fun row => (candidatesOf intl skipped now through row).toOption.getD []) (by
      intro row hrow
      obtain ⟨l, hl⟩ := hok row hrow
      rw [hl]
      rfl)
  refine ⟨_, hmap, ?_, ?_⟩
  · intro c hc
    obtain ⟨l, hl, hc⟩ := List.mem_flatten.mp hc
    obtain ⟨row, hrow, rfl⟩ := List.mem_map.mp hl
    obtain ⟨offset, hzone⟩ := hzones row hrow
    unfold candidatesOf at hc
    rw [hzone] at hc
    split at hc
    next => cases hc
    next henabled =>
      obtain ⟨dateKey, -, hc⟩ := List.mem_filterMap.mp hc
      exact ⟨row, hrow, by simpa using henabled, offset, dateKey, hzone, candidateAt_spec hc⟩
  · intro row hrow henabled offset dateKey t hzone hruns hnow ht
    obtain ⟨c, hc⟩ := candidateAt_isSome skipped hruns hnow ht
    refine ⟨c, ?_, (candidateAt_spec hc).1⟩
    refine List.mem_flatten.mpr ⟨_, List.mem_map.mpr ⟨row, hrow, rfl⟩, ?_⟩
    unfold candidatesOf
    rw [hzone, henabled]
    exact List.mem_filterMap.mpr ⟨dateKey, hruns.mem_localDateKeys hnow ht, hc⟩

variable {candidates : List Candidate} {windowId : WindowId} {startedAt : ℤ}

theorem Lists.evaluates (h : Lists intl rows skipped now through candidates) (hc : c ∈ candidates)
    (hskip : c.skipped = false) (hstarts : c.startsAt ≤ t) (hends : t < c.endsAt) :
    ∃ row ∈ rows, row.schedule.enabled = true ∧ c.windowId ∉ skipped ∧
      evaluateScheduleWindow intl row.schedule t = .ok ⟨true, some c.windowId, some c.startsAt⟩ ∧
      c.scheduleId = row.schedule.id ∧ c.updatedAt = row.schedule.updatedAt := by
  obtain ⟨row, hrow, henabled, offset, dateKey, hzone, hd, hweekday, -⟩ := h.sound c hc
  have hruns : Runs row.schedule (.constant offset) dateKey t := by
    rw [hd.startsAt] at hstarts
    rw [hd.endsAt] at hends
    exact ⟨hweekday, hstarts, hends⟩
  have hnot : c.windowId ∉ skipped := by
    rw [hd.skipped] at hskip
    rw [hd.windowId]
    exact of_decide_eq_false hskip
  refine ⟨row, hrow, henabled, hnot, ?_, hd.scheduleId, hd.updatedAt⟩
  rw [evaluate_runs hzone hruns, hd.windowId, hd.startsAt]
  rfl

theorem Lists.lists (h : Lists intl rows skipped now through candidates)
    (hzones : ConstantZones intl rows) (hrow : row ∈ rows) (henabled : row.schedule.enabled = true)
    (hnow : now ≤ t) (ht : t < through)
    (heval : evaluateScheduleWindow intl row.schedule t = .ok ⟨true, some windowId, some startedAt⟩)
    (hskip : windowId ∉ skipped) :
    ∃ c ∈ candidates, c.skipped = false ∧ c.startsAt ≤ t ∧ t < c.endsAt ∧
      c.windowId = windowId ∧ c.startsAt = startedAt ∧ c.scheduleId = row.schedule.id ∧
      c.updatedAt = row.schedule.updatedAt := by
  obtain ⟨offset, hzone⟩ := hzones row hrow
  rcases runs_of_evaluate (t := t) hzone with hnone | ⟨dateKey, hruns, hfound⟩
  · rw [heval] at hnone
    cases hnone
  · rw [heval] at hfound
    obtain ⟨rfl, rfl⟩ : windowId = row.schedule.windowId dateKey ∧
        startedAt = row.schedule.startsAt (.constant offset) dateKey := by
      simpa [activeWindow, ScheduleRecord.startsAt] using hfound
    obtain ⟨c, hc, hd⟩ := h.complete row hrow henabled offset dateKey t hzone hruns hnow ht
    refine ⟨c, hc, ?_, ?_, ?_, hd.windowId, hd.startsAt, hd.scheduleId, hd.updatedAt⟩
    · rw [hd.skipped]
      exact decide_eq_false hskip
    · rw [hd.startsAt]
      exact hruns.starts
    · rw [hd.endsAt]
      exact hruns.ends

theorem mem_activeAt : c ∈ activeAt candidates t ↔
    c ∈ candidates ∧ c.skipped = false ∧ c.startsAt ≤ t ∧ t < c.endsAt := by
  unfold activeAt
  rw [List.mem_insertionSort, List.mem_filter]
  simp [and_assoc]

def evaluateRows (intl : Intl) (skipped : List WindowId) (rows : List PreviewRow) (t : ℤ) :
    List ScheduleEntry :=
  rows.map fun row =>
    evaluateEntry intl (fun windowId => decide (windowId ∈ skipped)) row.schedule t

def Picks (entries : List ScheduleEntry) (windowId : WindowId) : Prop :=
  ∃ entry state, selectScheduleWinner entries = some entry ∧ entry.state = some state ∧
    state.windowId = some windowId

theorem compareEntries_eq {left right : Candidate} {leftEntry rightEntry : ScheduleEntry}
    (hleft : leftEntry.startedAt = left.startsAt ∧ leftEntry.schedule.updatedAt = left.updatedAt ∧
      leftEntry.schedule.id = left.scheduleId)
    (hright : rightEntry.startedAt = right.startsAt ∧
      rightEntry.schedule.updatedAt = right.updatedAt ∧ rightEntry.schedule.id = right.scheduleId) :
    compareEntries leftEntry rightEntry = compareCandidates left right := by
  unfold compareEntries compareCandidates
  rw [hleft.1, hleft.2.1, hleft.2.2, hright.1, hright.2.1, hright.2.2]

/-- An active candidate and the entry of its row. -/
theorem Lists.entry (h : Lists intl rows skipped now through candidates)
    (hc : c ∈ activeAt candidates t) :
    ∃ row ∈ rows, ∃ entry ∈ evaluateRows intl skipped rows t, entry.isCandidate = true ∧
      entry.schedule = row.schedule ∧
      evaluateScheduleWindow intl row.schedule t = .ok ⟨true, some c.windowId, some c.startsAt⟩ ∧
      (entry.startedAt = c.startsAt ∧ entry.schedule.updatedAt = c.updatedAt ∧
        entry.schedule.id = c.scheduleId) := by
  obtain ⟨hmem, hskip, hstarts, hends⟩ := mem_activeAt.mp hc
  obtain ⟨row, hrow, henabled, hnot, heval, hid, hupdated⟩ := h.evaluates hmem hskip hstarts hends
  have hstate : (evaluateEntry intl (fun windowId => decide (windowId ∈ skipped))
      row.schedule t).state = some ⟨true, some c.windowId, some c.startsAt⟩ := by
    simp [evaluateEntry, henabled, heval, hnot]
  refine ⟨row, hrow, _, List.mem_map.mpr ⟨row, hrow, rfl⟩, ?_, rfl, heval, ?_, hupdated.symm,
    hid.symm⟩
  · exact isCandidate_iff.mpr ⟨_, _, henabled, decide_eq_false hnot, heval, hstate⟩
  · unfold ScheduleEntry.startedAt
    rw [hstate]
    rfl

/-- An entry that takes part in the selection and the candidate of its row. -/
theorem Lists.candidate (h : Lists intl rows skipped now through candidates)
    (hzones : ConstantZones intl rows) (hnow : now ≤ t) (ht : t < through) {entry : ScheduleEntry}
    (hentry : entry ∈ evaluateRows intl skipped rows t) (hcand : entry.isCandidate = true) :
    ∃ row ∈ rows, ∃ c ∈ activeAt candidates t, entry.schedule = row.schedule ∧
      entry.state = some ⟨true, some c.windowId, some c.startsAt⟩ ∧
      evaluateScheduleWindow intl row.schedule t = .ok ⟨true, some c.windowId, some c.startsAt⟩ ∧
      (entry.startedAt = c.startsAt ∧ entry.schedule.updatedAt = c.updatedAt ∧
        entry.schedule.id = c.scheduleId) := by
  obtain ⟨row, hrow, rfl⟩ := List.mem_map.mp hentry
  obtain ⟨windowId, startedAt, henabled, hskip, heval, hstate⟩ := isCandidate_iff.mp hcand
  obtain ⟨c, hc, hskip', hstarts, hends, rfl, rfl, hid, hupdated⟩ :=
    h.lists hzones hrow henabled hnow ht heval (of_decide_eq_false hskip)
  refine ⟨row, hrow, c, mem_activeAt.mpr ⟨hc, hskip', hstarts, hends⟩, rfl, hstate, heval, ?_,
    hupdated.symm, hid.symm⟩
  unfold ScheduleEntry.startedAt
  rw [hstate]
  rfl

/-- The first active candidate and the selected entry are windows of one schedule. -/
theorem Lists.same_window (h : Lists intl rows skipped now through candidates)
    (hzones : ConstantZones intl rows) (hnodup : (rows.map fun row => row.schedule.id).Nodup)
    (hnow : now ≤ t) (ht : t < through) {entries : List ScheduleEntry}
    (hperm : entries.Perm (evaluateRows intl skipped rows t)) {entry : ScheduleEntry}
    (hfirst : (activeAt candidates t).head? = some c)
    (hwins : selectScheduleWinner entries = some entry) :
    entry.state = some ⟨true, some c.windowId, some c.startsAt⟩ := by
  obtain ⟨hactive, hbefore⟩ := head_insertionSort _ hfirst
  obtain ⟨hentry, hcand, hbest⟩ := selectScheduleWinner_spec hwins
  have hc : c ∈ activeAt candidates t := (List.mem_insertionSort _).mpr hactive
  obtain ⟨row, hrow, own, hown, howncand, hsame, heval, hfields⟩ := h.entry hc
  obtain ⟨row', hrow', c', hc', hsame', hstate, heval', hfields'⟩ :=
    h.candidate hzones hnow ht (hperm.mem_iff.mp hentry) hcand
  -- each comes before the other, so they agree on the schedule
  have hle : compareCandidates c c' ≤ 0 := hbefore c' ((List.mem_insertionSort _).mp hc')
  have hge : compareCandidates c' c ≤ 0 := by
    rw [← compareEntries_eq hfields' hfields]
    exact hbest own (hperm.mem_iff.mpr hown) howncand
  have hid : c.scheduleId = c'.scheduleId := compareWindows_antisymm hle hge
  obtain rfl : row = row' := by
    refine List.inj_on_of_nodup_map hnodup hrow hrow' ?_
    rw [← hsame, ← hsame', hfields.2.2, hid, hfields'.2.2]
  rw [heval] at heval'
  obtain ⟨hwindow, hstarted⟩ : c.windowId = c'.windowId ∧ c.startsAt = c'.startsAt := by
    simpa using heval'
  rw [hwindow, hstarted]
  exact hstate

/-- In whatever order the rows are read, the coordinator picks the first active candidate. -/
theorem Lists.picks (h : Lists intl rows skipped now through candidates)
    (hzones : ConstantZones intl rows) (hnodup : (rows.map fun row => row.schedule.id).Nodup)
    (hnow : now ≤ t) (ht : t < through) {entries : List ScheduleEntry}
    (hperm : entries.Perm (evaluateRows intl skipped rows t)) (windowId : WindowId) :
    (activeAt candidates t).head?.map (·.windowId) = some windowId ↔ Picks entries windowId := by
  constructor
  · intro hfirst
    obtain ⟨c, hhead, rfl⟩ := Option.map_eq_some_iff.mp hfirst
    have hc : c ∈ activeAt candidates t := List.mem_of_mem_head? hhead
    obtain ⟨-, -, own, hown, howncand, -⟩ := h.entry hc
    obtain ⟨entry, hwins⟩ := selectScheduleWinner_isSome (hperm.mem_iff.mpr hown) howncand
    exact ⟨entry, _, hwins, h.same_window hzones hnodup hnow ht hperm hhead hwins, rfl⟩
  · rintro ⟨entry, state, hwins, hstate, hwindow⟩
    obtain ⟨hentry, hcand, -⟩ := selectScheduleWinner_spec hwins
    obtain ⟨-, -, c', hc', -⟩ := h.candidate hzones hnow ht (hperm.mem_iff.mp hentry) hcand
    obtain ⟨c, hfirst⟩ := head_insertionSort_isSome
      (fun left right : Candidate => compareCandidates left right ≤ 0)
      ((List.mem_insertionSort _).mp hc')
    have hfirst : (activeAt candidates t).head? = some c := hfirst
    have hsame := h.same_window hzones hnodup hnow ht hperm hfirst hwins
    rw [hstate] at hsame
    obtain rfl := Option.some.inj hsame
    rw [hfirst]
    exact hwindow

/-- The schedules of one account: ids are primary keys. -/
structure ScheduleSet where
  rows : List PreviewRow
  nodup : (rows.map fun row => row.schedule.id).Nodup

theorem buildSchedulePreview_ok {exceptions : List WindowId} {days : ℕ}
    {lists : List (List Candidate)}
    (hlists : rows.mapM (candidatesOf intl exceptions now (now + days * hoursMs 24)) = .ok lists) :
    ∃ preview, buildSchedulePreview intl rows exceptions days now = .ok preview ∧
      preview.through = now + days * hoursMs 24 ∧
      ∀ item, item ∈ preview.items ↔
        ∃ c ∈ lists.flatten, (resolve lists.flatten c).toSchedulePreviewItem = item := by
  unfold buildSchedulePreview
  dsimp only
  rw [hlists]
  refine ⟨_, rfl, rfl, fun item => ?_⟩
  simp only [List.mem_map, List.mem_insertionSort, exists_exists_and_eq_and]

/-- With time zones of a constant offset, the items that are not skipped are at every
instant before the horizon the windows that are evaluated as active and not skipped, and an
item is marked as the winner when the coordinator picks it at its start. -/
theorem preview_agrees (intl : Intl) (schedules : ScheduleSet) (exceptions : List WindowId)
    (days : ℕ) (now : ℤ) (hzones : ConstantZones intl schedules.rows) :
    ∃ preview, buildSchedulePreview intl schedules.rows exceptions days now = .ok preview ∧
      preview.through = now + days * hoursMs 24 ∧
      (∀ t, now ≤ t → t < preview.through → ∀ windowId startsAt,
        (∃ item ∈ preview.items, item.skipped = false ∧ item.windowId = windowId ∧
          item.startsAt = startsAt ∧ item.startsAt ≤ t ∧ t < item.endsAt) ↔
        windowId ∉ exceptions ∧ ∃ row ∈ schedules.rows, row.schedule.enabled = true ∧
          evaluateScheduleWindow intl row.schedule t = .ok ⟨true, some windowId, some startsAt⟩) ∧
      ∀ item ∈ preview.items, now ≤ item.startsAt →
        ∀ entries, entries.Perm (evaluateRows intl exceptions schedules.rows item.startsAt) →
          (item.winner = true ↔ Picks entries item.windowId) := by
  obtain ⟨lists, hlists, h⟩ := lists_candidates exceptions now (now + days * hoursMs 24) hzones
  obtain ⟨preview, hbuild, hthrough, hitems⟩ := buildSchedulePreview_ok hlists
  refine ⟨preview, hbuild, hthrough, ?_, ?_⟩
  · intro t hnow ht windowId startsAt
    rw [hthrough] at ht
    constructor
    · rintro ⟨item, hitem, hskip, rfl, rfl, hstarts, hends⟩
      obtain ⟨c, hc, rfl⟩ := (hitems item).mp hitem
      obtain ⟨row, hrow, henabled, hnot, heval, -⟩ := h.evaluates hc hskip hstarts hends
      exact ⟨hnot, row, hrow, henabled, heval⟩
    · rintro ⟨hnot, row, hrow, henabled, heval⟩
      obtain ⟨c, hc, hskip, hstarts, hends, hwindow, hstarted, -⟩ :=
        h.lists hzones hrow henabled hnow ht heval hnot
      exact ⟨_, (hitems _).mpr ⟨c, hc, rfl⟩, hskip, hwindow, hstarted, hstarts, hends⟩
  · intro item hitem hnow entries hperm
    obtain ⟨c, hc, rfl⟩ := (hitems item).mp hitem
    obtain ⟨-, -, -, -, -, -, -, -, ht⟩ := h.sound c hc
    have hpicks := h.picks hzones schedules.nodup hnow ht hperm c.windowId
    exact decide_eq_true_iff.trans hpicks

def nightSchedule : ScheduleRecord where
  id := 1
  accountId := 1
  presetId := 1
  name := "Night"
  enabled := true
  weekdaysJson := .array [.integer 4, .integer 5]
  startTime := .of 22 0
  endTime := .of 6 30
  timezone := "Etc/GMT-2"
  lastStartedWindow := none
  lastStoppedWindow := none
  updatedAt := 5

def nights : ScheduleSet where
  rows := [⟨nightSchedule, some "Games"⟩,
    ⟨{ nightSchedule with id := 2, startTime := .of 23 0 }, none⟩]
  nodup := by decide

def twoHoursEast : Intl := fun _ => some (.constant 120)

theorem preview_agrees_nights : ∃ preview,
    buildSchedulePreview twoHoursEast nights.rows [] 7 0 = .ok preview ∧
      ∃ item ∈ preview.items, item.windowId = nightSchedule.windowId 0 ∧
        item.startsAt ≤ 79200000 ∧ 79200000 < item.endsAt := by
  obtain ⟨preview, hbuild, hthrough, hitems, -⟩ :=
    preview_agrees twoHoursEast nights [] 7 0 fun _ _ => ⟨120, rfl⟩
  refine ⟨preview, hbuild, ?_⟩
  have ht : (79200000 : ℤ) < preview.through := by
    rw [hthrough]
    decide
  have hruns : Runs nightSchedule (.constant 120) 0 79200000 :=
    runs_iff.mpr ⟨by decide, by decide, by decide⟩
  obtain ⟨item, hitem, -, hwindow, -, hstarts, hends⟩ :=
    (hitems 79200000 (by decide) ht (nightSchedule.windowId 0) _).mpr
      ⟨by decide, _, List.mem_cons_self, rfl, evaluate_runs rfl hruns⟩
  exact ⟨item, hitem, hwindow, hstarts, hends⟩

end SteamBee.Schedule
