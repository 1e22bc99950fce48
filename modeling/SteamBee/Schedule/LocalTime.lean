import Mathlib.Logic.Function.Iterate
import SteamBee.Schedule.Agreement

/-! Local times in zones whose offset changes, and the instants that `zonedLocalTimeToEpoch`
finds for them. -/
namespace SteamBee.Schedule

/-- What the clocks of the zone show, as if they showed UTC. -/
def TimeZone.localTime (zone : TimeZone) (date : ℤ) : ℤ := date + zone.offsetAt date * minuteMs

/-- The offsets lie between -12 and +14 hours. -/
def TimeZone.Bounded (zone : TimeZone) : Prop :=
  ∀ date, -720 ≤ zone.offsetAt date ∧ zone.offsetAt date ≤ 840

/-- Within 26 hours of the target there is no transition but one at `t`. -/
def TimeZone.Switches (zone : TimeZone) (target t before after : ℤ) : Prop :=
  ∀ date, target - hoursMs 26 ≤ date → date ≤ target + hoursMs 26 →
    zone.offsetAt date = if date < t then before else after

/-- The instant of a local time under the offset of another instant. -/
def TimeZone.guess (zone : TimeZone) (target date : ℤ) : ℤ :=
  target - zone.offsetAt date * minuteMs

variable {zone : TimeZone} {target date t before after : ℤ} {dateKey : ℤ} {time : ClockTime}

/-! ## The iteration -/

theorem localMinute_mul (zone : TimeZone) (h : date % minuteMs = 0) :
    localMinute date zone * minuteMs = zone.localTime date := by
  simp only [localMinute, TimeZone.localTime, minuteMs] at h ⊢
  omega

theorem guess_aligned (h : target % minuteMs = 0) : zone.guess target date % minuteMs = 0 := by
  simp only [TimeZone.guess, minuteMs] at h ⊢
  omega

theorem dateUTC_aligned : dateUTC dateKey time % minuteMs = 0 := Int.mul_emod_left _ _

/-- Each attempt guesses anew; a right guess stays. By induction on the attempts. -/
theorem correctCandidate_eq (htarget : target % minuteMs = 0) (attempts : ℕ)
    (hdate : date % minuteMs = 0) :
    correctCandidate target zone attempts date = (zone.guess target)^[attempts] date := by
  induction attempts generalizing date with
  | zero => rfl
  | succ attempts ih =>
    unfold correctCandidate
    dsimp only
    rw [dateUTC_parts, localMinute_mul zone hdate]
    have hnext : date + (target - zone.localTime date) = zone.guess target date := by
      unfold TimeZone.localTime TimeZone.guess
      omega
    split_ifs with hright
    · have hfixed : zone.guess target date = date := by omega
      exact (Function.iterate_fixed hfixed (attempts + 1)).symm
    · rw [hnext, ih (guess_aligned htarget), Function.iterate_succ_apply]

theorem zonedLocalTimeToEpoch_eq : zonedLocalTimeToEpoch dateKey time zone =
    zone.guess (dateUTC dateKey time)
      (zone.guess (dateUTC dateKey time) (zone.guess (dateUTC dateKey time)
        (dateUTC dateKey time))) :=
  correctCandidate_eq dateUTC_aligned 3 dateUTC_aligned

/-! ## A zone with one transition -/

/-- A guess that uses a bounded offset stays near the target. -/
theorem guess_near (target date : ℤ) (h : zone.Bounded) :
    target - hoursMs 14 ≤ zone.guess target date ∧
      zone.guess target date ≤ target + hoursMs 12 := by
  obtain ⟨hlow, hhigh⟩ := h date
  simp only [TimeZone.guess, hoursMs, minuteMs]
  omega

theorem guess_of_switches (hswitch : zone.Switches target t before after)
    (hlow : target - hoursMs 14 ≤ date) (hhigh : date ≤ target + hoursMs 12) :
    zone.guess target date =
      if date < t then target - before * minuteMs else target - after * minuteMs := by
  have hoffset := hswitch date (by simp only [hoursMs, minuteMs] at *; omega)
    (by simp only [hoursMs, minuteMs] at *; omega)
  unfold TimeZone.guess
  rw [hoffset]
  split_ifs <;> rfl

theorem guess_target (hswitch : zone.Switches target t before after) :
    zone.guess target target =
      if target < t then target - before * minuteMs else target - after * minuteMs := by
  apply guess_of_switches hswitch
  · simp only [hoursMs, minuteMs]
    omega
  · simp only [hoursMs, minuteMs]
    omega

theorem guess_guess (date : ℤ) (hbounded : zone.Bounded)
    (hswitch : zone.Switches target t before after) :
    zone.guess target (zone.guess target date) =
      if zone.guess target date < t then target - before * minuteMs
      else target - after * minuteMs :=
  guess_of_switches hswitch (guess_near target date hbounded).1
    (guess_near target date hbounded).2

theorem epoch_near (dateKey : ℤ) (time : ClockTime) (h : zone.Bounded) :
    dateUTC dateKey time - hoursMs 14 ≤ zonedLocalTimeToEpoch dateKey time zone ∧
      zonedLocalTimeToEpoch dateKey time zone ≤ dateUTC dateKey time + hoursMs 12 := by
  rw [zonedLocalTimeToEpoch_eq]
  exact guess_near _ _ h

/-- Where the target, read as UTC, lies before the transition: the second offset is used just if
both guesses lie behind it. -/
theorem epoch_of_lt (hbounded : zone.Bounded)
    (hswitch : zone.Switches (dateUTC dateKey time) t before after)
    (hlt : dateUTC dateKey time < t) :
    zonedLocalTimeToEpoch dateKey time zone =
      if t ≤ dateUTC dateKey time - before * minuteMs ∧
          t ≤ dateUTC dateKey time - after * minuteMs then
        dateUTC dateKey time - after * minuteMs
      else dateUTC dateKey time - before * minuteMs := by
  rw [zonedLocalTimeToEpoch_eq, guess_guess _ hbounded hswitch, guess_guess _ hbounded hswitch,
    guess_target hswitch, if_pos hlt]
  by_cases hfirst : dateUTC dateKey time - before * minuteMs < t
  · rw [if_pos hfirst, if_pos hfirst, if_neg (by omega)]
  · rw [if_neg hfirst]
    by_cases hsecond : dateUTC dateKey time - after * minuteMs < t
    · rw [if_pos hsecond, if_neg (by omega)]
    · rw [if_neg hsecond, if_pos (by omega)]

/-- Where it does not, the first offset is used just if both guesses lie before it. -/
theorem epoch_of_le (hbounded : zone.Bounded)
    (hswitch : zone.Switches (dateUTC dateKey time) t before after)
    (hle : t ≤ dateUTC dateKey time) :
    zonedLocalTimeToEpoch dateKey time zone =
      if dateUTC dateKey time - before * minuteMs < t ∧
          dateUTC dateKey time - after * minuteMs < t then
        dateUTC dateKey time - before * minuteMs
      else dateUTC dateKey time - after * minuteMs := by
  rw [zonedLocalTimeToEpoch_eq, guess_guess _ hbounded hswitch, guess_guess _ hbounded hswitch,
    guess_target hswitch, if_neg (not_lt.mpr hle)]
  by_cases hsecond : dateUTC dateKey time - after * minuteMs < t
  · rw [if_pos hsecond]
    by_cases hfirst : dateUTC dateKey time - before * minuteMs < t
    · rw [if_pos hfirst, if_pos ⟨hfirst, hsecond⟩]
    · rw [if_neg hfirst, if_neg (by omega)]
  · rw [if_neg hsecond, if_neg hsecond, if_neg (by omega)]

/-! ## Times that exist -/

theorem ClockTime.eq_of_minute {a b : ClockTime} (h : timeToMinute a = timeToMinute b) : a = b := by
  have ha := a.minute_lt
  have hb := b.minute_lt
  obtain ⟨hour, minute, _, _⟩ := a
  obtain ⟨hour', minute', _, _⟩ := b
  simp only [timeToMinute] at h
  simp only [ClockTime.mk.injEq]
  dsimp only at ha hb
  omega

/-- An instant that shows a date and a time has them as its parts. -/
theorem parts_of_localTime (h : zone.localTime date = dateUTC dateKey time) :
    (zonedDateParts date zone).dateKey = dateKey ∧ (zonedDateParts date zone).time = time := by
  have hnonneg := time.minute_nonneg
  have hlt := time.minute_lt_day
  have haligned : date % minuteMs = 0 := by
    have htarget : dateUTC dateKey time % minuteMs = 0 := dateUTC_aligned
    rw [← h] at htarget
    simp only [TimeZone.localTime, minuteMs] at htarget ⊢
    omega
  have hminute : localMinute date zone = dateKey * 1440 + timeToMinute time := by
    have hmul := localMinute_mul zone haligned
    rw [h] at hmul
    simp only [dateUTC, minutesPerDay, minuteMs] at hmul
    omega
  constructor
  · show localMinute date zone / 1440 = dateKey
    omega
  · apply ClockTime.eq_of_minute
    rw [timeToMinute_parts]
    omega

/-- A local date and time that the clocks of the zone show at some instant is found, and the
instant that is found shows it. -/
theorem zonedLocalTimeToEpoch_exact (zone : TimeZone) (dateKey : ℤ) (time : ClockTime)
    (hbounded : zone.Bounded)
    (hswitch : ∃ t before after, zone.Switches (dateUTC dateKey time) t before after)
    (hexists : ∃ date, zone.localTime date = dateUTC dateKey time) :
    zone.localTime (zonedLocalTimeToEpoch dateKey time zone) = dateUTC dateKey time ∧
      (zonedDateParts (zonedLocalTimeToEpoch dateKey time zone) zone).dateKey = dateKey ∧
      (zonedDateParts (zonedLocalTimeToEpoch dateKey time zone) zone).time = time := by
  obtain ⟨t, before, after, hswitch⟩ := hswitch
  obtain ⟨date, hdate⟩ := hexists
  -- an instant that shows the target is one of the two guesses, on its side of the transition
  have hguess : zone.guess (dateUTC dateKey time) date = date := by
    unfold TimeZone.localTime at hdate
    unfold TimeZone.guess
    omega
  have hside : date = if date < t then dateUTC dateKey time - before * minuteMs
      else dateUTC dateKey time - after * minuteMs := by
    have hnext := guess_guess date hbounded hswitch
    rwa [hguess, hguess] at hnext
  have hfound : ∃ offset, zonedLocalTimeToEpoch dateKey time zone =
      dateUTC dateKey time - offset * minuteMs ∧
      offset = if dateUTC dateKey time - offset * minuteMs < t then before else after := by
    by_cases hlt : dateUTC dateKey time < t
    · rw [epoch_of_lt hbounded hswitch hlt]
      by_cases hboth : t ≤ dateUTC dateKey time - before * minuteMs ∧
          t ≤ dateUTC dateKey time - after * minuteMs
      · refine ⟨after, if_pos hboth, ?_⟩
        rw [if_neg (by omega)]
      · refine ⟨before, if_neg hboth, ?_⟩
        rw [if_pos (by split_ifs at hside <;> omega)]
    · rw [epoch_of_le hbounded hswitch (by omega)]
      by_cases hboth : dateUTC dateKey time - before * minuteMs < t ∧
          dateUTC dateKey time - after * minuteMs < t
      · refine ⟨before, if_pos hboth, ?_⟩
        rw [if_pos hboth.1]
      · refine ⟨after, if_neg hboth, ?_⟩
        rw [if_neg (by split_ifs at hside <;> omega)]
  obtain ⟨offset, hepoch, hoffset⟩ := hfound
  have hnear := epoch_near dateKey time hbounded
  rw [hepoch] at hnear
  have hshown : zone.localTime (zonedLocalTimeToEpoch dateKey time zone) =
      dateUTC dateKey time := by
    have hzone := hswitch (dateUTC dateKey time - offset * minuteMs)
      (by simp only [hoursMs, minuteMs] at *; omega) (by simp only [hoursMs, minuteMs] at *; omega)
    rw [hepoch]
    unfold TimeZone.localTime
    rw [hzone, ← hoffset]
    omega
  exact ⟨hshown, parts_of_localTime hshown⟩

/-- New York in the spring of 2024, when 02:00 was followed by 03:00. -/
def springForward : TimeZone :=
  ⟨fun date => if date < dateUTC 19792 (.of 7 0) then -300 else -240⟩

theorem bounded_springForward : springForward.Bounded := by
  intro date
  simp only [springForward]
  split_ifs <;> omega

theorem zonedLocalTimeToEpoch_exact_springForward :
    springForward.localTime (zonedLocalTimeToEpoch 19792 (.of 3 30) springForward) =
      dateUTC 19792 (.of 3 30) :=
  (zonedLocalTimeToEpoch_exact springForward 19792 (.of 3 30) bounded_springForward
    ⟨_, -300, -240, fun _ _ _ => rfl⟩ ⟨dateUTC 19792 (.of 7 30), by decide⟩).1

end SteamBee.Schedule
