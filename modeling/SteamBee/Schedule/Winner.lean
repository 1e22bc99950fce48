import SteamBee.Schedule.Window

/-! The selection of the winning window. -/
namespace SteamBee.Schedule

/-- The first element of a sorted list comes before every other. -/
theorem head_insertionSort {α : Type} (r : α → α → Prop) [DecidableRel r] [Std.Total r]
    [IsTrans α r] {l : List α} {x : α} (h : (l.insertionSort r).head? = some x) :
    x ∈ l ∧ ∀ y ∈ l, r x y := by
  have hsorted := List.pairwise_insertionSort r l
  have hperm := List.perm_insertionSort r l
  cases hl : l.insertionSort r with
  | nil => simp [hl] at h
  | cons z zs =>
    obtain rfl : z = x := by simpa [hl] using h
    rw [hl] at hsorted hperm
    refine ⟨hperm.mem_iff.mp List.mem_cons_self, fun y hy => ?_⟩
    rcases List.mem_cons.mp (hperm.mem_iff.mpr hy) with rfl | hy
    · rcases Std.Total.total (r := r) y y with h | h
      · exact h
      · exact h
    · exact List.rel_of_pairwise_cons hsorted hy

theorem head_insertionSort_isSome {α : Type} (r : α → α → Prop) [DecidableRel r] {l : List α}
    {x : α} (hx : x ∈ l) : ∃ y, (l.insertionSort r).head? = some y := by
  cases hl : l.insertionSort r with
  | nil =>
    have hmem := (List.mem_insertionSort r).mpr hx
    rw [hl] at hmem
    cases hmem
  | cons y ys => exact ⟨y, rfl⟩

/-- The order of windows is lexicographic. -/
theorem compareWindows_le_iff {leftStart rightStart leftUpdate rightUpdate : ℤ}
    {leftId rightId : ℕ} :
    compareWindows leftStart rightStart leftUpdate rightUpdate leftId rightId ≤ 0 ↔
      rightStart < leftStart ∨ rightStart = leftStart ∧
        (rightUpdate < leftUpdate ∨ rightUpdate = leftUpdate ∧ rightId ≤ leftId) := by
  simp only [compareWindows, localeCompare]
  by_cases hstart : rightStart - leftStart ≠ 0
  · rw [if_pos hstart]
    omega
  · rw [if_neg hstart]
    by_cases hupdate : rightUpdate - leftUpdate ≠ 0
    · rw [if_pos hupdate]
      omega
    · rw [if_neg hupdate]
      rcases Nat.lt_trichotomy rightId leftId with hid | hid | hid
      · rw [if_pos hid]
        omega
      · rw [if_neg (by omega), if_neg (by omega)]
        omega
      · rw [if_neg (by omega), if_pos hid]
        omega

theorem compareWindows_antisymm {leftStart rightStart leftUpdate rightUpdate : ℤ}
    {leftId rightId : ℕ}
    (hle : compareWindows leftStart rightStart leftUpdate rightUpdate leftId rightId ≤ 0)
    (hge : compareWindows rightStart leftStart rightUpdate leftUpdate rightId leftId ≤ 0) :
    leftId = rightId := by
  rw [compareWindows_le_iff] at hle hge
  omega

instance : Std.Total fun left right : ScheduleEntry => compareEntries left right ≤ 0 where
  total left right := by
    simp only [compareEntries, compareWindows_le_iff]
    omega

instance : IsTrans ScheduleEntry fun left right => compareEntries left right ≤ 0 where
  trans left middle right := by
    simp only [compareEntries, compareWindows_le_iff]
    omega

variable {intl : Intl} {isSkipped : WindowId → Bool} {schedule : ScheduleRecord} {t : ℤ}

/-- An entry takes part in the selection when its schedule is enabled and its window is
not skipped. -/
theorem isCandidate_iff :
    (evaluateEntry intl isSkipped schedule t).isCandidate = true ↔
      ∃ windowId startedAt, schedule.enabled = true ∧ isSkipped windowId = false ∧
        evaluateScheduleWindow intl schedule t = .ok ⟨true, some windowId, some startedAt⟩ ∧
        (evaluateEntry intl isSkipped schedule t).state =
          some ⟨true, some windowId, some startedAt⟩ := by
  have hstate : (evaluateEntry intl isSkipped schedule t).isCandidate = true ↔
      ∃ windowId startedAt, (evaluateEntry intl isSkipped schedule t).state =
        some ⟨true, some windowId, some startedAt⟩ := by
    unfold ScheduleEntry.isCandidate
    rcases (evaluateEntry intl isSkipped schedule t).state with _ | ⟨active, windowId, startedAt⟩
    · simp
    · cases windowId <;> cases startedAt <;> simp
  rw [hstate]
  constructor
  · rintro ⟨windowId, startedAt, h⟩
    refine ⟨windowId, startedAt, ?_⟩
    have hentry := h
    unfold evaluateEntry at hentry
    dsimp only at hentry
    split at hentry
    next henabled =>
      split at hentry
      next state heval =>
        have hentry := Option.some.inj hentry
        by_cases hskip : state.windowId.any isSkipped = true
        · rw [if_pos hskip] at hentry
          cases hentry
        · rw [if_neg hskip] at hentry
          subst hentry
          exact ⟨henabled, by simpa using hskip, heval, h⟩
      next => cases hentry
    next => cases hentry
  · rintro ⟨windowId, startedAt, -, -, -, h⟩
    exact ⟨windowId, startedAt, h⟩

theorem selectScheduleWinner_spec {entries : List ScheduleEntry} {entry : ScheduleEntry}
    (h : selectScheduleWinner entries = some entry) :
    entry ∈ entries ∧ entry.isCandidate = true ∧
      ∀ other ∈ entries, other.isCandidate = true → compareEntries entry other ≤ 0 := by
  obtain ⟨hfirst, hall⟩ := head_insertionSort _ h
  obtain ⟨hmem, hcand⟩ := List.mem_filter.mp hfirst
  exact ⟨hmem, hcand, fun other ho hoc => hall other (List.mem_filter.mpr ⟨ho, hoc⟩)⟩

theorem selectScheduleWinner_isSome {entries : List ScheduleEntry} {entry : ScheduleEntry}
    (hmem : entry ∈ entries) (hcand : entry.isCandidate = true) :
    ∃ winner, selectScheduleWinner entries = some winner :=
  head_insertionSort_isSome _ (List.mem_filter.mpr ⟨hmem, hcand⟩)

end SteamBee.Schedule
