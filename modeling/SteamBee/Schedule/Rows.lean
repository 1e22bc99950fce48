import SteamBee.Schedule.Coordinator

/-! The stored markers of schedules and what the two transactions do to them. -/
namespace SteamBee.Schedule

namespace ScheduleRecord

def IsOpen (row : ScheduleRecord) (w : WindowId) : Prop :=
  row.lastStartedWindow = some w ∧ row.lastStoppedWindow ≠ some w

theorem openWindow_eq_some {row : ScheduleRecord} {ow : OpenScheduleWindow} :
    row.openWindow = some ow ↔ ow.scheduleId = row.id ∧ row.IsOpen ow.windowId := by
  obtain ⟨id, w⟩ := ow
  unfold openWindow IsOpen
  cases hstarted : row.lastStartedWindow with
  | none => simp
  | some started =>
    dsimp only
    by_cases hstopped : row.lastStoppedWindow = some started
    · rw [if_neg (not_not.mpr hstopped.symm)]
      constructor
      · intro h
        cases h
      · rintro ⟨-, hstart, hne⟩
        rw [Option.some.inj hstart] at hstopped
        exact absurd hstopped hne
    · rw [if_pos (Ne.symm hstopped)]
      constructor
      · intro h
        obtain ⟨rfl, rfl⟩ := OpenScheduleWindow.mk.inj (Option.some.inj h)
        exact ⟨rfl, rfl, hstopped⟩
      · rintro ⟨rfl, hstart, -⟩
        rw [Option.some.inj hstart]

def close (row : ScheduleRecord) : ScheduleRecord :=
  { row with lastStoppedWindow := row.lastStartedWindow }

def start (row : ScheduleRecord) (w : WindowId) : ScheduleRecord :=
  { row with
    lastStartedWindow := some w
    lastStoppedWindow := if row.lastStoppedWindow = some w then none else row.lastStoppedWindow }

theorem not_isOpen_close (row : ScheduleRecord) (w : WindowId) : ¬row.close.IsOpen w := by
  rintro ⟨hstarted, hstopped⟩
  exact hstopped hstarted

theorem isOpen_start {row : ScheduleRecord} {w w' : WindowId} :
    (row.start w).IsOpen w' ↔ w' = w := by
  constructor
  · rintro ⟨hstarted, -⟩
    exact (Option.some.inj hstarted).symm
  · rintro rfl
    refine ⟨rfl, ?_⟩
    show (if row.lastStoppedWindow = some w' then none else row.lastStoppedWindow) ≠ some w'
    split
    next => simp
    next h => exact h

end ScheduleRecord

namespace Rows
open ScheduleRecord
variable {rows rows' : Rows} {accountId : AccountId} {id : ScheduleId} {w : WindowId}
  {windows previousWindows : List OpenScheduleWindow} {window : OpenScheduleWindow}
  {expectedUpdatedAt : ℤ}

theorem mem_schedules {schedule : ScheduleRecord} :
    schedule ∈ rows.schedules ↔ ∃ id, rows.lookup id = some schedule := by
  unfold schedules
  rw [List.mem_map]
  constructor
  · rintro ⟨⟨id, row⟩, he, rfl⟩
    exact ⟨id, Table.lookup_eq_some_iff.mpr he⟩
  · rintro ⟨id, h⟩
    exact ⟨⟨id, schedule⟩, Table.lookup_eq_some_iff.mp h, rfl⟩

theorem mem_listSchedulesForAccount {schedule : ScheduleRecord} :
    schedule ∈ rows.listSchedulesForAccount accountId ↔
      (∃ id, rows.lookup id = some schedule) ∧ schedule.accountId = accountId := by
  unfold listSchedulesForAccount
  rw [List.mem_filter, mem_schedules, decide_eq_true_iff]

/-- Marking one window stopped closes its row. -/
theorem markStopped_spec (h : rows.markStopped accountId window = some rows') :
    (∃ row, rows.lookup window.scheduleId = some row ∧ row.accountId = accountId ∧
      row.lastStartedWindow = some window.windowId) ∧
      ∀ id, rows'.lookup id = (rows.lookup id).map fun row =>
        if id = window.scheduleId then row.close else row := by
  unfold markStopped at h
  split at h
  next row hrow =>
    split at h
    next hwhere =>
      obtain ⟨haccount, hstarted⟩ := hwhere
      obtain rfl := Option.some.inj h
      refine ⟨⟨row, hrow, haccount, hstarted⟩, fun id => ?_⟩
      rw [Table.lookup_modify]
      by_cases hid : id = window.scheduleId
      · subst hid
        simp [hrow, close, hstarted]
      · simp [hid]
    next => cases h
  next => cases h

theorem markStopped_isSome {row : ScheduleRecord} (hrow : rows.lookup window.scheduleId = some row)
    (haccount : row.accountId = accountId) (hstarted : row.lastStartedWindow = some window.windowId) :
    ∃ rows', rows.markStopped accountId window = some rows' := by
  unfold markStopped
  rw [hrow]
  exact ⟨_, if_pos ⟨haccount, hstarted⟩⟩

theorem markWindowsStopped_spec (h : rows.markWindowsStopped accountId windows = some rows')
    (id : ScheduleId) :
    rows'.lookup id = (rows.lookup id).map fun row =>
      if ∃ window ∈ windows, window.scheduleId = id then row.close else row := by
  induction windows generalizing rows with
  | nil =>
    obtain rfl : rows = rows' := Option.some.inj h
    simp
  | cons window windows ih =>
    obtain ⟨rows₁, hfirst, hrest⟩ := Option.bind_eq_some_iff.mp h
    rw [ih hrest, (markStopped_spec hfirst).2 id]
    cases rows.lookup id with
    | none => rfl
    | some row =>
      by_cases hid : id = window.scheduleId
      · subst hid
        simp [close]
      · have hid' : window.scheduleId ≠ id := fun h => hid h.symm
        simp [hid, hid']

/-- Windows that are open can be marked stopped. -/
theorem markWindowsStopped_isSome (h : ∀ window ∈ windows, ∃ row,
    rows.lookup window.scheduleId = some row ∧ row.accountId = accountId ∧
      row.lastStartedWindow = some window.windowId) :
    ∃ rows', rows.markWindowsStopped accountId windows = some rows' := by
  induction windows generalizing rows with
  | nil => exact ⟨rows, rfl⟩
  | cons window windows ih =>
    obtain ⟨row, hrow, haccount, hstarted⟩ := h window List.mem_cons_self
    obtain ⟨rows₁, hfirst⟩ := markStopped_isSome hrow haccount hstarted
    obtain ⟨rows', hrest⟩ : ∃ rows', rows₁.markWindowsStopped accountId windows = some rows' := by
      refine ih fun other hother => ?_
      obtain ⟨row, hrow, haccount, hstarted⟩ := h other (List.mem_cons_of_mem _ hother)
      refine ⟨_, by rw [(markStopped_spec hfirst).2, hrow]; rfl, ?_, ?_⟩
      · split
        · exact haccount
        · exact haccount
      · split
        · exact hstarted
        · exact hstarted
    exact ⟨rows', Option.bind_eq_some_iff.mpr ⟨rows₁, hfirst, hrest⟩⟩

/-- A committed start closes the previous windows and opens the new one. -/
theorem commitStartedWindow_spec
    (h : rows.commitStartedWindow accountId window expectedUpdatedAt previousWindows = some rows')
    (id : ScheduleId) :
    (∃ row, rows.lookup window.scheduleId = some row ∧ row.accountId = accountId) ∧
    rows'.lookup id = (rows.lookup id).map fun row =>
      let row := if ∃ previous ∈ previousWindows, previous ≠ window ∧ previous.scheduleId = id then
        row.close else row
      if id = window.scheduleId then row.start window.windowId else row := by
  obtain ⟨rows₁, hmarked, hstarted⟩ := Option.bind_eq_some_iff.mp h
  have hlookup := markWindowsStopped_spec hmarked
  simp only [List.mem_filter, decide_eq_true_eq, and_assoc] at hlookup
  unfold markStarted at hstarted
  split at hstarted
  next row hrow =>
    split at hstarted
    next hwhere =>
      obtain rfl := Option.some.inj hstarted
      rw [hlookup] at hrow
      obtain ⟨row₀, hrow₀, rfl⟩ := Option.map_eq_some_iff.mp hrow
      refine ⟨⟨row₀, hrow₀, ?_⟩, ?_⟩
      · have haccount := hwhere.1
        split at haccount
        · exact haccount
        · exact haccount
      · rw [Table.lookup_modify]
        by_cases hid : id = window.scheduleId
        · subst hid
          rw [if_pos rfl, hlookup, Option.map_map]
          simp only [if_true]
          rfl
        · rw [if_neg hid, hlookup]
          simp only [if_neg hid]
    next => cases hstarted
  next => cases hstarted

theorem commitStartedWindow_isSome {row : ScheduleRecord}
    (h : ∀ window ∈ previousWindows, ∃ row, rows.lookup window.scheduleId = some row ∧
      row.accountId = accountId ∧ row.lastStartedWindow = some window.windowId)
    (hrow : rows.lookup window.scheduleId = some row) (haccount : row.accountId = accountId)
    (henabled : row.enabled = true) (hupdated : row.updatedAt = expectedUpdatedAt) :
    ∃ rows', rows.commitStartedWindow accountId window expectedUpdatedAt previousWindows =
      some rows' := by
  obtain ⟨rows₁, hmarked⟩ : ∃ rows₁, rows.markWindowsStopped accountId
      (previousWindows.filter (· ≠ window)) = some rows₁ :=
    markWindowsStopped_isSome fun other hother => h other (List.mem_of_mem_filter hother)
  have hlookup := markWindowsStopped_spec hmarked window.scheduleId
  rw [hrow] at hlookup
  unfold commitStartedWindow
  rw [hmarked]
  unfold Option.bind markStarted
  dsimp only
  rw [hlookup]
  dsimp only [Option.map]
  refine ⟨_, if_pos ?_⟩
  split
  · exact ⟨haccount, henabled, hupdated⟩
  · exact ⟨haccount, henabled, hupdated⟩

end Rows
end SteamBee.Schedule
