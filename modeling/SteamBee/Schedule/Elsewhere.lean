import SteamBee.Schedule.Markers

/-! The winner of an account does not depend on what happens to other accounts. -/
namespace SteamBee.Schedule

/-- The winner depends on the set of the entries alone. -/
theorem selectScheduleWinner_congr {entries entries' : List ScheduleEntry}
    (hmem : ∀ entry, entry ∈ entries' ↔ entry ∈ entries)
    (hid : ∀ left ∈ entries, ∀ right ∈ entries, left.schedule.id = right.schedule.id →
      left = right) :
    selectScheduleWinner entries' = selectScheduleWinner entries := by
  cases hwinner : selectScheduleWinner entries with
  | none =>
    by_contra hne
    obtain ⟨other, hother⟩ := Option.ne_none_iff_exists'.mp hne
    obtain ⟨ho, hcand, -⟩ := selectScheduleWinner_spec hother
    obtain ⟨winner, hsome⟩ := selectScheduleWinner_isSome ((hmem other).mp ho) hcand
    rw [hwinner] at hsome
    cases hsome
  | some winner =>
    obtain ⟨hw, hcand, hfirst⟩ := selectScheduleWinner_spec hwinner
    obtain ⟨other, hother⟩ := selectScheduleWinner_isSome ((hmem winner).mpr hw) hcand
    obtain ⟨ho, hcand', hfirst'⟩ := selectScheduleWinner_spec hother
    have ho := (hmem other).mp ho
    have hle := hfirst other ho hcand'
    have hge := hfirst' winner ((hmem winner).mpr hw) hcand
    rw [hother, hid other ho winner hw (compareWindows_antisymm hge hle)]

def Action.accountOf (s : Coordinator) : Action → Option AccountId
  | .create accountId .. => some accountId
  | .update scheduleId .. | .delete scheduleId | .skip scheduleId _ =>
    (s.rows.lookup scheduleId).map (·.accountId)
  | .clearAccount accountId | .runAccount accountId _ => some accountId
  | .restart | .beginTick _ | .endTick => none

namespace Coordinator
variable {intl : Intl} {accountId : AccountId} {s t u : Coordinator}

structure SameFor (accountId : AccountId) (s t : Coordinator) : Prop where
  rows : ∀ id row, row.accountId = accountId →
    (t.rows.lookup id = some row ↔ s.rows.lookup id = some row)
  skips : ∀ scheduleId windowId,
    (accountId, scheduleId, windowId) ∈ t.skips ↔ (accountId, scheduleId, windowId) ∈ s.skips

theorem SameFor.refl (s : Coordinator) : SameFor accountId s s := ⟨fun _ _ _ => .rfl, fun _ _ => .rfl⟩

theorem SameFor.trans (h : SameFor accountId s t) (h' : SameFor accountId t u) :
    SameFor accountId s u where
  rows id row hrow := (h'.rows id row hrow).trans (h.rows id row hrow)
  skips scheduleId windowId := (h'.skips scheduleId windowId).trans (h.skips scheduleId windowId)

theorem SameFor.of_eq (hrows : t.rows = s.rows) (hskips : t.skips = s.skips) :
    SameFor accountId s t := by
  constructor
  · simp [hrows]
  · simp [hskips]

theorem SameFor.mem_listSchedules (h : SameFor accountId s t) (schedule : ScheduleRecord) :
    schedule ∈ t.rows.listSchedulesForAccount accountId ↔
      schedule ∈ s.rows.listSchedulesForAccount accountId := by
  rw [Rows.mem_listSchedulesForAccount, Rows.mem_listSchedulesForAccount]
  refine and_congr_left fun haccount => exists_congr fun id => ?_
  exact h.rows id schedule haccount

theorem SameFor.evaluateSchedule (h : SameFor accountId s t) (ports : Ports) (now : ℤ)
    {schedule : ScheduleRecord} (haccount : schedule.accountId = accountId) :
    t.evaluateSchedule intl ports now schedule = s.evaluateSchedule intl ports now schedule := by
  unfold Coordinator.evaluateSchedule isWindowSkipped
  rw [haccount]
  congr 1
  funext windowId
  rw [decide_eq_decide.mpr (h.skips schedule.id windowId)]

theorem SameFor.mem_evaluateSchedules (h : SameFor accountId s t) (ports : Ports) (now : ℤ)
    (entry : ScheduleEntry) : entry ∈ t.evaluateSchedules intl ports accountId now ↔
      entry ∈ s.evaluateSchedules intl ports accountId now := by
  unfold evaluateSchedules
  simp only [List.mem_map, h.mem_listSchedules]
  refine exists_congr fun schedule => and_congr_right fun hschedule => ?_
  rw [h.evaluateSchedule ports now (Rows.mem_listSchedulesForAccount.mp hschedule).2]

/-- A schedule has one entry. -/
theorem Marked.entries_injective (h : s.Marked) {ports : Ports} {now : ℤ}
    {left right : ScheduleEntry} (hleft : left ∈ s.evaluateSchedules intl ports accountId now)
    (hright : right ∈ s.evaluateSchedules intl ports accountId now)
    (hid : left.schedule.id = right.schedule.id) : left = right := by
  obtain ⟨schedule, hschedule, rfl⟩ := List.mem_map.mp hleft
  obtain ⟨schedule', hschedule', rfl⟩ := List.mem_map.mp hright
  obtain ⟨⟨id, hlookup⟩, -⟩ := Rows.mem_listSchedulesForAccount.mp hschedule
  obtain ⟨⟨id', hlookup'⟩, -⟩ := Rows.mem_listSchedulesForAccount.mp hschedule'
  have hsame : schedule.id = schedule'.id := hid
  rw [(h.ids id schedule hlookup).1, (h.ids id' schedule' hlookup').1] at hsame
  subst hsame
  rw [hlookup] at hlookup'
  rw [Option.some.inj hlookup']

theorem SameFor.winner_eq (h : SameFor accountId s t) (hs : s.Marked) (ports : Ports)
    (now : ℤ) : winningWindow (t.evaluateSchedules intl ports accountId now) =
      winningWindow (s.evaluateSchedules intl ports accountId now) := by
  unfold winningWindow
  rw [selectScheduleWinner_congr (h.mem_evaluateSchedules ports now)
    fun left hleft right hright hid => hs.entries_injective hleft hright hid]

/-! ## Actions elsewhere -/

theorem Moves.sameFor {other : AccountId} {window : Option WindowId}
    (h : Moves other window s.rows t.rows) (hskips : t.skips = s.skips)
    (hne : other ≠ accountId) : SameFor accountId s t where
  rows id row haccount := by
    constructor
    · intro hrow
      obtain ⟨old, hold, -, hsame, hkept⟩ := h.row id row hrow
      have hother : old.accountId ≠ other := by
        rw [← hsame, haccount]
        exact hne.symm
      rwa [hkept hother]
    · intro hrow
      exact h.kept id row hrow (haccount ▸ hne.symm)
  skips scheduleId windowId := by rw [hskips]

theorem Marked.sameFor_runAccount (h : s.Marked) {other : AccountId} (hne : other ≠ accountId)
    (now : ℤ) (ports : Ports) : SameFor accountId s (s.runAccount intl other now ports) := by
  have hprogress {p : Progress}
      (hp : Shape s other (s.evaluateSchedules intl ports other now) now ports p) :
      SameFor accountId s p.state := by
    have hleaves := h.leaves hp
    by_cases hdone : p.ended = .done
    · exact Moves.sameFor (hleaves.done hdone).1 hleaves.skips hne
    · exact .of_eq (hleaves.unchanged hdone).1 hleaves.skips
  obtain ⟨p, hp, ⟨-, heq⟩ | ⟨-, heq⟩⟩ := runAccount_eq intl s other now ports
  · rw [heq]
    exact (hprogress hp).trans (.of_eq rfl rfl)
  · rw [heq]
    exact (hprogress hp).trans (.of_eq rfl rfl)

/-- An action about another account, or about none. -/
theorem Marked.sameFor_next (h : s.Marked) {a : Action} (hother : a.accountOf s ≠ some accountId)
    (hn : s.next intl a = some t) : SameFor accountId s t := by
  cases a with
  | create other presetId name enabled weekdaysJson startTime endTime timezone now =>
    have hne : other ≠ accountId := fun heq => hother (congrArg some heq)
    simp only [Coordinator.next] at hn
    split at hn
    next => cases hn
    next =>
      obtain rfl := Option.some.inj hn
      refine ⟨fun id row haccount => ?_, fun _ _ => .rfl⟩
      rw [Table.lookup_insert_eq]
      split_ifs with hid
      · subst hid
        constructor
        · intro hrow
          obtain rfl := Option.some.inj hrow
          exact absurd haccount hne
        · intro hrow
          exact absurd (h.ids _ row hrow).2 (lt_irrefl _)
      · exact .rfl
  | update scheduleId update now =>
    simp only [Coordinator.next] at hn
    split at hn
    next old hold =>
      have hne : old.accountId ≠ accountId := by
        intro heq
        exact hother (by rw [Action.accountOf, hold, Option.map_some, heq])
      split at hn
      next => cases hn
      next =>
        obtain rfl := Option.some.inj hn
        refine ⟨fun id row haccount => ?_, fun _ _ => .rfl⟩
        rw [Table.lookup_modify]
        split_ifs with hid
        · subst hid
          rw [hold]
          constructor
          · intro hrow
            obtain rfl := Option.some.inj hrow
            exact absurd haccount hne
          · intro hrow
            obtain rfl := Option.some.inj hrow
            exact absurd haccount hne
        · exact .rfl
    next => cases hn
  | delete scheduleId =>
    obtain rfl := Option.some.inj hn
    refine ⟨fun id row haccount => ?_, fun _ _ => .rfl⟩
    rw [Table.lookup_erase_eq]
    split_ifs with hid
    · subst hid
      constructor
      · intro hrow
        cases hrow
      · intro hrow
        exact absurd (by rw [Action.accountOf, hrow, Option.map_some, haccount]) hother
    · exact .rfl
  | skip scheduleId windowId =>
    simp only [Coordinator.next] at hn
    split at hn
    next old hold =>
      obtain rfl := Option.some.inj hn
      refine ⟨fun _ _ _ => .rfl, fun id w => ?_⟩
      show (accountId, id, w) ∈ (old.accountId, scheduleId, windowId) :: s.skips ↔ _
      rw [List.mem_cons, or_iff_right]
      intro heq
      exact hother (by rw [Action.accountOf, hold, Option.map_some, (Prod.mk.inj heq).1])
    next => cases hn
  | clearAccount other =>
    obtain rfl := Option.some.inj hn
    exact .of_eq rfl rfl
  | restart =>
    obtain rfl := Option.some.inj hn
    exact .of_eq rfl rfl
  | beginTick now =>
    simp only [Coordinator.next] at hn
    split at hn
    next =>
      obtain rfl := Option.some.inj hn
      exact .of_eq rfl rfl
    next => cases hn
  | runAccount other ports =>
    have hne : other ≠ accountId := fun heq => hother (congrArg some heq)
    simp only [Coordinator.next] at hn
    split at hn
    next tick _ =>
      split at hn
      next =>
        obtain rfl := Option.some.inj hn
        have htakes : SameFor accountId s (s.takes tick other) := .of_eq rfl rfl
        exact htakes.trans ((h.takes tick other).sameFor_runAccount hne tick.now ports)
      next => cases hn
    next => cases hn
  | endTick =>
    simp only [Coordinator.next] at hn
    split at hn
    next =>
      split at hn
      next =>
        obtain rfl := Option.some.inj hn
        exact .of_eq rfl rfl
      next => cases hn
    next => cases hn

end Coordinator
end SteamBee.Schedule
