import SteamBee.Schedule.Transitions

/-! The stored markers over whole runs: an account has one open window at most, and after a
transition without an error it is the winning window and the one in memory. -/
namespace SteamBee.Schedule

/-- A window that is evaluated belongs to its schedule. -/
theorem evaluate_windowId {intl : Intl} {schedule : ScheduleRecord} {now : ℤ}
    {state : ScheduleWindowState} {w : WindowId}
    (h : evaluateScheduleWindow intl schedule now = .ok state) (hw : state.windowId = some w) :
    w.scheduleId = schedule.id := by
  have hactive (zone : TimeZone) (dateKey : ℤ)
      (hs : (activeWindow schedule zone dateKey).windowId = some w) : w.scheduleId = schedule.id := by
    rw [← Option.some.inj hs]
    rfl
  unfold evaluateScheduleWindow at h
  dsimp only at h
  split at h
  next =>
    obtain rfl := Except.ok.inj h
    cases hw
  next =>
    split at h
    next => cases h
    next zone _ =>
      split at h
      next =>
        split at h
        next =>
          obtain rfl := Except.ok.inj h
          exact hactive _ _ hw
        next =>
          obtain rfl := Except.ok.inj h
          cases hw
      next =>
        split at h
        next =>
          obtain rfl := Except.ok.inj h
          exact hactive _ _ hw
        next =>
          split at h
          next =>
            obtain rfl := Except.ok.inj h
            exact hactive _ _ hw
          next =>
            obtain rfl := Except.ok.inj h
            cases hw

namespace Coordinator
open ScheduleRecord
variable {intl : Intl} {s t : Coordinator} {ports : Ports} {accountId : AccountId} {now : ℤ}
  {winner : ScheduleRecord} {next w : WindowId}

/-- The winner is an enabled schedule of the account whose window is evaluated as active,
and not skipped as far as could be looked up. -/
theorem winningWindow_spec
    (h : winningWindow (s.evaluateSchedules intl ports accountId now) = some (winner, next)) :
    (∃ id, s.rows.lookup id = some winner) ∧ winner.accountId = accountId ∧
      winner.enabled = true ∧ next.scheduleId = winner.id ∧
      (ports.skipLookupFails winner.id = false →
        s.isWindowSkipped accountId winner.id next = false) := by
  obtain ⟨entry, hentry, hstate⟩ := Option.bind_eq_some_iff.mp h
  obtain ⟨next', hnext, hpair⟩ := Option.map_eq_some_iff.mp hstate
  obtain ⟨rfl, rfl⟩ := Prod.mk.inj hpair
  obtain ⟨hmem, hcand, -⟩ := selectScheduleWinner_spec hentry
  obtain ⟨schedule, hschedule, rfl⟩ := List.mem_map.mp hmem
  obtain ⟨hrow, haccount⟩ := Rows.mem_listSchedulesForAccount.mp hschedule
  obtain ⟨windowId, startedAt, henabled, hskip, heval, heq⟩ := isCandidate_iff.mp hcand
  obtain rfl : windowId = next' := by
    have hnext : ((evaluateSchedule intl s ports now schedule).state.bind (·.windowId)) =
      some next' := hnext
    unfold evaluateSchedule at hnext
    rw [heq] at hnext
    exact Option.some.inj hnext
  have hown : windowId.scheduleId = schedule.id := evaluate_windowId heval rfl
  refine ⟨hrow, haccount, henabled, hown, fun hlookup => ?_⟩
  have hlookup : ports.skipLookupFails schedule.id = false := hlookup
  show s.isWindowSkipped accountId schedule.id windowId = false
  rw [hlookup, haccount] at hskip
  simpa using hskip

theorem mem_openScheduleWindows {ow : OpenScheduleWindow} :
    ow ∈ openScheduleWindows (s.evaluateSchedules intl ports accountId now) ↔
      ∃ id row, s.rows.lookup id = some row ∧ row.accountId = accountId ∧
        ow.scheduleId = row.id ∧ row.IsOpen ow.windowId := by
  unfold openScheduleWindows evaluateSchedules
  rw [List.mem_filterMap]
  constructor
  · rintro ⟨entry, hentry, hopen⟩
    obtain ⟨row, hrow, rfl⟩ := List.mem_map.mp hentry
    obtain ⟨⟨id, hid⟩, haccount⟩ := Rows.mem_listSchedulesForAccount.mp hrow
    obtain ⟨hsame, hopen⟩ := openWindow_eq_some.mp hopen
    exact ⟨id, row, hid, haccount, hsame, hopen⟩
  · rintro ⟨id, row, hid, haccount, hsame, hopen⟩
    exact ⟨_, List.mem_map.mpr ⟨row, Rows.mem_listSchedulesForAccount.mpr ⟨⟨id, hid⟩, haccount⟩, rfl⟩,
      openWindow_eq_some.mpr ⟨hsame, hopen⟩⟩

structure Marked (s : Coordinator) : Prop where
  ids : ∀ id row, s.rows.lookup id = some row → row.id = id ∧ id < s.drawn
  own : ∀ id row w, s.rows.lookup id = some row → row.IsOpen w → w.scheduleId = id
  single : ∀ id id' row row' w w', s.rows.lookup id = some row → s.rows.lookup id' = some row' →
    row.accountId = row'.accountId → row.IsOpen w → row'.IsOpen w' → id = id'
  memory : ∀ accountId w id row w', s.activeWindows.lookup accountId = some w →
    s.rows.lookup id = some row → row.accountId = accountId → row.IsOpen w' → w' = w

structure Moves (accountId : AccountId) (window : Option WindowId) (rows rows' : Rows) : Prop where
  row : ∀ id row', rows'.lookup id = some row' → ∃ row, rows.lookup id = some row ∧
    row'.id = row.id ∧ row'.accountId = row.accountId ∧ (row.accountId ≠ accountId → row' = row)
  kept : ∀ id row, rows.lookup id = some row → row.accountId ≠ accountId →
    rows'.lookup id = some row
  isOpen_iff : ∀ id row' w, rows'.lookup id = some row' → row'.accountId = accountId →
    (row'.IsOpen w ↔ window = some w ∧ w.scheduleId = id)
  isSome : ∀ w, window = some w → ∃ row', rows'.lookup w.scheduleId = some row' ∧
    row'.accountId = accountId

theorem Marked.moves_stop (h : s.Marked) {rows : Rows}
    (hrows : s.rows.markWindowsStopped accountId
      (openScheduleWindows (s.evaluateSchedules intl ports accountId now)) = some rows) :
    Moves accountId none s.rows rows := by
  have hlookup := Rows.markWindowsStopped_spec hrows
  have hnot {id : ScheduleId} {row : ScheduleRecord} (hrow : s.rows.lookup id = some row)
      (hother : row.accountId ≠ accountId) :
      ¬∃ ow ∈ openScheduleWindows (s.evaluateSchedules intl ports accountId now),
        ow.scheduleId = id := by
    rintro ⟨ow, how, rfl⟩
    obtain ⟨id', row', hrow', haccount, hsame, -⟩ := mem_openScheduleWindows.mp how
    rw [hsame, (h.ids id' row' hrow').1, hrow'] at hrow
    obtain rfl := Option.some.inj hrow
    exact hother haccount
  constructor
  case row =>
    intro id row' hrow'
    rw [hlookup] at hrow'
    obtain ⟨row, hrow, rfl⟩ := Option.map_eq_some_iff.mp hrow'
    refine ⟨row, hrow, ?_, ?_, fun hother => if_neg (hnot hrow hother)⟩
    · split <;> rfl
    · split <;> rfl
  case kept =>
    intro id row hrow hother
    rw [hlookup, hrow, Option.map_some, if_neg (hnot hrow hother)]
  case isOpen_iff =>
    intro id row' w hrow' haccount
    rw [hlookup] at hrow'
    obtain ⟨row, hrow, rfl⟩ := Option.map_eq_some_iff.mp hrow'
    refine ⟨fun hopen => ?_, fun hnone => by cases hnone.1⟩
    split at hopen
    next => exact absurd hopen (not_isOpen_close row w)
    next hnot =>
      rw [if_neg hnot] at haccount
      refine absurd ⟨⟨id, w⟩, mem_openScheduleWindows.mpr ⟨id, row, hrow, haccount, ?_, hopen⟩, rfl⟩ hnot
      exact (h.ids id row hrow).1.symm
  case isSome =>
    intro w hw
    cases hw

theorem Marked.moves_start (h : s.Marked)
    (hwin : winningWindow (s.evaluateSchedules intl ports accountId now) = some (winner, next))
    {rows : Rows}
    (hrows : s.rows.commitStartedWindow accountId ⟨winner.id, next⟩ winner.updatedAt
      (otherWindows (s.evaluateSchedules intl ports accountId now) winner next) = some rows) :
    Moves accountId (some next) s.rows rows := by
  obtain ⟨-, -, -, hown, -⟩ := winningWindow_spec hwin
  have hlookup (id : ScheduleId) := (Rows.commitStartedWindow_spec hrows id).2
  obtain ⟨row₀, hrow₀, haccount₀⟩ := (Rows.commitStartedWindow_spec hrows winner.id).1
  have hin {id : ScheduleId} {row : ScheduleRecord} (hrow : s.rows.lookup id = some row)
      (hprev : ∃ previous ∈ otherWindows (s.evaluateSchedules intl ports accountId now) winner next,
        previous ≠ ⟨winner.id, next⟩ ∧ previous.scheduleId = id) : row.accountId = accountId := by
    obtain ⟨ow, how, -, rfl⟩ := hprev
    obtain ⟨id', row', hrow', haccount, hsame, -⟩ :=
      mem_openScheduleWindows.mp (List.mem_of_mem_filter how)
    rw [hsame, (h.ids id' row' hrow').1, hrow'] at hrow
    obtain rfl := Option.some.inj hrow
    exact haccount
  have hnot {id : ScheduleId} {row : ScheduleRecord} (hrow : s.rows.lookup id = some row)
      (hother : row.accountId ≠ accountId) : id ≠ winner.id := by
    rintro rfl
    rw [hrow₀] at hrow
    obtain rfl := Option.some.inj hrow
    exact hother haccount₀
  constructor
  case row =>
    intro id row' hrow'
    rw [hlookup] at hrow'
    obtain ⟨row, hrow, rfl⟩ := Option.map_eq_some_iff.mp hrow'
    refine ⟨row, hrow, ?_, ?_, fun hother => ?_⟩
    · dsimp only
      split <;> split <;> rfl
    · dsimp only
      split <;> split <;> rfl
    · dsimp only
      rw [if_neg (hnot hrow hother), if_neg fun hprev => hother (hin hrow hprev)]
  case kept =>
    intro id row hrow hother
    rw [hlookup, hrow, Option.map_some]
    dsimp only
    rw [if_neg (hnot hrow hother), if_neg fun hprev => hother (hin hrow hprev)]
  case isOpen_iff =>
    intro id row' w hrow' haccount
    rw [hlookup] at hrow'
    obtain ⟨row, hrow, rfl⟩ := Option.map_eq_some_iff.mp hrow'
    dsimp only
    by_cases hid : id = winner.id
    · rw [if_pos hid, isOpen_start]
      constructor
      · rintro rfl
        exact ⟨rfl, hown.trans hid.symm⟩
      · rintro ⟨hw, -⟩
        exact (Option.some.inj hw).symm
    · rw [if_neg hid]
      constructor
      · intro hopen
        split at hopen
        next => exact absurd hopen (not_isOpen_close row w)
        next hnot =>
          dsimp only at haccount
          rw [if_neg hnot, if_neg hid] at haccount
          have hsame := (h.ids id row hrow).1
          have hother : (⟨id, w⟩ : OpenScheduleWindow) ≠ ⟨winner.id, next⟩ := by
            intro heq
            exact hid (OpenScheduleWindow.mk.inj heq).1
          refine absurd ⟨⟨id, w⟩, List.mem_filter.mpr ⟨?_, decide_eq_true hother⟩, hother, rfl⟩ hnot
          exact mem_openScheduleWindows.mpr ⟨id, row, hrow, haccount, hsame.symm, hopen⟩
      · rintro ⟨hw, hsame⟩
        rw [← Option.some.inj hw, hown] at hsame
        exact absurd hsame.symm hid
  case isSome =>
    intro w hw
    obtain rfl := Option.some.inj hw
    rw [hown]
    refine ⟨_, by rw [hlookup, hrow₀]; rfl, ?_⟩
    dsimp only
    split <;> split <;> exact haccount₀

/-- Nothing needs to move when only this window is open. -/
theorem moves_refl {window : Option WindowId}
    (hopen : ∀ id row w, s.rows.lookup id = some row → row.accountId = accountId →
      (row.IsOpen w ↔ window = some w ∧ w.scheduleId = id))
    (hsome : ∀ w, window = some w → ∃ row, s.rows.lookup w.scheduleId = some row ∧
      row.accountId = accountId) : Moves accountId window s.rows s.rows :=
  ⟨fun _ row hrow => ⟨row, hrow, rfl, rfl, fun _ => rfl⟩, fun _ _ hrow _ => hrow, hopen, hsome⟩

theorem Marked.moves_idle (h : s.Marked)
    (hidle : s.Idle accountId (s.evaluateSchedules intl ports accountId now)) :
    Moves accountId none s.rows s.rows := by
  refine moves_refl (fun id row w hrow haccount => ⟨fun hopen => ?_, fun hnone => ?_⟩) ?_
  · have hmem : (⟨id, w⟩ : OpenScheduleWindow) ∈
        openScheduleWindows (s.evaluateSchedules intl ports accountId now) :=
      mem_openScheduleWindows.mpr ⟨id, row, hrow, haccount, (h.ids id row hrow).1.symm, hopen⟩
    rw [hidle.2] at hmem
    cases hmem
  · cases hnone.1
  · intro w hw
    cases hw

theorem Marked.moves_kept (h : s.Marked)
    (hwin : winningWindow (s.evaluateSchedules intl ports accountId now) = some (winner, next))
    (hcont : s.Continues accountId winner next)
    (hother : otherWindows (s.evaluateSchedules intl ports accountId now) winner next = []) :
    Moves accountId (some next) s.rows s.rows := by
  obtain ⟨⟨id₀, hwinner⟩, haccount₀, -, hown, -⟩ := winningWindow_spec hwin
  obtain ⟨hid₀, -⟩ := h.ids id₀ winner hwinner
  refine moves_refl (fun id row w hrow haccount => ⟨fun hopen => ?_, ?_⟩) ?_
  · have hmem : (⟨id, w⟩ : OpenScheduleWindow) ∈
        openScheduleWindows (s.evaluateSchedules intl ports accountId now) :=
      mem_openScheduleWindows.mpr ⟨id, row, hrow, haccount, (h.ids id row hrow).1.symm, hopen⟩
    by_cases hsame : (⟨id, w⟩ : OpenScheduleWindow) = ⟨winner.id, next⟩
    · obtain ⟨rfl, rfl⟩ := OpenScheduleWindow.mk.inj hsame
      exact ⟨rfl, hown⟩
    · have hin : (⟨id, w⟩ : OpenScheduleWindow) ∈
          otherWindows (s.evaluateSchedules intl ports accountId now) winner next :=
        List.mem_filter.mpr ⟨hmem, decide_eq_true hsame⟩
      rw [hother] at hin
      cases hin
  · rintro ⟨hw, rfl⟩
    obtain rfl := Option.some.inj hw
    rw [hown, hid₀, hwinner] at hrow
    obtain rfl := Option.some.inj hrow
    exact hcont.1
  · intro w hw
    obtain rfl := Option.some.inj hw
    exact ⟨winner, by rw [hown, hid₀, hwinner], haccount₀⟩

/-- What a transition leaves alone, and what it leaves behind when it is done. -/
structure Leaves (s : Coordinator) (accountId : AccountId) (window : Option WindowId)
    (p : Progress) : Prop where
  skips : p.state.skips = s.skips
  tick : p.state.tick = s.tick
  drawn : p.state.drawn = s.drawn
  history : p.state.history = s.history
  others : ∀ other, other ≠ accountId →
    p.state.activeWindows.lookup other = s.activeWindows.lookup other ∧
      p.state.failedTransitions.lookup other = s.failedTransitions.lookup other
  unchanged : p.ended ≠ .done → p.state.rows = s.rows ∧ p.state.activeWindows = s.activeWindows
  done : p.ended = .done → Moves accountId window s.rows p.state.rows ∧
    p.state.activeWindows.lookup accountId = window

theorem leaves_same {window : Option WindowId} {p : Progress} (hstate : p.state = s)
    (hended : p.ended ≠ .done) : s.Leaves accountId window p := by
  obtain ⟨state, attempt, calls, ended⟩ := p
  obtain rfl : state = s := hstate
  exact ⟨rfl, rfl, rfl, rfl, fun _ _ => ⟨rfl, rfl⟩, fun _ => ⟨rfl, rfl⟩, fun h => absurd h hended⟩

theorem Marked.leaves (h : s.Marked) {p : Progress}
    (hp : Shape s accountId (s.evaluateSchedules intl ports accountId now) now ports p) :
    s.Leaves accountId
      ((winningWindow (s.evaluateSchedules intl ports accountId now)).map (·.2)) p := by
  cases hp with
  | held => exact leaves_same rfl (by simp [finishes])
  | refused => exact leaves_same rfl (by simp [finishes])
  | crashed => exact leaves_same rfl (by simp [finishes])
  | backingOff => exact leaves_same rfl (by simp [finishes])
  | nothing hwin hidle =>
    rw [hwin]
    exact ⟨rfl, rfl, rfl, rfl, fun _ _ => ⟨rfl, rfl⟩, fun _ => ⟨rfl, rfl⟩,
      fun _ => ⟨h.moves_idle hidle, hidle.1⟩⟩
  | @kept winner next rows active hwin hcont hrows hactive =>
    rw [hwin]
    refine ⟨rfl, rfl, rfl, rfl, fun other hother => ⟨?_, rfl⟩, fun hne => absurd rfl hne,
      fun _ => ⟨?_, ?_⟩⟩
    · rcases hactive with ⟨rfl, -⟩ | rfl
      · rfl
      · exact AList.lookup_insert_ne hother
    · rcases hrows with ⟨hnone, rfl⟩ | hrows
      · exact h.moves_kept hwin hcont hnone
      · exact h.moves_start hwin hrows
    · rcases hactive with ⟨rfl, hmem⟩ | rfl
      · exact hmem
      · exact AList.lookup_insert _
  | stopsShort hhold hkey hback hcalls hended =>
    refine leaves_same rfl ?_
    rcases hended with ⟨rfl, -⟩ | ⟨rfl, -⟩
    · simp
    · simp
  | fails =>
    refine ⟨rfl, rfl, rfl, rfl, fun other hother => ⟨rfl, ?_⟩, fun _ => ⟨rfl, rfl⟩, fun hdone => ?_⟩
    · exact AList.lookup_insert_ne hother
    · cases hdone
  | started hhold hhold' hwin hnot hback hrows =>
    rw [hwin]
    refine ⟨rfl, rfl, rfl, rfl, fun other hother => ⟨?_, ?_⟩, fun hne => absurd rfl hne,
      fun _ => ⟨h.moves_start hwin hrows, AList.lookup_insert _⟩⟩
    · exact AList.lookup_insert_ne hother
    · exact AList.lookup_erase_ne hother
  | stopped hhold hwin hnot hback hcalls hrows =>
    rw [hwin]
    refine ⟨rfl, rfl, rfl, rfl, fun other hother => ⟨?_, ?_⟩, fun hne => absurd rfl hne,
      fun _ => ⟨h.moves_stop hrows, AList.lookup_erase _ _⟩⟩
    · exact AList.lookup_erase_ne hother
    · exact AList.lookup_erase_ne hother

/-- Markers of the same rows, and less memory. -/
theorem Marked.congr (h : s.Marked) (hrows : t.rows = s.rows) (hdrawn : t.drawn = s.drawn)
    (hmem : ∀ accountId w, t.activeWindows.lookup accountId = some w →
      s.activeWindows.lookup accountId = some w) : t.Marked := by
  constructor
  · rw [hrows, hdrawn]
    exact h.ids
  · rw [hrows]
    exact h.own
  · rw [hrows]
    exact h.single
  · rw [hrows]
    exact fun accountId w id row w' hw => h.memory accountId w id row w' (hmem accountId w hw)

theorem Marked.done (h : s.Marked) {window : Option WindowId} {p : Progress}
    (hp : s.Leaves accountId window p) (hdone : p.ended = .done) : p.state.Marked := by
  obtain ⟨hmoves, hmem⟩ := hp.done hdone
  constructor
  case ids =>
    intro id row' hrow'
    obtain ⟨row, hrow, hid, -, -⟩ := hmoves.row id row' hrow'
    rw [hid, hp.drawn]
    exact h.ids id row hrow
  case own =>
    intro id row' w hrow' hopen
    obtain ⟨row, hrow, -, haccount, hsame⟩ := hmoves.row id row' hrow'
    by_cases hother : row.accountId = accountId
    · exact ((hmoves.isOpen_iff id row' w hrow' (haccount.trans hother)).mp hopen).2
    · rw [hsame hother] at hopen
      exact h.own id row w hrow hopen
  case single =>
    intro id id' row row' w w' hrow hrow' haccounts hopen hopen'
    obtain ⟨before, hbefore, -, haccount, hsame⟩ := hmoves.row id row hrow
    obtain ⟨before', hbefore', -, haccount', hsame'⟩ := hmoves.row id' row' hrow'
    by_cases hother : before.accountId = accountId
    · have hin : row.accountId = accountId := haccount.trans hother
      obtain ⟨hw, rfl⟩ := (hmoves.isOpen_iff id row w hrow hin).mp hopen
      obtain ⟨hw', rfl⟩ := (hmoves.isOpen_iff id' row' w' hrow' (haccounts ▸ hin)).mp hopen'
      rw [hw] at hw'
      rw [Option.some.inj hw']
    · have hother' : before'.accountId ≠ accountId := by
        rw [← haccount', ← haccounts, haccount]
        exact hother
      rw [hsame hother] at hopen haccounts
      rw [hsame' hother'] at hopen' haccounts
      exact h.single id id' before before' w w' hbefore hbefore' haccounts hopen hopen'
  case memory =>
    intro account w id row w' hw hrow haccount hopen
    obtain ⟨before, hbefore, -, hsameAccount, hsame⟩ := hmoves.row id row hrow
    by_cases hother : account = accountId
    · subst hother
      have hopened := (hmoves.isOpen_iff id row w' hrow haccount).mp hopen
      rw [hmem] at hw
      exact Option.some.inj (hopened.1.symm.trans hw)
    · have hother' : before.accountId ≠ accountId := by
        rw [← hsameAccount, haccount]
        exact hother
      rw [(hp.others account hother).1] at hw
      rw [hsame hother'] at hopen haccount
      exact h.memory account w id before w' hw hbefore haccount hopen

theorem Marked.progress (h : s.Marked) {window : Option WindowId} {p : Progress}
    (hp : s.Leaves accountId window p) : p.state.Marked := by
  by_cases hdone : p.ended = .done
  · exact h.done hp hdone
  · obtain ⟨hrows, hactive⟩ := hp.unchanged hdone
    refine h.congr hrows hp.drawn fun accountId w hw => ?_
    rwa [hactive] at hw

theorem Marked.forget (h : s.Marked) (hrows : t.rows = s.rows) (hdrawn : t.drawn = s.drawn)
    (hmem : t.activeWindows = ∅) : t.Marked := by
  refine h.congr hrows hdrawn fun accountId w hw => ?_
  rw [hmem, AList.lookup_empty] at hw
  cases hw

def recordOf (intl : Intl) (s : Coordinator) (accountId : AccountId) (now : ℤ) (ports : Ports)
    (p : Progress) : TransitionRecord :=
  ⟨accountId, now, s.evaluationFails intl ports accountId now,
    (winningWindow (s.evaluateSchedules intl ports accountId now)).map (·.2), p.attempt, p.calls,
    p.ended⟩

/-- A transition of the tick. -/
theorem runAccount_eq (intl : Intl) (s : Coordinator) (accountId : AccountId) (now : ℤ)
    (ports : Ports) :
    ∃ p, Shape s accountId (s.evaluateSchedules intl ports accountId now) now ports p ∧
      (p.ended ≠ .crashed ∧ s.runAccount intl accountId now ports = { p.state with
        history := .transition (recordOf intl s accountId now ports p) :: p.state.history } ∨
      p.ended = .crashed ∧ s.runAccount intl accountId now ports = restart { p.state with
        history := .transition (recordOf intl s accountId now ports p) :: p.state.history }) := by
  refine ⟨_, transitionAccount_shape s accountId _ now ports, ?_⟩
  unfold runAccount
  dsimp only
  split
  next hcrash => exact .inr ⟨hcrash, rfl⟩
  next hcrash => exact .inl ⟨hcrash, rfl⟩

theorem Marked.runAccount (h : s.Marked) (intl : Intl) (accountId : AccountId) (now : ℤ)
    (ports : Ports) : (s.runAccount intl accountId now ports).Marked := by
  obtain ⟨p, hp, ⟨-, heq⟩ | ⟨-, heq⟩⟩ := runAccount_eq intl s accountId now ports
  · rw [heq]
    exact (h.progress (h.leaves hp)).congr rfl rfl fun _ _ hw => hw
  · rw [heq]
    exact (h.progress (h.leaves hp)).forget rfl rfl rfl

theorem Marked.create (h : s.Marked) {row : ScheduleRecord} (hid : row.id = s.drawn)
    (hnew : row.lastStartedWindow = none) :
    ({ s with rows := s.rows.insert s.drawn row, drawn := s.drawn + 1 } : Coordinator).Marked := by
  have hclosed (w : WindowId) : ¬row.IsOpen w := by
    rintro ⟨hstarted, -⟩
    rw [hnew] at hstarted
    cases hstarted
  have hlookup (id : ScheduleId) (row' : ScheduleRecord)
      (h : (s.rows.insert s.drawn row).lookup id = some row') :
      id = s.drawn ∧ row' = row ∨ s.rows.lookup id = some row' := by
    rw [Table.lookup_insert_eq] at h
    by_cases hsame : id = s.drawn
    · rw [if_pos hsame] at h
      exact .inl ⟨hsame, (Option.some.inj h).symm⟩
    · rw [if_neg hsame] at h
      exact .inr h
  have hopened {id : ScheduleId} {row' : ScheduleRecord} {w : WindowId}
      (hrow : (s.rows.insert s.drawn row).lookup id = some row') (hopen : row'.IsOpen w) :
      s.rows.lookup id = some row' := by
    rcases hlookup id row' hrow with ⟨-, rfl⟩ | hold
    · exact absurd hopen (hclosed w)
    · exact hold
  constructor
  case ids =>
    intro id row' hrow
    rcases hlookup id row' hrow with ⟨rfl, rfl⟩ | hold
    · exact ⟨hid, Nat.lt_succ_self _⟩
    · exact ⟨(h.ids id row' hold).1, Nat.lt_succ_of_lt (h.ids id row' hold).2⟩
  case own => exact fun id row' w hrow hopen => h.own id row' w (hopened hrow hopen) hopen
  case single =>
    intro id id' row₁ row₂ w w' hrow₁ hrow₂ haccounts hopen hopen'
    exact h.single id id' row₁ row₂ w w' (hopened hrow₁ hopen) (hopened hrow₂ hopen') haccounts
      hopen hopen'
  case memory =>
    intro account w id row' w' hw hrow haccount hopen
    exact h.memory account w id row' w' hw (hopened hrow hopen) haccount hopen

/-- Rows that are deleted or keep their markers. -/
theorem Marked.edit (h : s.Marked) {rows : Rows} (hrows : ∀ id row', rows.lookup id = some row' →
    ∃ row, s.rows.lookup id = some row ∧ row'.id = row.id ∧ row'.accountId = row.accountId ∧
      row'.lastStartedWindow = row.lastStartedWindow ∧
      row'.lastStoppedWindow = row.lastStoppedWindow) :
    ({ s with rows } : Coordinator).Marked := by
  have hopens {row row' : ScheduleRecord} {w : WindowId}
      (hstarted : row'.lastStartedWindow = row.lastStartedWindow)
      (hstopped : row'.lastStoppedWindow = row.lastStoppedWindow) (hopen : row'.IsOpen w) :
      row.IsOpen w := ⟨hstarted ▸ hopen.1, hstopped ▸ hopen.2⟩
  constructor
  case ids =>
    intro id row' hrow'
    obtain ⟨row, hrow, hid, -⟩ := hrows id row' hrow'
    rw [hid]
    exact h.ids id row hrow
  case own =>
    intro id row' w hrow' hopen
    obtain ⟨row, hrow, -, -, hstarted, hstopped⟩ := hrows id row' hrow'
    exact h.own id row w hrow (hopens hstarted hstopped hopen)
  case single =>
    intro id id' row₁ row₂ w w' hrow₁ hrow₂ haccounts hopen hopen'
    obtain ⟨row₁', hrow₁', -, haccount₁, hstarted₁, hstopped₁⟩ := hrows id row₁ hrow₁
    obtain ⟨row₂', hrow₂', -, haccount₂, hstarted₂, hstopped₂⟩ := hrows id' row₂ hrow₂
    rw [haccount₁, haccount₂] at haccounts
    exact h.single id id' row₁' row₂' w w' hrow₁' hrow₂' haccounts
      (hopens hstarted₁ hstopped₁ hopen) (hopens hstarted₂ hstopped₂ hopen')
  case memory =>
    intro account w id row' w' hw hrow' haccount hopen
    obtain ⟨row, hrow, -, hsame, hstarted, hstopped⟩ := hrows id row' hrow'
    exact h.memory account w id row w' hw hrow (hsame ▸ haccount) (hopens hstarted hstopped hopen)

theorem Marked.clearAccount (h : s.Marked) (accountId : AccountId) :
    (s.clearAccount accountId).Marked := by
  refine h.congr rfl rfl fun other w hw => ?_
  have hw : (s.activeWindows.erase accountId).lookup other = some w := hw
  rw [Table.lookup_erase_eq] at hw
  by_cases hsame : other = accountId
  · rw [if_pos hsame] at hw
    cases hw
  · rwa [if_neg hsame] at hw

def takes (s : Coordinator) (tick : Tick) (accountId : AccountId) : Coordinator :=
  { s with tick := some { tick with pending := tick.pending.erase accountId } }

theorem Marked.takes (h : s.Marked) (tick : Tick) (accountId : AccountId) :
    (s.takes tick accountId).Marked := h.congr rfl rfl fun _ _ hw => hw

theorem Marked.step (h : s.Marked) {a : Action} (hn : s.next intl a = some t) : t.Marked := by
  cases a with
  | create accountId presetId name enabled weekdaysJson startTime endTime timezone now =>
    simp only [Coordinator.next] at hn
    split at hn
    next => cases hn
    next =>
      obtain rfl := Option.some.inj hn
      exact h.create rfl rfl
  | update scheduleId update now =>
    simp only [Coordinator.next] at hn
    split at hn
    next row hrow =>
      split at hn
      next => cases hn
      next =>
        obtain rfl := Option.some.inj hn
        refine h.edit fun id row' hrow' => ?_
        rw [Table.lookup_modify] at hrow'
        by_cases hid : id = scheduleId
        · rw [if_pos hid, hrow] at hrow'
          obtain rfl := Option.some.inj hrow'
          exact ⟨row, hid ▸ hrow, rfl, rfl, rfl, rfl⟩
        · rw [if_neg hid] at hrow'
          exact ⟨row', hrow', rfl, rfl, rfl, rfl⟩
    next => cases hn
  | delete scheduleId =>
    obtain rfl := Option.some.inj hn
    refine h.edit fun id row' hrow' => ?_
    rw [Table.lookup_erase_eq] at hrow'
    by_cases hid : id = scheduleId
    · rw [if_pos hid] at hrow'
      cases hrow'
    · rw [if_neg hid] at hrow'
      exact ⟨row', hrow', rfl, rfl, rfl, rfl⟩
  | skip scheduleId windowId =>
    simp only [Coordinator.next] at hn
    split at hn
    next row hrow =>
      obtain rfl := Option.some.inj hn
      have hskipped : ({ s with skips := (row.accountId, scheduleId, windowId) :: s.skips } :
          Coordinator).Marked := h.congr rfl rfl fun _ _ hw => hw
      exact hskipped.clearAccount row.accountId
    next => cases hn
  | clearAccount accountId =>
    obtain rfl := Option.some.inj hn
    exact h.clearAccount accountId
  | restart =>
    obtain rfl := Option.some.inj hn
    exact h.forget rfl rfl rfl
  | beginTick now =>
    simp only [Coordinator.next] at hn
    split at hn
    next =>
      obtain rfl := Option.some.inj hn
      exact h.congr rfl rfl fun _ _ hw => hw
    next => cases hn
  | runAccount accountId ports =>
    simp only [Coordinator.next] at hn
    split at hn
    next tick _ =>
      split at hn
      next =>
        obtain rfl := Option.some.inj hn
        exact (h.takes tick accountId).runAccount intl accountId tick.now ports
      next => cases hn
    next => cases hn
  | endTick =>
    simp only [Coordinator.next] at hn
    split at hn
    next =>
      split at hn
      next =>
        obtain rfl := Option.some.inj hn
        exact h.congr rfl rfl fun _ _ hw => hw
      next => cases hn
    next => cases hn

theorem Marked.of_reachable {C : Coordinator → Action → Prop}
    (h : (scheduleMachine intl).ReachableWhen C s) : s.Marked := by
  refine h.invariant (fun s hs => ?_) fun s a t hs _ hn => hs.step hn
  obtain rfl : s = Coordinator.empty := hs
  have hempty {id : ScheduleId} {row : ScheduleRecord} :
      (∅ : Rows).lookup id ≠ some row := by
    rw [AList.lookup_empty]
    intro h
    cases h
  refine ⟨?_, ?_, ?_, ?_⟩
  · exact fun id row hrow => absurd hrow hempty
  · exact fun id row w hrow => absurd hrow hempty
  · exact fun id id' row row' w w' hrow => absurd hrow hempty
  · exact fun account w id row w' hw hrow => absurd hrow hempty

def winnerAt (intl : Intl) (s : Coordinator) (accountId : AccountId) (now : ℤ) : Option WindowId :=
  (winningWindow ((s.rows.listSchedulesForAccount accountId).map fun schedule =>
    evaluateEntry intl (s.isWindowSkipped accountId schedule.id) schedule now)).map (·.2)

def OpenIn (s : Coordinator) (accountId : AccountId) (w : WindowId) : Prop :=
  ∃ id row, s.rows.lookup id = some row ∧ row.accountId = accountId ∧ row.IsOpen w

/-- Where nothing fails the schedules are evaluated as they are. -/
theorem evaluateSchedules_eq (h : s.evaluationFails intl ports accountId now = false) :
    s.evaluateSchedules intl ports accountId now =
      (s.rows.listSchedulesForAccount accountId).map fun schedule =>
        evaluateEntry intl (s.isWindowSkipped accountId schedule.id) schedule now := by
  unfold evaluateSchedules
  refine List.map_congr_left fun schedule hschedule => ?_
  have haccount := (Rows.mem_listSchedulesForAccount.mp hschedule).2
  have hvalid := List.any_eq_false.mp h schedule hschedule
  unfold evaluateSchedule evaluateEntry
  cases henabled : schedule.enabled with
  | false => simp
  | true =>
    cases heval : evaluateScheduleWindow intl schedule now with
    | error e => rfl
    | ok state =>
      simp only [henabled, heval, Bool.true_and, Bool.not_eq_true, Bool.and_eq_false_iff] at hvalid
      cases hwindow : state.windowId with
      | none =>
        dsimp only
        rw [hwindow]
        rfl
      | some windowId =>
        rcases hvalid with hnone | hlookup
        · simp [hwindow] at hnone
        · simp [hlookup, haccount]

theorem runAccount_of_next (hn : s.next intl (.runAccount accountId ports) = some t) :
    ∃ tick, s.tick = some tick ∧ accountId ∈ tick.pending ∧
      t = (s.takes tick accountId).runAccount intl accountId tick.now ports := by
  simp only [Coordinator.next] at hn
  split at hn
  next tick htick =>
    split at hn
    next hpending => exact ⟨tick, htick, hpending, (Option.some.inj hn).symm⟩
    next => cases hn
  next => cases hn

/-- At most one schedule of an account has an open window. After a transition that is done
without an error it is the winning window of that instant, and the one in memory; any other
transition leaves the markers as they are. -/
theorem markers_follow_winner (h : (scheduleMachine intl).Reachable s) :
    (∀ id id' row row' w w', s.rows.lookup id = some row → s.rows.lookup id' = some row' →
      row.accountId = row'.accountId → row.IsOpen w → row'.IsOpen w' → id = id') ∧
    ∀ accountId ports tick t, s.tick = some tick →
      s.next intl (.runAccount accountId ports) = some t →
      ∃ r, (t.history = .transition r :: s.history ∨
          t.history = .restarted :: .transition r :: s.history) ∧
        r.accountId = accountId ∧ r.now = tick.now ∧
        (r.ended = .done → r.invalid = false →
          r.winner = s.winnerAt intl accountId tick.now ∧
          t.activeWindows.lookup accountId = r.winner ∧
          ∀ w, t.OpenIn accountId w ↔ r.winner = some w) ∧
        (r.ended ≠ .done → t.rows = s.rows) := by
  have hm := Marked.of_reachable h
  refine ⟨hm.single, ?_⟩
  intro accountId ports tick t htick hn
  obtain ⟨tick', htick', -, rfl⟩ := runAccount_of_next hn
  obtain rfl : tick = tick' := Option.some.inj (htick.symm.trans htick')
  obtain ⟨p, hp, hcase⟩ := runAccount_eq intl (s.takes tick accountId) accountId tick.now ports
  have hl := (hm.takes tick accountId).leaves hp
  refine ⟨recordOf intl (s.takes tick accountId) accountId tick.now ports p, ?_, rfl, rfl, ?_, ?_⟩
  · rcases hcase with ⟨-, heq⟩ | ⟨-, heq⟩
    · rw [heq, ← show p.state.history = s.history from hl.history]
      exact .inl rfl
    · rw [heq, ← show p.state.history = s.history from hl.history]
      exact .inr rfl
  · intro hdone hvalid
    have hdone : p.ended = .done := hdone
    obtain ⟨hmoves, hmem⟩ := hl.done hdone
    rcases hcase with ⟨-, heq⟩ | ⟨hcrash, -⟩
    · rw [heq]
      refine ⟨?_, hmem, fun w => ⟨?_, fun hw => ?_⟩⟩
      · exact congrArg (fun entries => (winningWindow entries).map (·.2)) (evaluateSchedules_eq hvalid)
      · rintro ⟨id, row, hrow, haccount, hopen⟩
        exact ((hmoves.isOpen_iff id row w hrow haccount).mp hopen).1
      · obtain ⟨row, hrow, haccount⟩ := hmoves.isSome w hw
        exact ⟨_, row, hrow, haccount, (hmoves.isOpen_iff _ row w hrow haccount).mpr ⟨hw, rfl⟩⟩
    · rw [hdone] at hcrash
      cases hcrash
  · intro hdone
    have hrows : p.state.rows = s.rows := (hl.unchanged hdone).1
    rcases hcase with ⟨-, heq⟩ | ⟨-, heq⟩
    · rw [heq]
      exact hrows
    · rw [heq]
      exact hrows

def finePorts : Ports where
  skipLookupFails _ := false
  activeHold := .returns false
  applyPreset := .returns ()
  holdAfterPreset := .returns false
  resumeOrStart := .returns ()
  commitStartedWindow := .returns ()
  desiredState := .returns .running
  pause := .returns ()
  markWindowsStopped := .returns ()

def greenwich : Intl := fun _ => some ⟨fun _ => 0⟩

/-- A schedule from ten to eleven on Thursdays. -/
def createMorning : Action :=
  .create 1 5 "Morning" true (.array [.integer 4]) (.of 10 0)
    (.of 11 0) "UTC" 0

def morning : WindowId := ⟨0, 0, .of 10 0, .of 11 0⟩

def stateAfter (actions : List Action) : Coordinator :=
  ((scheduleMachine greenwich).exec Coordinator.empty actions).getD Coordinator.empty

/-- The tick at ten starts the window of the morning. -/
theorem markers_follow_winner_morning :
    let t := stateAfter [createMorning, .beginTick 36000000, .runAccount 1 finePorts]
    t.activeWindows.lookup 1 = some morning ∧ t.OpenIn 1 morning := by
  have hr : (scheduleMachine greenwich).Reachable (stateAfter [createMorning, .beginTick 36000000]) :=
    Transition.Machine.reachable_exec rfl (by decide)
  obtain ⟨r, hhistory, -, -, hdone, -⟩ := (markers_follow_winner hr).2 1 finePorts ⟨36000000, [1]⟩
    (stateAfter [createMorning, .beginTick 36000000, .runAccount 1 finePorts]) (by decide) rfl
  obtain rfl : r = ⟨1, 36000000, false, some morning, some (.start 0 morning),
      [.applyPreset 5, .resumeOrStart], .done⟩ := by
    rcases hhistory with hhistory | hhistory
    · exact Event.transition.inj (List.cons.inj hhistory).1.symm
    · cases (List.cons.inj hhistory).1
  obtain ⟨-, hmem, hopen⟩ := hdone rfl rfl
  exact ⟨hmem, (hopen morning).mpr rfl⟩

end Coordinator
end SteamBee.Schedule
