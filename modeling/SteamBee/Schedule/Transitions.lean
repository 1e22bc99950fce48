import SteamBee.Schedule.Rows

/-! What one transition of an account can do. -/
namespace SteamBee.Schedule

def Ports.Rejects (ports : Ports) : Prop :=
  ports.activeHold = .rejects ∨ ports.applyPreset = .rejects ∨ ports.holdAfterPreset = .rejects ∨
    ports.resumeOrStart = .rejects ∨ ports.commitStartedWindow = .rejects ∨
    ports.desiredState = .rejects ∨ ports.pause = .rejects ∨ ports.markWindowsStopped = .rejects

/-- Some port is where the process ends. -/
def Ports.Crashes (ports : Ports) : Prop :=
  ports.activeHold = .crashes ∨ ports.applyPreset = .crashes ∨ ports.holdAfterPreset = .crashes ∨
    ports.resumeOrStart = .crashes ∨ ports.commitStartedWindow = .crashes ∨
    ports.desiredState = .crashes ∨ ports.pause = .crashes ∨ ports.markWindowsStopped = .crashes

def otherWindows (entries : List ScheduleEntry) (winner : ScheduleRecord) (next : WindowId) :
    List OpenScheduleWindow :=
  (openScheduleWindows entries).filter (· ≠ ⟨winner.id, next⟩)

namespace Coordinator

/-- The window of the winner is open, and the memory does not say otherwise. -/
def Continues (s : Coordinator) (accountId : AccountId) (winner : ScheduleRecord)
    (next : WindowId) : Prop :=
  winner.IsOpen next ∧
    (s.activeWindows.lookup accountId = some next ∨ s.activeWindows.lookup accountId = none)

def Idle (s : Coordinator) (accountId : AccountId) (entries : List ScheduleEntry) : Prop :=
  s.activeWindows.lookup accountId = none ∧ openScheduleWindows entries = []

inductive Attempts (s : Coordinator) (accountId : AccountId) (entries : List ScheduleEntry) :
    RetryKey → Prop where
  | start {winner : ScheduleRecord} {next : WindowId}
    (hwin : winningWindow entries = some (winner, next))
    (h : ¬s.Continues accountId winner next) : Attempts s accountId entries (.start winner.id next)
  | pause (hwin : winningWindow entries = none) (h : ¬s.Idle accountId entries) :
    Attempts s accountId entries .pause

def CallsOf (ports : Ports) : RetryKey → List PortCall → Prop
  | .start _ _, calls => .pause ∉ calls ∧
    (.resumeOrStart ∈ calls → ports.holdAfterPreset = .returns false)
  | .pause, calls => calls = [] ∨ calls = [.pause]

def Failure (s : Coordinator) (accountId : AccountId) (entries : List ScheduleEntry)
    (ports : Ports) : Prop :=
  ports.Rejects ∨
    (∃ winner next, winningWindow entries = some (winner, next) ∧
      s.rows.commitStartedWindow accountId ⟨winner.id, next⟩ winner.updatedAt
        (otherWindows entries winner next) = none) ∨
    s.rows.markWindowsStopped accountId (openScheduleWindows entries) = none

inductive Shape (s : Coordinator) (accountId : AccountId) (entries : List ScheduleEntry) (now : ℤ)
    (ports : Ports) : Progress → Prop where
  | held (h : ports.activeHold = .returns true) : Shape s accountId entries now ports (s.finishes .held)
  | refused (h : s.Failure accountId entries ports) :
    Shape s accountId entries now ports (s.finishes .failed)
  | crashed (h : ports.Crashes) : Shape s accountId entries now ports (s.finishes .crashed)
  | backingOff {key : RetryKey} (h : s.isBackingOff accountId key now = true) :
    Shape s accountId entries now ports (s.finishes .backingOff)
  | nothing (hwin : winningWindow entries = none) (h : s.Idle accountId entries) :
    Shape s accountId entries now ports (s.finishes .done)
  | kept {winner : ScheduleRecord} {next : WindowId} {rows : Rows}
    {activeWindows : Table AccountId WindowId}
    (hwin : winningWindow entries = some (winner, next)) (h : s.Continues accountId winner next)
    (hrows : otherWindows entries winner next = [] ∧ rows = s.rows ∨
      s.rows.commitStartedWindow accountId ⟨winner.id, next⟩ winner.updatedAt
        (otherWindows entries winner next) = some rows)
    (hactive : activeWindows = s.activeWindows ∧ s.activeWindows.lookup accountId = some next ∨
      activeWindows = s.activeWindows.insert accountId next) :
    Shape s accountId entries now ports (finishes { s with rows, activeWindows } .done)
  | stopsShort {key : RetryKey} {calls : List PortCall} {ended : Ended}
    (hhold : ports.activeHold = .returns false) (hkey : s.Attempts accountId entries key)
    (hback : s.isBackingOff accountId key now = false) (hcalls : CallsOf ports key calls)
    (hended : ended = .held ∧ ports.holdAfterPreset = .returns true ∨ ended = .crashed ∧
      ports.Crashes ∧ (.resumeOrStart ∈ calls → ports.commitStartedWindow = .crashes)) :
    Shape s accountId entries now ports ⟨s, some key, calls, ended⟩
  | fails {key : RetryKey} {calls : List PortCall} (hhold : ports.activeHold = .returns false)
    (hkey : s.Attempts accountId entries key) (hback : s.isBackingOff accountId key now = false)
    (hcalls : CallsOf ports key calls) (h : s.Failure accountId entries ports) :
    Shape s accountId entries now ports (s.fails accountId key now calls)
  | started {winner : ScheduleRecord} {next : WindowId} {rows : Rows}
    (hhold : ports.activeHold = .returns false) (hhold' : ports.holdAfterPreset = .returns false)
    (hwin : winningWindow entries = some (winner, next)) (h : ¬s.Continues accountId winner next)
    (hback : s.isBackingOff accountId (.start winner.id next) now = false)
    (hrows : s.rows.commitStartedWindow accountId ⟨winner.id, next⟩ winner.updatedAt
      (otherWindows entries winner next) = some rows) :
    Shape s accountId entries now ports ⟨{ s with
        rows
        activeWindows := s.activeWindows.insert accountId next
        failedTransitions := s.failedTransitions.erase accountId },
      some (.start winner.id next), [.applyPreset winner.presetId, .resumeOrStart], .done⟩
  | stopped {rows : Rows} {calls : List PortCall} (hhold : ports.activeHold = .returns false)
    (hwin : winningWindow entries = none) (h : ¬s.Idle accountId entries)
    (hback : s.isBackingOff accountId .pause now = false)
    (hcalls : calls = [.pause] ∨ calls = [] ∧ ports.desiredState = .returns .stopped)
    (hrows : s.rows.markWindowsStopped accountId (openScheduleWindows entries) = some rows) :
    Shape s accountId entries now ports ⟨{ s with
        rows
        activeWindows := s.activeWindows.erase accountId
        failedTransitions := s.failedTransitions.erase accountId },
      some .pause, calls, .done⟩

variable {s : Coordinator} {accountId : AccountId} {entries : List ScheduleEntry} {now : ℤ}
  {ports : Ports} {winner : ScheduleRecord} {next : WindowId}

theorem commitOpen_shape (hwin : winningWindow entries = some (winner, next))
    (h : s.Continues accountId winner next) {hydrate : Bool}
    (hmem : hydrate = false → s.activeWindows.lookup accountId = some next) :
    Shape s accountId entries now ports
      (s.commitOpen accountId winner next (otherWindows entries winner next) ports hydrate) := by
  have hactive : (if hydrate then s.activeWindows.insert accountId next else s.activeWindows) =
        s.activeWindows ∧ s.activeWindows.lookup accountId = some next ∨
      (if hydrate then s.activeWindows.insert accountId next else s.activeWindows) =
        s.activeWindows.insert accountId next := by
    cases hydrate with
    | false => exact .inl ⟨rfl, hmem rfl⟩
    | true => exact .inr rfl
  unfold commitOpen
  dsimp only
  split
  next hnone =>
    have hkept : Shape s accountId entries now ports _ :=
      .kept hwin h (.inl ⟨hnone, rfl⟩) hactive
    cases hydrate with
    | false => exact hkept
    | true => exact hkept
  next =>
    split
    next hcommit => exact .crashed (by simp [Ports.Crashes, hcommit])
    next hcommit => exact .refused (.inl (by simp [Ports.Rejects, hcommit]))
    next =>
      split
      next rows hrows =>
        have hkept : Shape s accountId entries now ports _ := .kept hwin h (.inr hrows) hactive
        cases hydrate with
        | false => exact hkept
        | true => exact hkept
      next hrows => exact .refused (.inr (.inl ⟨winner, next, hwin, hrows⟩))

theorem startWindow_shape (hhold : ports.activeHold = .returns false)
    (hwin : winningWindow entries = some (winner, next)) (h : ¬s.Continues accountId winner next)
    (hback : s.isBackingOff accountId (.start winner.id next) now = false) :
    Shape s accountId entries now ports
      (s.startWindow accountId winner next (otherWindows entries winner next) now ports) := by
  have hkey : s.Attempts accountId entries (.start winner.id next) := .start hwin h
  have hpreset : CallsOf ports (.start winner.id next) [.applyPreset winner.presetId] := by
    simp [CallsOf]
  have hboth (hhold' : ports.holdAfterPreset = .returns false) :
      CallsOf ports (.start winner.id next) [.applyPreset winner.presetId, .resumeOrStart] := by
    simp [CallsOf, hhold']
  unfold startWindow
  dsimp only
  split
  next hcall =>
    refine .stopsShort hhold hkey hback (by simp [CallsOf]) (.inr ⟨rfl, ?_, by simp⟩)
    simp [Ports.Crashes, hcall]
  next hcall => exact .fails hhold hkey hback hpreset (.inl (by simp [Ports.Rejects, hcall]))
  next =>
    split
    next hcall =>
      refine .stopsShort hhold hkey hback hpreset (.inr ⟨rfl, ?_, by simp⟩)
      simp [Ports.Crashes, hcall]
    next hcall => exact .fails hhold hkey hback hpreset (.inl (by simp [Ports.Rejects, hcall]))
    next hhold' => exact .stopsShort hhold hkey hback hpreset (.inl ⟨rfl, hhold'⟩)
    next hhold' =>
      split
      next hcall =>
        refine .stopsShort hhold hkey hback hpreset (.inr ⟨rfl, ?_, by simp⟩)
        simp [Ports.Crashes, hcall]
      next hcall =>
        exact .fails hhold hkey hback (hboth hhold') (.inl (by simp [Ports.Rejects, hcall]))
      next =>
        split
        next hcall =>
          refine .stopsShort hhold hkey hback (hboth hhold') (.inr ⟨rfl, ?_, fun _ => hcall⟩)
          simp [Ports.Crashes, hcall]
        next hcall =>
          exact .fails hhold hkey hback (hboth hhold') (.inl (by simp [Ports.Rejects, hcall]))
        next =>
          split
          next hrows =>
            exact .fails hhold hkey hback (hboth hhold') (.inr (.inl ⟨winner, next, hwin, hrows⟩))
          next rows hrows => exact .started hhold hhold' hwin h hback hrows

theorem stopAccountWindow_shape (hhold : ports.activeHold = .returns false)
    (hwin : winningWindow entries = none) :
    Shape s accountId entries now ports (s.stopAccountWindow accountId entries now ports) := by
  unfold stopAccountWindow
  extract_lets openWindows
  split
  next hidle => exact .nothing hwin hidle
  next hidle =>
    have hkey : s.Attempts accountId entries .pause := .pause hwin hidle
    split
    next hback => exact .backingOff hback
    next hback =>
      have hback : s.isBackingOff accountId .pause now = false := by simpa using hback
      split
      next hcall =>
        refine .stopsShort hhold hkey hback (.inl rfl) (.inr ⟨rfl, ?_, by simp⟩)
        simp [Ports.Crashes, hcall]
      next hcall =>
        exact .fails hhold hkey hback (.inl rfl) (.inl (by simp [Ports.Rejects, hcall]))
      next mark _ _ desiredState hdesired =>
        have hmark (calls : List PortCall)
            (hcalls : calls = [.pause] ∨ calls = [] ∧ ports.desiredState = .returns .stopped) :
            Shape s accountId entries now ports (mark calls) := by
          have hof : CallsOf ports .pause calls := by
            rcases hcalls with rfl | ⟨rfl, -⟩
            · exact .inr rfl
            · exact .inl rfl
          have hquiet : .resumeOrStart ∉ calls := by
            rcases hcalls with rfl | ⟨rfl, -⟩
            · simp
            · simp
          unfold mark
          split
          next hcall =>
            refine .stopsShort hhold hkey hback hof (.inr ⟨rfl, ?_, fun h => absurd h hquiet⟩)
            simp [Ports.Crashes, hcall]
          next hcall => exact .fails hhold hkey hback hof (.inl (by simp [Ports.Rejects, hcall]))
          next =>
            split
            next hrows => exact .fails hhold hkey hback hof (.inr (.inr hrows))
            next rows hrows => exact .stopped hhold hwin hidle hback hcalls hrows
        split
        next hstopped => exact hmark [] (.inr ⟨rfl, by rw [hdesired, hstopped]⟩)
        next =>
          split
          next hcall =>
            refine .stopsShort hhold hkey hback (.inl rfl) (.inr ⟨rfl, ?_, by simp⟩)
            simp [Ports.Crashes, hcall]
          next hcall =>
            exact .fails hhold hkey hback (.inr rfl) (.inl (by simp [Ports.Rejects, hcall]))
          next => exact hmark [.pause] (.inl rfl)

/-- Every transition goes in one of these ways. -/
theorem transitionAccount_shape (s : Coordinator) (accountId : AccountId)
    (entries : List ScheduleEntry) (now : ℤ) (ports : Ports) :
    Shape s accountId entries now ports (s.transitionAccount accountId entries now ports) := by
  unfold transitionAccount
  split
  next hcall => exact .crashed (by simp [Ports.Crashes, hcall])
  next hcall => exact .refused (.inl (by simp [Ports.Rejects, hcall]))
  next hcall => exact .held hcall
  next hhold =>
    dsimp only
    split
    next hwin => exact stopAccountWindow_shape hhold hwin
    next winner next hwin =>
      split
      next hopen =>
        exact commitOpen_shape hwin ⟨hopen.1, .inl hopen.2⟩ fun _ => hopen.2
      next hopen =>
        split
        next hhydrate =>
          exact commitOpen_shape hwin ⟨hhydrate.2, .inr hhydrate.1⟩ fun h => by cases h
        next hhydrate =>
          have hnot : ¬s.Continues accountId winner next := by
            rintro ⟨h, hsome | hnone⟩
            · exact hopen ⟨h, hsome⟩
            · exact hhydrate ⟨hnone, h⟩
          split
          next hback => exact .backingOff hback
          next hback => exact startWindow_shape hhold hwin hnot (by simpa using hback)

end Coordinator
end SteamBee.Schedule
