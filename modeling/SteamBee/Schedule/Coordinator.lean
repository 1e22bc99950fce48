import Mathlib.Algebra.Order.Ring.Int
import Mathlib.Data.List.Dedup
import SteamBee.Data.Table
import SteamBee.Schedule.Winner
import SteamBee.Transition.Machine

/-! The schedule coordinator: ticks that run the transition of each account in its queue,
the stored markers, the windows in memory and the back-off of failed transitions, between
edits of schedules, skips, restarts and failures of its ports. -/
namespace SteamBee.Schedule

inductive DesiredState where
  | running | paused | stopped
  deriving DecidableEq, Repr

structure OpenScheduleWindow where
  scheduleId : ScheduleId
  windowId : WindowId
  deriving DecidableEq, Repr

inductive RetryKey where
  | start (scheduleId : ScheduleId) (windowId : WindowId)
  | pause
  deriving DecidableEq, Repr

structure FailedTransition where
  key : RetryKey
  failures : ℕ
  retryAt : ℤ
  deriving DecidableEq, Repr

abbrev Rows := Table ScheduleId ScheduleRecord

/-- How a call of a port ends; in a crash the process ends instead. -/
inductive Outcome (α : Type) where
  | returns (a : α)
  | rejects
  | crashes
  deriving DecidableEq, Repr

structure Ports where
  skipLookupFails : ScheduleId → Bool
  activeHold : Outcome Bool
  applyPreset : Outcome Unit
  holdAfterPreset : Outcome Bool
  resumeOrStart : Outcome Unit
  commitStartedWindow : Outcome Unit
  desiredState : Outcome DesiredState
  pause : Outcome Unit
  markWindowsStopped : Outcome Unit

inductive PortCall where
  | applyPreset (presetId : PresetId)
  | resumeOrStart
  | pause
  deriving DecidableEq, Repr

/-- How a transition ended: as the schedules say, at a hold, in a back-off, with an error, or
with the process. -/
inductive Ended where
  | done | held | backingOff | failed | crashed
  deriving DecidableEq, Repr

/-- A transition of an account: `invalid` when some schedule could not be evaluated,
`attempt` the key of the transition that was tried, and `calls` the calls of the ports that
act on the account. -/
structure TransitionRecord where
  accountId : AccountId
  now : ℤ
  invalid : Bool
  winner : Option WindowId
  attempt : Option RetryKey
  calls : List PortCall
  ended : Ended
  deriving DecidableEq, Repr

inductive Event where
  | tickBegan (now : ℤ)
  | transition (record : TransitionRecord)
  | tickEnded
  | cleared (accountId : AccountId)
  | restarted
  deriving DecidableEq, Repr

structure Tick where
  now : ℤ
  pending : List AccountId
  deriving DecidableEq, Repr

/-- `history` records the ticks and what cleared the memory, newest first. -/
structure Coordinator where
  rows : Rows
  skips : List (AccountId × ScheduleId × WindowId)
  activeWindows : Table AccountId WindowId
  failedTransitions : Table AccountId FailedTransition
  tick : Option Tick
  drawn : ScheduleId
  history : List Event

def scheduleIntervalMs : ℤ := 60000

def maxRetryDelayMs : ℤ := 3600000

def ScheduleRecord.openWindow (schedule : ScheduleRecord) : Option OpenScheduleWindow :=
  match schedule.lastStartedWindow with
  | some windowId =>
    if schedule.lastStartedWindow ≠ schedule.lastStoppedWindow then some ⟨schedule.id, windowId⟩
    else none
  | none => none

def openScheduleWindows (entries : List ScheduleEntry) : List OpenScheduleWindow :=
  entries.filterMap fun entry => entry.schedule.openWindow

namespace Rows

def schedules (rows : Rows) : List ScheduleRecord := rows.entries.map fun e => e.2

def listAccountIds (rows : Rows) : List AccountId := (rows.schedules.map (·.accountId)).dedup

def listSchedulesForAccount (rows : Rows) (accountId : AccountId) : List ScheduleRecord :=
  rows.schedules.filter fun schedule => schedule.accountId = accountId

/-- The update of `last_stopped_window`; it has to change one row. -/
def markStopped (accountId : AccountId) (rows : Rows) (window : OpenScheduleWindow) : Option Rows :=
  match rows.lookup window.scheduleId with
  | some row =>
    if row.accountId = accountId ∧ row.lastStartedWindow = some window.windowId then
      some (rows.modify window.scheduleId fun row =>
        { row with lastStoppedWindow := some window.windowId })
    else none
  | none => none

/-- A transaction: `none` when it is rolled back. -/
def markWindowsStopped (rows : Rows) (accountId : AccountId) (windows : List OpenScheduleWindow) :
    Option Rows :=
  windows.foldlM (markStopped accountId) rows

def markStarted (rows : Rows) (accountId : AccountId) (window : OpenScheduleWindow)
    (expectedUpdatedAt : ℤ) : Option Rows :=
  match rows.lookup window.scheduleId with
  | some row =>
    if row.accountId = accountId ∧ row.enabled ∧ row.updatedAt = expectedUpdatedAt then
      some (rows.modify window.scheduleId fun row =>
        { row with
          lastStartedWindow := some window.windowId
          lastStoppedWindow :=
            if row.lastStoppedWindow = some window.windowId then none else row.lastStoppedWindow })
    else none
  | none => none

def commitStartedWindow (rows : Rows) (accountId : AccountId) (window : OpenScheduleWindow)
    (expectedUpdatedAt : ℤ) (previousWindows : List OpenScheduleWindow) : Option Rows :=
  (rows.markWindowsStopped accountId (previousWindows.filter (· ≠ window))).bind fun rows =>
    rows.markStarted accountId window expectedUpdatedAt

end Rows

namespace Coordinator

def empty : Coordinator := ⟨∅, [], ∅, ∅, none, 0, []⟩

def isWindowSkipped (s : Coordinator) (accountId : AccountId) (scheduleId : ScheduleId)
    (windowId : WindowId) : Bool :=
  decide ((accountId, scheduleId, windowId) ∈ s.skips)

/-- The entry of one schedule. When the lookup of the skip fails the window has already been
assigned. -/
def evaluateSchedule (intl : Intl) (s : Coordinator) (ports : Ports) (now : ℤ)
    (schedule : ScheduleRecord) : ScheduleEntry :=
  evaluateEntry intl
    (fun windowId => !ports.skipLookupFails schedule.id &&
      s.isWindowSkipped schedule.accountId schedule.id windowId)
    schedule now

def evaluateSchedules (intl : Intl) (s : Coordinator) (ports : Ports) (accountId : AccountId)
    (now : ℤ) : List ScheduleEntry :=
  (s.rows.listSchedulesForAccount accountId).map (evaluateSchedule intl s ports now)

/-- Some schedule of the account was not evaluated: its time zone is not known or the lookup
of its skip failed. -/
def evaluationFails (intl : Intl) (s : Coordinator) (ports : Ports) (accountId : AccountId)
    (now : ℤ) : Bool :=
  (s.rows.listSchedulesForAccount accountId).any fun schedule =>
    schedule.enabled && match evaluateScheduleWindow intl schedule now with
      | .ok state => state.windowId.isSome && ports.skipLookupFails schedule.id
      | .error _ => true

def isBackingOff (s : Coordinator) (accountId : AccountId) (key : RetryKey) (now : ℤ) : Bool :=
  (s.failedTransitions.lookup accountId).any fun failed =>
    decide (failed.key = key) && decide (now < failed.retryAt)

def recordTransitionFailure (s : Coordinator) (accountId : AccountId) (key : RetryKey) (now : ℤ) :
    Coordinator :=
  let failures := match s.failedTransitions.lookup accountId with
    | some previous => if previous.key = key then previous.failures + 1 else 1
    | none => 1
  let delayMs := min (scheduleIntervalMs * 2 ^ (failures - 1)) maxRetryDelayMs
  { s with
    failedTransitions := s.failedTransitions.insert accountId ⟨key, failures, now + delayMs⟩ }

structure Progress where
  state : Coordinator
  attempt : Option RetryKey
  calls : List PortCall
  ended : Ended

def finishes (s : Coordinator) (ended : Ended) : Progress := ⟨s, none, [], ended⟩

/-- The `catch` of a transition. -/
def fails (s : Coordinator) (accountId : AccountId) (key : RetryKey) (now : ℤ)
    (calls : List PortCall) : Progress :=
  ⟨s.recordTransitionFailure accountId key now, some key, calls, .failed⟩

def commitOpen (s : Coordinator) (accountId : AccountId) (winner : ScheduleRecord)
    (nextWindow : WindowId) (previousWindows : List OpenScheduleWindow) (ports : Ports)
    (hydrate : Bool) : Progress :=
  let hydrated (s : Coordinator) : Coordinator :=
    if hydrate then { s with activeWindows := s.activeWindows.insert accountId nextWindow } else s
  if previousWindows = [] then (hydrated s).finishes .done
  else match ports.commitStartedWindow with
    | .crashes => s.finishes .crashed
    | .rejects => s.finishes .failed
    | .returns _ =>
      match s.rows.commitStartedWindow accountId ⟨winner.id, nextWindow⟩ winner.updatedAt
          previousWindows with
      | some rows => (hydrated { s with rows }).finishes .done
      | none => s.finishes .failed

def startWindow (s : Coordinator) (accountId : AccountId) (winner : ScheduleRecord)
    (nextWindow : WindowId) (previousWindows : List OpenScheduleWindow) (now : ℤ) (ports : Ports) :
    Progress :=
  let key := RetryKey.start winner.id nextWindow
  let preset := PortCall.applyPreset winner.presetId
  match ports.applyPreset with
  | .crashes => ⟨s, some key, [], .crashed⟩
  | .rejects => s.fails accountId key now [preset]
  | .returns _ =>
    match ports.holdAfterPreset with
    | .crashes => ⟨s, some key, [preset], .crashed⟩
    | .rejects => s.fails accountId key now [preset]
    | .returns true => ⟨s, some key, [preset], .held⟩
    | .returns false =>
      match ports.resumeOrStart with
      | .crashes => ⟨s, some key, [preset], .crashed⟩
      | .rejects => s.fails accountId key now [preset, .resumeOrStart]
      | .returns _ =>
        match ports.commitStartedWindow with
        | .crashes => ⟨s, some key, [preset, .resumeOrStart], .crashed⟩
        | .rejects => s.fails accountId key now [preset, .resumeOrStart]
        | .returns _ =>
          match s.rows.commitStartedWindow accountId ⟨winner.id, nextWindow⟩ winner.updatedAt
              previousWindows with
          | none => s.fails accountId key now [preset, .resumeOrStart]
          | some rows =>
            ⟨{ s with
                rows
                activeWindows := s.activeWindows.insert accountId nextWindow
                failedTransitions := s.failedTransitions.erase accountId },
              some key, [preset, .resumeOrStart], .done⟩

def stopAccountWindow (s : Coordinator) (accountId : AccountId) (entries : List ScheduleEntry)
    (now : ℤ) (ports : Ports) : Progress :=
  let openWindows := openScheduleWindows entries
  if s.activeWindows.lookup accountId = none ∧ openWindows = [] then s.finishes .done
  else if s.isBackingOff accountId .pause now then s.finishes .backingOff
  else match ports.desiredState with
    | .crashes => ⟨s, some .pause, [], .crashed⟩
    | .rejects => s.fails accountId .pause now []
    | .returns desiredState =>
      let mark (calls : List PortCall) : Progress :=
        match ports.markWindowsStopped with
        | .crashes => ⟨s, some .pause, calls, .crashed⟩
        | .rejects => s.fails accountId .pause now calls
        | .returns _ =>
          match s.rows.markWindowsStopped accountId openWindows with
          | none => s.fails accountId .pause now calls
          | some rows =>
            ⟨{ s with
                rows
                activeWindows := s.activeWindows.erase accountId
                failedTransitions := s.failedTransitions.erase accountId },
              some .pause, calls, .done⟩
      if desiredState = .stopped then mark []
      else match ports.pause with
        | .crashes => ⟨s, some .pause, [], .crashed⟩
        | .rejects => s.fails accountId .pause now [.pause]
        | .returns _ => mark [.pause]

def winningWindow (entries : List ScheduleEntry) : Option (ScheduleRecord × WindowId) :=
  (selectScheduleWinner entries).bind fun entry =>
    (entry.state.bind (·.windowId)).map fun windowId => (entry.schedule, windowId)

def transitionAccount (s : Coordinator) (accountId : AccountId) (entries : List ScheduleEntry)
    (now : ℤ) (ports : Ports) : Progress :=
  match ports.activeHold with
  | .crashes => s.finishes .crashed
  | .rejects => s.finishes .failed
  | .returns true => s.finishes .held
  | .returns false =>
    let previousWindow := s.activeWindows.lookup accountId
    match winningWindow entries with
    | none => s.stopAccountWindow accountId entries now ports
    | some (winner, nextWindow) =>
      let winnerWindowIsOpen := winner.lastStartedWindow = some nextWindow ∧
        winner.lastStoppedWindow ≠ some nextWindow
      let previousWindows :=
        (openScheduleWindows entries).filter (· ≠ ⟨winner.id, nextWindow⟩)
      if winnerWindowIsOpen ∧ previousWindow = some nextWindow then
        s.commitOpen accountId winner nextWindow previousWindows ports false
      else if previousWindow = none ∧ winnerWindowIsOpen then
        s.commitOpen accountId winner nextWindow previousWindows ports true
      else if s.isBackingOff accountId (.start winner.id nextWindow) now then
        s.finishes .backingOff
      else s.startWindow accountId winner nextWindow previousWindows now ports

/-- The memory of the process is gone, and so is its tick. -/
def restart (s : Coordinator) : Coordinator :=
  { s with
    activeWindows := ∅
    failedTransitions := ∅
    tick := none
    history := .restarted :: s.history }

def clearAccount (s : Coordinator) (accountId : AccountId) : Coordinator :=
  { s with
    activeWindows := s.activeWindows.erase accountId
    failedTransitions := s.failedTransitions.erase accountId
    history := .cleared accountId :: s.history }

def runAccount (intl : Intl) (s : Coordinator) (accountId : AccountId) (now : ℤ)
    (ports : Ports) : Coordinator :=
  let entries := s.evaluateSchedules intl ports accountId now
  let p := s.transitionAccount accountId entries now ports
  let record : TransitionRecord :=
    ⟨accountId, now, s.evaluationFails intl ports accountId now,
      (winningWindow entries).map (·.2), p.attempt, p.calls, p.ended⟩
  let next := { p.state with history := .transition record :: p.state.history }
  if p.ended = .crashed then next.restart else next

end Coordinator

structure ScheduleUpdate where
  name : Option String
  presetId : Option PresetId
  enabled : Option Bool
  weekdaysJson : Option WeekdaysJson
  startTime : Option ClockTime
  endTime : Option ClockTime
  timezone : Option String

def ScheduleUpdate.apply (u : ScheduleUpdate) (row : ScheduleRecord) (now : ℤ) : ScheduleRecord :=
  { row with
    name := u.name.getD row.name
    presetId := u.presetId.getD row.presetId
    enabled := u.enabled.getD row.enabled
    weekdaysJson := u.weekdaysJson.getD row.weekdaysJson
    startTime := u.startTime.getD row.startTime
    endTime := u.endTime.getD row.endTime
    timezone := u.timezone.getD row.timezone
    updatedAt := now }

inductive Action where
  | create (accountId : AccountId) (presetId : PresetId) (name : String) (enabled : Bool)
      (weekdaysJson : WeekdaysJson) (startTime endTime : ClockTime) (timezone : String) (now : ℤ)
  | update (scheduleId : ScheduleId) (update : ScheduleUpdate) (now : ℤ)
  | delete (scheduleId : ScheduleId)
  | skip (scheduleId : ScheduleId) (windowId : WindowId)
  | clearAccount (accountId : AccountId)
  | restart
  | beginTick (now : ℤ)
  | runAccount (accountId : AccountId) (ports : Ports)
  | endTick

namespace Coordinator

def next (intl : Intl) (s : Coordinator) : Action → Option Coordinator
  | .create accountId presetId name enabled weekdaysJson startTime endTime timezone now =>
    if startTime = endTime then none
    else some { s with
      rows := s.rows.insert s.drawn ⟨s.drawn, accountId, presetId, name, enabled, weekdaysJson,
        startTime, endTime, timezone, none, none, now⟩
      drawn := s.drawn + 1 }
  | .update scheduleId update now =>
    match s.rows.lookup scheduleId with
    | some row =>
      -- start and end must not be identical
      if (update.apply row now).startTime = (update.apply row now).endTime then none
      else some { s with rows := s.rows.modify scheduleId fun row => update.apply row now }
    | none => none
  | .delete scheduleId => some { s with rows := s.rows.erase scheduleId }
  | .skip scheduleId windowId =>
    match s.rows.lookup scheduleId with
    | some row =>
      let s := { s with skips := (row.accountId, scheduleId, windowId) :: s.skips }
      some (s.clearAccount row.accountId)
    | none => none
  | .clearAccount accountId => some (s.clearAccount accountId)
  | .restart => some s.restart
  | .beginTick now =>
    if s.tick = none then
      some { s with
        tick := some ⟨now,
          (s.rows.listAccountIds ++ s.activeWindows.entries.map fun e => e.1).dedup⟩
        history := .tickBegan now :: s.history }
    else none
  | .runAccount accountId ports =>
    match s.tick with
    | some tick =>
      if accountId ∈ tick.pending then
        let s := { s with tick := some { tick with pending := tick.pending.erase accountId } }
        some (s.runAccount intl accountId tick.now ports)
      else none
    | none => none
  | .endTick =>
    match s.tick with
    | some tick =>
      if tick.pending = [] then some { s with tick := none, history := .tickEnded :: s.history }
      else none
    | none => none

end Coordinator

def scheduleMachine (intl : Intl) : Transition.Machine Coordinator Action where
  Starts s := s = Coordinator.empty
  next := Coordinator.next intl

end SteamBee.Schedule
