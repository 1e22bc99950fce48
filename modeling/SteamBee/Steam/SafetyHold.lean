import SteamBee.Schedule.Elsewhere
import SteamBee.Steam.SafetyCoordinator
import SteamBee.Transition.SerialQueue

/-! The safety hold of an account. The operations of the manager that set it, release it or wait
for its end take turns in the queue of the account; log-ins, the clock, the timer, the other
accounts, shutdowns and restarts do not wait for their turn. -/
namespace SteamBee.Steam
open Schedule (Coordinator DesiredState Intl OpenScheduleWindow Outcome Ports ScheduleEntry
  ScheduleId ScheduleRecord WindowId)
open Transition (Async)

inductive HoldReason where
  | manual
  | pauseUntil
  | limit (reason : SafetyHoldReason)
  | safetyFailure
  deriving DecidableEq, Repr

inductive HoldOrigin where
  | unscheduled
  | scheduled
  | unknown
  deriving DecidableEq, Repr

inductive SafetyHoldOwner where
  | unscheduled
  | unknown
  | scheduled (scheduleId : ScheduleId) (windowId : WindowId)
  deriving DecidableEq, Repr

structure SafetyHold where
  holdReason : Option HoldReason
  pauseUntil : Option ℤ
  holdScheduleId : Option ScheduleId
  holdScheduleWindow : Option WindowId
  holdScheduleOrigin : HoldOrigin
  deriving DecidableEq, Repr

namespace SafetyHold

def cleared : SafetyHold := ⟨none, none, none, none, .unscheduled⟩

def of (holdReason : HoldReason) (pauseUntil : Option ℤ) : SafetyHoldOwner → SafetyHold
  | .unscheduled => ⟨some holdReason, pauseUntil, none, none, .unscheduled⟩
  | .unknown => ⟨some holdReason, pauseUntil, none, none, .unknown⟩
  | .scheduled scheduleId windowId =>
    ⟨some holdReason, pauseUntil, some scheduleId, some windowId, .scheduled⟩

def owner (hold : SafetyHold) : SafetyHoldOwner :=
  match hold.holdScheduleOrigin with
  | .unknown => .unknown
  | .unscheduled => .unscheduled
  | .scheduled =>
    match hold.holdScheduleId, hold.holdScheduleWindow with
    | some scheduleId, some windowId => .scheduled scheduleId windowId
    | _, _ => .unknown

end SafetyHold

/-- The timer of a timed hold; `armedAt` is what the clock said when it was set. -/
structure SafetyResumeTimer where
  resumeAt : ℤ
  armedAt : ℤ
  delay : ℤ
  deriving DecidableEq, Repr

def maxTimerDelay : ℤ := 2147483647

/-- The account and its schedules as they are stored. `skipLookupFails` are the lookups of skips
that fail, and `starts` counts the writes of `running` outside the queue of the account. -/
structure HeldAccount where
  coordinator : Coordinator
  skipLookupFails : ScheduleId → Bool
  desiredState : Option DesiredState
  hold : SafetyHold
  starts : ℕ

/-- What the operation of a timer went by: the clock that it compared with the end of the hold,
the account when it read the desired state, the clock and the account when it looked for the
winner, and the account when it released the hold. -/
structure Decision where
  now : ℤ
  found : HeldAccount
  checkedAt : ℤ
  checked : HeldAccount
  released : HeldAccount

inductive ResumeCause where
  | request
  | farming
  | schedule
  | expiry (decision : Decision)

/-- The commands of the worker that make an account run. -/
inductive ResumeCommand where
  | start
  | resume
  | resumeForFarming
  deriving DecidableEq, Repr

/-- A call of the worker that makes an account run; `replaced` is the hold that the manager
released before. -/
structure Resumption where
  command : ResumeCommand
  cause : ResumeCause
  replaced : SafetyHold

/-- `recoveryHold` if the stored recovery action asks for attention or a new log-in; `restored`
once `init` has looked at the account. -/
structure HoldState extends HeldAccount where
  recoveryHold : Bool
  now : ℤ
  quiescing : Bool
  connected : Bool
  safetyResumeTimer : Option SafetyResumeTimer
  restored : Bool
  autoStarts : Bool
  resumptions : List Resumption

inductive HoldAwait where
  | query
  | update
  | worker
  deriving DecidableEq, Repr

abbrev HoldAsync (α : Type) : Type := Async HoldState HoldAwait Bool α

namespace HeldAccount

def entries (intl : Intl) (accountId : Schedule.AccountId) (a : HeldAccount) (now : ℤ) :
    List ScheduleEntry :=
  a.coordinator.evaluateSchedules intl
    { Schedule.Coordinator.finePorts with skipLookupFails := a.skipLookupFails } accountId now

def winner (intl : Intl) (accountId : Schedule.AccountId) (a : HeldAccount) (now : ℤ) :
    Option (ScheduleRecord × WindowId) := Coordinator.winningWindow (a.entries intl accountId now)

end HeldAccount

namespace HoldState

def scheduleSafetyResume (resumeAt : ℤ) (s : HoldState) : HoldState :=
  { s with
    safetyResumeTimer :=
      some ⟨resumeAt, s.now, max 0 (min (resumeAt - s.now) maxTimerDelay)⟩ }

def clearSafetyResume (s : HoldState) : HoldState := { s with safetyResumeTimer := none }

def setDesiredState (desiredState : DesiredState) (s : HoldState) : HoldState :=
  { s with desiredState := s.desiredState.map fun _ => desiredState }

end HoldState

/-- What waits for its turn in the queue of the account. -/
inductive HoldOperation where
  | safetyResume
  | pauseUntil (resumeAt : ℤ)
  | start (wasFarming : Bool)
  | stop (wasFarming : Bool)
  | pause (wasFarming : Bool)
  | resume (wasFarming : Bool)
  | resumeForFarming
  | endFarming
  | enforceCap (reason : SafetyHoldReason)
  | runSchedules (now : ℤ)
  | edit (a : Schedule.Action)
  | clientEvent (pauses attention : Bool)
  | forget
  | deleteAccount

/-! ## Queries and updates -/

namespace SteamManager

/-- A query about the account; it throws when there is none. -/
def query : HoldAsync HoldState := do
  let ok ← Async.await .query
  let s ← Async.get
  if ok = true ∧ s.desiredState.isSome then pure s else Async.throw

/-- An update of the rows of the account; it returns what it replaced. -/
def update (f : HoldState → HoldState) : HoldAsync HoldState := do
  let ok ← Async.await .update
  let s ← Async.get
  if ok = true ∧ s.desiredState.isSome then do
    Async.modify f
    pure s
  else Async.throw

def setSafetyHold (holdReason : HoldReason) (pauseUntil : Option ℤ) (owner : SafetyHoldOwner) :
    HoldAsync Unit := do
  let _ ← update fun s => { s with hold := .of holdReason pauseUntil owner }
  pure ()

def clearSafetyHold : HoldAsync HoldState := update fun s => { s with hold := .cleared }

def clearRecoveryHealth : HoldAsync Unit := do
  let _ ← update fun s => { s with recoveryHold := false }
  pure ()

inductive ActiveHold where
  | safety (reason : HoldReason)
  | recovery
  deriving DecidableEq, Repr

def getActiveAutomationHold : HoldAsync (Option ActiveHold) := do
  let s ← query
  match s.hold.holdReason with
  | some reason => pure (some (.safety reason))
  | none => do
    let s ← query
    pure (if s.recoveryHold then some .recovery else none)

def getWorkerForAccount : HoldAsync Unit := do
  let s ← query
  if s.quiescing then Async.throw else pure ()

/-! ## The worker -/

/-- A call of the worker that sets the desired state, if it does not return or throw before. -/
def workerSets (desiredState : DesiredState) : HoldAsync Unit := do
  let sets ← Async.await .worker
  Async.when sets (Async.modify (HoldState.setDesiredState desiredState))
  let ok ← Async.await .worker
  if ok then pure () else Async.throw

def workerResumes (resumption : Resumption) : HoldAsync Unit := do
  Async.modify fun s => { s with resumptions := resumption :: s.resumptions }
  workerSets .running

def workerPauses : HoldAsync Unit := do
  clearRecoveryHealth
  workerSets .paused

def workerStops : HoldAsync Unit := do
  clearRecoveryHealth
  let _ ← clearSafetyHold
  workerSets .stopped

def forceDisconnectForSafety : HoldAsync Unit := do
  let _ ← Async.attempt clearRecoveryHealth
  workerSets .paused

def markSafetyAttention : HoldAsync Unit := do
  workerSets .paused
  let _ ← update fun s => { s with recoveryHold := true }
  pure ()

/-! ## The manager -/

/-- The source of an operation, as far as pauses go by it. -/
inductive OperationSource where
  | scheduler
  | safety
  | farming
  | request
  deriving DecidableEq, Repr

section
variable (intl : Intl) (accountId : Schedule.AccountId)

def releaseAndRun (command : ResumeCommand) (cause : ResumeCause) : HoldAsync Unit := do
  getWorkerForAccount
  Async.modify HoldState.clearSafetyResume
  let replaced ← clearSafetyHold
  clearRecoveryHealth
  workerResumes ⟨command, cause, replaced.hold⟩

def startNow (cause : ResumeCause) : HoldAsync Unit := releaseAndRun .start cause

def resumeNow (cause : ResumeCause) : HoldAsync Unit := releaseAndRun .resume cause

def stopNow : HoldAsync Unit := do
  getWorkerForAccount
  Async.modify HoldState.clearSafetyResume
  workerStops

def pauseNow (source : OperationSource) (shouldPause : HoldAsync Bool) : HoldAsync Unit := do
  Async.when (← shouldPause) do
    getWorkerForAccount
    Async.when (← shouldPause) do
      Async.modify HoldState.clearSafetyResume
      Async.when (source ≠ .scheduler ∧ source ≠ .safety) do
        setSafetyHold .manual none .unscheduled
        Async.modify fun s => { s with coordinator := s.coordinator.clearAccount accountId }
      Async.when (← shouldPause) workerPauses

def pauseForSafety (source : OperationSource) (shouldPause : HoldAsync Bool) :
    HoldAsync Unit := do
  Async.when (← shouldPause) do
    getWorkerForAccount
    match ← Async.attempt (pauseNow accountId source shouldPause) with
    | some _ => pure ()
    | none =>
      Async.when (← shouldPause) do
        match ← Async.attempt forceDisconnectForSafety with
        | some _ => pure ()
        | none =>
          Async.when (← shouldPause) do
            setSafetyHold .safetyFailure none .unscheduled
            markSafetyAttention
            Async.throw

/-- A pause that nothing calls off. -/
def always : HoldAsync Bool := pure true

/-- The first of the open windows, by the ids of their schedules. -/
def firstWindow (windows : List OpenScheduleWindow) : Option OpenScheduleWindow :=
  (windows.insertionSort fun left right => left.scheduleId ≤ right.scheduleId).head?

def scheduledOwner (window : OpenScheduleWindow) : SafetyHoldOwner :=
  .scheduled window.scheduleId window.windowId

def getHoldOwner : HoldAsync SafetyHoldOwner := do
  let now := (← Async.get).now
  let s ← query
  match s.winner intl accountId now with
  | some (winner, windowId) => pure (.scheduled winner.id windowId)
  | none =>
    let openWindows := Schedule.openScheduleWindows (s.entries intl accountId now)
    let inMemoryOwner := openWindows.find? fun window =>
      s.coordinator.activeWindows.lookup accountId = some window.windowId
    pure (((inMemoryOwner.or (firstWindow openWindows)).map scheduledOwner).getD .unscheduled)

def pauseUntil (resumeAt : ℤ) : HoldAsync Unit := do
  let account ← query
  if account.desiredState ≠ some .running then Async.throw
  else do
    let owner ← getHoldOwner intl accountId
    setSafetyHold .pauseUntil (some resumeAt) owner
    pauseForSafety accountId .safety always
    let policy ← query
    Async.when (policy.hold.holdReason = some .pauseUntil)
      (Async.modify (HoldState.scheduleSafetyResume resumeAt))

def enforceCap (reason : SafetyHoldReason) : HoldAsync Unit := do
  let current ← query
  if current.desiredState ≠ some .running ∨ current.hold.holdReason ≠ none then pure ()
  else do
    setSafetyHold (.limit reason) none .unscheduled
    pauseForSafety accountId .safety always

/-! ## The end of a timed hold -/

def canResumeHeldAccount (owner : SafetyHoldOwner) (now : ℤ) : HoldAsync Bool :=
  match owner with
  | .unscheduled => pure true
  | .unknown => pure false
  | .scheduled scheduleId windowId => do
    let s ← query
    pure ((s.winner intl accountId now).any fun (winner, winning) =>
      decide (winner.id = scheduleId) && decide (winning = windowId))

def expire (now : ℤ) : HoldAsync Unit := do
  let found ← query
  if found.desiredState ≠ some .paused then do
    let _ ← clearSafetyHold
    pure ()
  else do
    let policy ← query
    if ← canResumeHeldAccount intl accountId policy.hold.owner policy.now then do
      let checked ← Async.get
      getWorkerForAccount
      let released ← clearSafetyHold
      let cause := ResumeCause.expiry ⟨now, found.toHeldAccount, policy.now,
        checked.toHeldAccount, released.toHeldAccount⟩
      if (← Async.get).connected then resumeNow cause else startNow cause
    else do
      let _ ← clearSafetyHold
      pure ()

def safetyResume : HoldAsync Unit := do
  let policy ← query
  if policy.hold.holdReason ≠ some .pauseUntil then pure ()
  else
    match policy.hold.pauseUntil.filter fun pauseUntil => policy.now < pauseUntil with
    | some pauseUntil => Async.modify (HoldState.scheduleSafetyResume pauseUntil)
    | none => expire intl accountId policy.now

/-! ## Schedules and farming -/

def resumeOrStartFromScheduleNow : HoldAsync Unit := do
  let account ← query
  if account.desiredState = some .paused then resumeNow .schedule else startNow .schedule

def outcomeOf {α : Type} : Option α → Outcome α
  | some a => .returns a
  | none => .rejects

def outcomeOfReply (ok : Bool) : Outcome Unit := if ok then .returns () else .rejects

def finishTransition (now : ℤ) (ports : Ports) : HoldAsync Unit :=
  Async.modify fun s => { s with coordinator := s.coordinator.runAccount intl accountId now ports }

/-- The start of a window: its preset, and the account unless a hold has been set since. -/
def startFromSchedule (now : ℤ) (fine : Ports) : HoldAsync Unit := do
  match ← Async.attempt query with
  | none => finishTransition intl accountId now { fine with applyPreset := .rejects }
  | some _ =>
    match ← Async.attempt getActiveAutomationHold with
    | none => finishTransition intl accountId now { fine with holdAfterPreset := .rejects }
    | some (some _) =>
      finishTransition intl accountId now { fine with holdAfterPreset := .returns true }
    | some none => do
      let resumed ← Async.attempt resumeOrStartFromScheduleNow
      let committed ← Async.await .update
      finishTransition intl accountId now
        { fine with
          resumeOrStart := outcomeOf resumed
          commitStartedWindow := outcomeOfReply committed }

def pauseFromSchedule (now : ℤ) (fine : Ports) : HoldAsync Unit := do
  match (← Async.attempt query).bind fun account => account.desiredState with
  | none => finishTransition intl accountId now { fine with desiredState := .rejects }
  | some desiredState => do
    let paused ← Async.attempt
      (Async.when (desiredState ≠ .stopped) (pauseNow accountId .scheduler always))
    let marked ← Async.await .update
    finishTransition intl accountId now
      { fine with
        desiredState := .returns desiredState
        pause := outcomeOf paused
        markWindowsStopped := outcomeOfReply marked }

/-- What the schedules call for at an instant, unless the account is held. -/
def runSchedules (now : ℤ) : HoldAsync Unit := do
  let s ← query
  let fine := { Schedule.Coordinator.finePorts with skipLookupFails := s.skipLookupFails }
  match ← Async.attempt getActiveAutomationHold with
  | none => finishTransition intl accountId now { fine with activeHold := .rejects }
  | some (some _) => finishTransition intl accountId now { fine with activeHold := .returns true }
  | some none =>
    match (s.coordinator.transitionAccount accountId (s.entries intl accountId now) now
        fine).attempt with
    | some (.start _ _) => startFromSchedule intl accountId now fine
    | some .pause => pauseFromSchedule intl accountId now fine
    | none => do
      let committed ← Async.await .update
      finishTransition intl accountId now
        { fine with commitStartedWindow := outcomeOfReply committed }

/-- `getFarmingAvailability` in what a resume for farming goes by. -/
def isResumable : HoldAsync Bool := do
  let account ← query
  let hold ← getActiveAutomationHold
  let s ← Async.get
  pure (!s.quiescing && (hold = none || hold = some (.safety .manual)) &&
    account.desiredState != some .running)

def resumeForFarmingNow : HoldAsync Unit := do
  Async.when (← isResumable) (releaseAndRun .resumeForFarming .farming)

def shouldEnd : HoldAsync Bool := Async.await .worker

/-! ## The account -/

def isEdit : Schedule.Action → Bool
  | .create .. | .update .. | .delete .. | .skip .. | .clearAccount .. => true
  | .restart | .beginTick .. | .runAccount .. | .endTick => false

def edit (a : Schedule.Action) : HoldAsync Unit := do
  let s ← query
  if isEdit a = true ∧ a.accountOf s.coordinator = some accountId then do
    let _ ← update fun s =>
      { s with coordinator := (s.coordinator.next intl a).getD s.coordinator }
    pure ()
  else Async.throw

/-- An event of the client may pause the account and ask for attention. -/
def clientEvent (pauses attention : Bool) : HoldAsync Unit := do
  Async.when attention do
    let _ ← update fun s => { s with recoveryHold := true }
    pure ()
  Async.when pauses (workerSets .paused)

def clearAccountState : HoldAsync Unit :=
  Async.modify fun s =>
    { s.clearSafetyResume with
      connected := false
      coordinator := s.coordinator.clearAccount accountId }

/-- The worker, if there is one, is stopped and then shut down; what has thrown is thrown. -/
def closeWorker : HoldAsync (Option Unit × Bool) := do
  let hasWorker ← Async.await .worker
  if hasWorker then do
    let stopped ← Async.attempt workerStops
    let safelyClosed ← Async.await .worker
    pure (stopped, safelyClosed)
  else pure (some (), true)

def forgetNow : HoldAsync Unit := do
  let (stopped, safelyClosed) ← closeWorker
  Async.when safelyClosed (clearAccountState accountId)
  if stopped.isSome ∧ safelyClosed = true then pure () else Async.throw

def deleteAccount : HoldAsync Unit := do
  forgetNow accountId
  let _ ← update fun s =>
    { s with
      desiredState := none
      hold := .cleared
      coordinator :=
        { s.coordinator with
          rows := s.coordinator.rows.retain fun _ row => row.accountId ≠ accountId } }
  pure ()

/-- What fails is paused if it interrupted farming. -/
def interruptingFarming (wasFarming : Bool) (operation : HoldAsync Unit) : HoldAsync Unit := do
  match ← Async.attempt operation with
  | some _ => pure ()
  | none => do
    Async.when wasFarming do
      let _ ← Async.attempt (pauseForSafety accountId .request always)
      pure ()
    Async.throw

def operation : HoldOperation → HoldAsync Unit
  | .safetyResume => safetyResume intl accountId
  | .pauseUntil resumeAt => pauseUntil intl accountId resumeAt
  | .start wasFarming => interruptingFarming accountId wasFarming (startNow .request)
  | .stop wasFarming => interruptingFarming accountId wasFarming stopNow
  | .pause wasFarming =>
    interruptingFarming accountId wasFarming (pauseNow accountId .request always)
  | .resume wasFarming => interruptingFarming accountId wasFarming (resumeNow .request)
  | .resumeForFarming => resumeForFarmingNow
  | .endFarming => pauseForSafety accountId .farming shouldEnd
  | .enforceCap reason => enforceCap accountId reason
  | .runSchedules now => runSchedules intl accountId now
  | .edit a => edit intl accountId a
  | .clientEvent pauses attention => clientEvent pauses attention
  | .forget => forgetNow accountId
  | .deleteAccount => deleteAccount accountId

/-- The callback of the timer runs also while the manager shuts down. -/
def body : HoldOperation → HoldAsync Unit
  | .safetyResume => safetyResume intl accountId
  | op => do
    if (← Async.get).quiescing then Async.throw else operation intl accountId op

end
end SteamManager

/-! ## The queue and what happens beside it -/

/-- What happens outside the queue of the account. The clock may show anything; a log-in writes
`running`, and so does a start of `init`; the shutdown of a worker that farms pauses the account. -/
inductive HoldEvent where
  | request (op : HoldOperation)
  | timer
  | clock (now : ℤ)
  | connection (connected : Bool)
  | lookups (skipLookupFails : ScheduleId → Bool)
  | logIn
  | elsewhere (a : Schedule.Action)
  | beginShutdown
  | shutdownPauses
  | shutdownEnds
  | restart
  | restore
  | autoStart

namespace HoldState

def reboot (s : HoldState) : HoldState :=
  { s with
    coordinator := s.coordinator.restart
    quiescing := false
    connected := false
    restored := false
    autoStarts := false }

/-- `init` restores a timed hold or starts an account that is not held. -/
def restore (s : HoldState) : HoldState :=
  match s.hold.holdReason, s.hold.pauseUntil with
  | some .pauseUntil, some pauseUntil =>
    { s.scheduleSafetyResume pauseUntil with restored := true }
  | holdReason, _ =>
    { s with
      restored := true
      autoStarts := decide (s.desiredState = some .running) && holdReason.isNone &&
        !s.recoveryHold }

def startOutside (s : HoldState) : HoldState :=
  { s.setDesiredState .running with starts := s.starts + 1, autoStarts := false }

open Transition (Occurrence)

def becomes (s : HoldState) : Option (Occurrence HoldState HoldOperation) := some ⟨s, [], false⟩

def occur (intl : Intl) (accountId : Schedule.AccountId) (s : HoldState) :
    HoldEvent → Option (Occurrence HoldState HoldOperation)
  | .request op =>
    match op with
    | .safetyResume => none
    | _ => if s.quiescing then none else some ⟨s, [op], false⟩
  | .timer =>
    match s.safetyResumeTimer with
    | some _ => some ⟨s.clearSafetyResume, [.safetyResume], false⟩
    | none => none
  | .clock now => becomes { s with now }
  | .connection connected => becomes { s with connected }
  | .lookups skipLookupFails => becomes { s with skipLookupFails }
  | .logIn => becomes { s.startOutside with autoStarts := s.autoStarts }
  | .elsewhere a =>
    if a.accountOf s.coordinator = some accountId then none
    else (s.coordinator.next intl a).bind fun coordinator => becomes { s with coordinator }
  | .beginShutdown => becomes { s.clearSafetyResume with quiescing := true }
  | .shutdownPauses => if s.quiescing then becomes (s.setDesiredState .paused) else none
  | .shutdownEnds => if s.quiescing then becomes s.reboot else none
  | .restart => some ⟨s.clearSafetyResume.reboot, [], true⟩
  | .restore => if s.restored then none else becomes s.restore
  | .autoStart => if s.autoStarts then becomes s.startOutside else none

/-- A process that has just started on a database: whoever holds the account until a time has set
the time, and the schedules are what the coordinator and the requests have left. -/
structure Starts (intl : Intl) (s : HoldState) : Prop where
  coordinator : (Schedule.scheduleMachine intl).Reachable s.coordinator
  timed : s.hold.holdReason = some .pauseUntil → s.hold.pauseUntil ≠ none
  timer : s.safetyResumeTimer = none
  restored : s.restored = false
  resumptions : s.resumptions = []

end HoldState

def holdService (intl : Intl) (accountId : Schedule.AccountId) :
    Transition.Service HoldState HoldAwait Bool HoldOperation HoldEvent where
  Starts := HoldState.Starts intl
  body := SteamManager.body intl accountId
  occur := HoldState.occur intl accountId

abbrev holdMachine (intl : Intl) (accountId : Schedule.AccountId) :=
  (holdService intl accountId).machine

end SteamBee.Steam
