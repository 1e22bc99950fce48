import SteamBee.Schedule.Coordinator
import SteamBee.Steam.BoostSessionTracker
import SteamBee.Steam.Selection
import SteamBee.Transition.Async

/-! The worker of a Steam account: its commands, the handlers of the events of its client and
the retries after a failure or a session conflict. Each of them stops at its awaits. Clock,
persona, library and community session are left out. -/
namespace SteamBee.Steam
open Schedule (DesiredState)

/-! ## The retry policy -/

inductive SteamErrorClass where
  | sessionReplaced
  | authentication
  | rateLimited
  | unknown
  | transient
  deriving DecidableEq, Repr

inductive RecoveryAction where
  | retry
  | reauthenticate
  | wait
  deriving DecidableEq, Repr

structure RetryDecision where
  terminal : Bool
  errorClass : SteamErrorClass
  errorCode : Option ℤ
  recoveryAction : RecoveryAction
  minimumDelayMs : ℕ
  deriving DecidableEq, Repr

/-- A failure: an integer, an object with the integers among its three properties, or another
value. -/
inductive SteamFailure where
  | number (n : ℤ)
  | object (eresult result code : Option ℤ)
  | other
  deriving DecidableEq, Repr

def authenticationResults : List ℤ := [5, 17, 18, 26, 27, 43, 51, 63, 65, 66, 71, 73, 74, 77, 80, 83]

def rateLimitedResults : List ℤ := [25, 84]

def sessionConflictResults : List ℤ := [6, 34, 50]

def sessionConflictRetryDelayMs : ℕ := 5 * 60000

def sessionConflictCooldownMs : ℕ := 60 * 60000

def sessionConflictDelay (attempt : ℕ) : ℕ :=
  if attempt ≥ 3 then sessionConflictCooldownMs else sessionConflictRetryDelayMs

def extractEResult : SteamFailure → Option ℤ
  | .number n => some n
  | .object eresult result code => eresult.or (result.or code)
  | .other => none

def classifySteamFailure (value : SteamFailure) : RetryDecision :=
  let errorCode := extractEResult value
  if errorCode.any sessionConflictResults.contains then
    ⟨false, .sessionReplaced, errorCode, .retry, sessionConflictRetryDelayMs⟩
  else if errorCode.any authenticationResults.contains then
    ⟨true, .authentication, errorCode, .reauthenticate, 0⟩
  else if errorCode.any rateLimitedResults.contains then
    ⟨false, .rateLimited, errorCode, .wait, 15 * 60000⟩
  else
    ⟨false, if errorCode.isNone then .unknown else .transient, errorCode, .retry, 0⟩

/-! ## The state -/

abbrev TimerId := ℕ

inductive ConflictMode where
  | login
  | live
  deriving DecidableEq, Repr

inductive Retry where
  | reconnect (intentGeneration : ℕ) (decision : RetryDecision)
  | sessionConflict (intentGeneration : ℕ) (resetCycle : Bool)
  deriving DecidableEq, Repr

/-- A pending timer; `halts` counts what had ended the retries before it was armed. -/
structure RetryTimer where
  retry : Retry
  delayMs : ℕ
  halts : ℕ
  deriving DecidableEq, Repr

inductive PlayedEntry where
  | app (appId : AppId)
  | title (text : String)
  deriving DecidableEq, Repr

inductive ClientPhase where
  | idle
  | connecting
  | loggedOn
  deriving DecidableEq, Repr

/-- The Steam client, and what it was last told to play since it logged on. -/
structure SteamClient where
  phase : ClientPhase
  played : Option (List PlayedEntry)
  deriving DecidableEq, Repr

structure WorkerActivity where
  activityMode : ActivityMode
  activeAppIds : List AppId
  deriving DecidableEq, Repr

/-- `customTitle` and `lastError` are those of the account row that the worker holds. -/
structure SteamWorker where
  desiredState : DesiredState
  customTitle : Option String
  lastError : Option String
  status : AccountStatus
  lastActivity : Option WorkerActivity
  farmingAppIds : Option (List AppId)
  awaitingFarming : Bool
  farmingInterruptedByShutdown : Bool
  reportedAppIds : List AppId
  reportedActivityMode : ActivityMode
  connected : Bool
  manuallyPaused : Bool
  blockedByOtherSession : Bool
  reconnectTimer : Option TimerId
  sessionConflictTimer : Option TimerId
  reconnectAttempt : ℕ
  sessionConflictAttempt : ℕ
  sessionConflictMode : Option ConflictMode
  loginAttemptId : ℕ
  handledConflictLoginAttemptId : Option ℕ
  startInFlight : Bool
  quiescing : Bool
  intentGeneration : ℕ

structure WorkerRow where
  desiredState : DesiredState
  customTitle : Option String
  lastError : Option String
  deriving DecidableEq, Repr

/-- The stored credential: it can be decrypted, it is missing, or reading it throws. -/
inductive StoredToken where
  | present
  | missing
  | unreadable
  deriving DecidableEq, Repr

/-- What the worker reads elsewhere: the rows of its games and its token, the predicate that a
command was given, whether farming resumes, and the jitter. -/
structure Surroundings where
  games : List SelectedGame
  token : StoredToken
  shouldGoOn : Bool
  farmingResumes : Bool
  jitter : ℕ

/-- Who calls the client: a command, an event, or a timer with the `halts` of its arming. -/
inductive Caller where
  | command
  | event
  | retry (halts : ℕ)
  deriving DecidableEq, Repr

/-- A session conflict as it was registered; `restarted` if the cooldown of an earlier one had
been retried since the conflict before it. -/
structure SessionConflict where
  source : ConflictMode
  loginAttemptId : ℕ
  restarted : Bool
  delayMs : ℕ
  deriving DecidableEq, Repr

structure GamesReport where
  caller : Caller
  halts : ℕ
  desiredState : DesiredState
  payload : List PlayedEntry
  deriving DecidableEq, Repr

structure LogOnCall where
  caller : Caller
  halts : ℕ
  phase : ClientPhase
  deriving DecidableEq, Repr

/-- A record of the run, which the worker does not read. `halts` counts the pauses and stops and
the changes of intent, `conflicts` are those since the conflict state was reset. -/
structure WorkerTrace where
  caller : Caller
  halts : ℕ
  logOns : List LogOnCall
  reports : List GamesReport
  conflicts : List SessionConflict
  restarted : Bool

structure WorkerState where
  worker : SteamWorker
  client : SteamClient
  timers : Table TimerId RetryTimer
  drawn : ℕ
  around : Surroundings
  trace : WorkerTrace

inductive WorkerAwait where
  | desiredState
  | status
  | recoveryHealth
  | safetyHold
  | steamContact
  | steamId
  | conflictRecord
  | selection
  | logOff
  | tick
  deriving DecidableEq, Repr

abbrev WorkerAsync (α : Type) : Type := Transition.Async WorkerState WorkerAwait Bool α

namespace WorkerState

def enabledAppIds (s : WorkerState) : List AppId :=
  (s.around.games.filter fun game => game.enabled).map fun game => game.appId

def getActivity (s : WorkerState) : WorkerActivity :=
  if !s.worker.connected || s.worker.quiescing || s.worker.manuallyPaused ||
      s.worker.blockedByOtherSession then ⟨.idle, []⟩
  else
    ⟨if s.worker.farmingAppIds.isSome then .farming else s.worker.reportedActivityMode,
      if s.worker.farmingAppIds.isSome && s.worker.reportedActivityMode != .farming then []
      else s.worker.reportedAppIds⟩

def reportGames (s : WorkerState) (payload : List PlayedEntry) : WorkerState :=
  { s with
    client.played := some payload
    trace.reports := ⟨s.trace.caller, s.trace.halts, s.worker.desiredState, payload⟩ ::
      s.trace.reports
    worker.reportedAppIds := payload.filterMap fun entry =>
      match entry with
      | .app appId => some appId
      | .title _ => none
    worker.reportedActivityMode :=
      if s.worker.farmingAppIds.isSome then .farming
      else if payload.isEmpty then .idle else .manual }

def clearFarmingSelection (s : WorkerState) (keepAwaitingFarming : Bool) : WorkerState :=
  { s with
    worker.farmingAppIds := none
    worker.awaitingFarming := s.worker.awaitingFarming && keepAwaitingFarming }

def clearTimeout (s : WorkerState) (timer : Option TimerId) : WorkerState :=
  match timer with
  | none => s
  | some id => { s with timers := s.timers.erase id }

def clearReconnect (s : WorkerState) : WorkerState :=
  { s.clearTimeout s.worker.reconnectTimer with worker.reconnectTimer := none }

def clearSessionConflictTimer (s : WorkerState) : WorkerState :=
  { s.clearTimeout s.worker.sessionConflictTimer with worker.sessionConflictTimer := none }

def clearRetryTimers (s : WorkerState) : WorkerState := s.clearReconnect.clearSessionConflictTimer

def resetSessionConflict (s : WorkerState) : WorkerState :=
  { s with
    worker.sessionConflictAttempt := 0
    worker.sessionConflictMode := none
    worker.handledConflictLoginAttemptId := none
    worker.blockedByOtherSession := false
    trace.conflicts := []
    trace.restarted := false }

def setTimeout (s : WorkerState) (retry : Retry) (delayMs : ℕ) : WorkerState :=
  { s with timers := s.timers.insert s.drawn ⟨retry, delayMs, s.trace.halts⟩, drawn := s.drawn + 1 }

/-- The intent changes, and what was armed or emitted under the last one is superseded. -/
def supersede (s : WorkerState) : WorkerState :=
  { s with
    worker.intentGeneration := s.worker.intentGeneration + 1
    trace.halts := s.trace.halts + 1 }

def logOff (s : WorkerState) : WorkerState := { s with client.phase := .idle }

/-- `decision` does not stop an interrupted farm from resuming. -/
def keepsRunningForFarming (s : WorkerState) (decision : RetryDecision) : Bool :=
  !decision.terminal && decision.errorClass != .sessionReplaced &&
    s.worker.handledConflictLoginAttemptId != some s.worker.loginAttemptId &&
    s.around.farmingResumes

def withDesiredState (s : WorkerState) (desiredState : DesiredState) : WorkerState :=
  let s := if s.worker.desiredState ≠ desiredState then s.supersede else s
  { s with worker.desiredState := desiredState }

def withStatus (s : WorkerState) (status : AccountStatus) (error : Option String) : WorkerState :=
  { s with
    worker.status := status
    worker.lastActivity := some s.getActivity
    worker.lastError := error }

def withManuallyPaused (s : WorkerState) (manuallyPaused : Bool) : WorkerState :=
  { s with worker.manuallyPaused := manuallyPaused }

def withConnected (s : WorkerState) (connected : Bool) : WorkerState :=
  { s with worker.connected := connected }

def withBlocked (s : WorkerState) (blocked : Bool) : WorkerState :=
  { s with worker.blockedByOtherSession := blocked }

def withAwaitingFarming (s : WorkerState) (awaitingFarming : Bool) : WorkerState :=
  { s with worker.awaitingFarming := awaitingFarming }

def withFarmingSelection (s : WorkerState) (appIds : List AppId) (awaitingFarming : Bool) :
    WorkerState :=
  { s with worker.farmingAppIds := some appIds, worker.awaitingFarming := awaitingFarming }

def withRow (s : WorkerState) (account : WorkerRow) : WorkerState :=
  { s with
    worker.desiredState := account.desiredState
    worker.customTitle := account.customTitle
    worker.lastError := account.lastError }

/-- `scheduleReconnect` up to its await. -/
def beginReconnect (s : WorkerState) : WorkerState :=
  let s := s.clearReconnect.clearSessionConflictTimer.resetSessionConflict
  { s with worker.reconnectAttempt := s.worker.reconnectAttempt + 1 }

def armReconnect (s : WorkerState) (intentGeneration : ℕ) (decision : RetryDecision)
    (delayMs : ℕ) : WorkerState :=
  { s.setTimeout (.reconnect intentGeneration decision) delayMs with
    worker.reconnectTimer := some s.drawn }

def armSessionConflict (s : WorkerState) (delayMs : ℕ) (resetCycle : Bool) : WorkerState :=
  { s.setTimeout (.sessionConflict s.worker.intentGeneration resetCycle) delayMs with
    worker.sessionConflictTimer := some s.drawn }

/-- `registerSessionConflict` up to its first await. -/
def beginSessionConflict (s : WorkerState) (source : ConflictMode) : WorkerState :=
  let s := s.clearReconnect.clearSessionConflictTimer
  let attempt := s.worker.sessionConflictAttempt + 1
  { s with
    worker.sessionConflictMode := some source
    worker.sessionConflictAttempt := attempt
    trace.conflicts := ⟨source, s.worker.loginAttemptId, s.trace.restarted,
      sessionConflictDelay attempt⟩ :: s.trace.conflicts
    trace.restarted := false }

def handleConflict (s : WorkerState) : WorkerState :=
  { s with
    worker.handledConflictLoginAttemptId := some s.worker.loginAttemptId
    worker.connected := false
    worker.blockedByOtherSession := false }

def restartCycle (s : WorkerState) : WorkerState :=
  { s with worker.sessionConflictAttempt := 0, trace.restarted := true }

def beginLogin (s : WorkerState) : WorkerState :=
  { s with
    worker.loginAttemptId := s.worker.loginAttemptId + 1
    worker.handledConflictLoginAttemptId := none }

def withStartInFlight (s : WorkerState) (startInFlight : Bool) : WorkerState :=
  { s with worker.startInFlight := startInFlight }

def callLogOn (s : WorkerState) : WorkerState :=
  { s with trace.logOns := ⟨s.trace.caller, s.trace.halts, s.client.phase⟩ :: s.trace.logOns }

def beginShutdown (s : WorkerState) : WorkerState :=
  if s.worker.quiescing then s
  else
    let s := { s with
      worker.quiescing := true
      worker.farmingInterruptedByShutdown :=
        s.worker.farmingAppIds.isSome && !s.around.farmingResumes }
    ((s.clearFarmingSelection false).clearRetryTimers).resetSessionConflict

end WorkerState

open Transition (Async)
open WorkerState

/-! ## The steps of the handlers -/

/-- `await` of something whose rejection is thrown. -/
def awaitOk (point : WorkerAwait) : WorkerAsync Unit := do
  if ← Async.await point then pure () else Async.throw

def tick : WorkerAsync Unit := do
  let _ ← Async.await WorkerAwait.tick

def clearRecoveryHealth : WorkerAsync Unit := awaitOk .recoveryHealth

def setRecoveryHealth : WorkerAsync Unit := awaitOk .recoveryHealth

def clearSafetyHold : WorkerAsync Unit := awaitOk .safetyHold

def touchSteamContact : WorkerAsync Unit := awaitOk .steamContact

def persistSteamId : WorkerAsync Unit := awaitOk .steamId

def setDesiredState (desiredState : DesiredState) : WorkerAsync Unit := do
  Async.modify fun s => s.withDesiredState desiredState
  awaitOk .desiredState

/-- The same status is not written again. -/
def setStatus (status : AccountStatus) (error : Option String) : WorkerAsync Unit := do
  let s ← Async.get
  if s.worker.status = status ∧ s.worker.lastError = error ∧
      s.worker.lastActivity = some s.getActivity then tick
  else
    Async.modify fun s => s.withStatus status error
    awaitOk .status

def enforceLimit (appIds : List AppId) (customTitle : Option String) : WorkerAsync Unit :=
  match enforceGameLimit appIds customTitle with
  | .ok () => pure ()
  | .error _ => Async.throw

def payloadOf (appIds : List AppId) (customTitle : Option String) : List PlayedEntry :=
  let payload := appIds.map PlayedEntry.app
  match customTitle with
  | none => payload
  | some title => if trim title = "" then payload else .title (trim title) :: payload

def selectedGamesPayload : WorkerAsync (List PlayedEntry) := do
  let s ← Async.get
  match s.worker.farmingAppIds with
  | some appIds =>
    enforceLimit appIds s.worker.customTitle
    tick
    pure (appIds.map PlayedEntry.app)
  | none =>
    if s.worker.awaitingFarming then
      tick
      pure []
    else
      awaitOk .selection
      let s ← Async.get
      enforceLimit s.enabledAppIds s.worker.customTitle
      pure (payloadOf s.enabledAppIds s.worker.customTitle)

/-- `guarded` if the caller has a predicate. -/
def applyGames (guarded : Bool) : WorkerAsync Unit := do
  let s ← Async.get
  if s.worker.quiescing ∨ s.worker.connected = false then return
  if s.worker.manuallyPaused then
    Async.modify fun s => s.reportGames []
    setStatus .pausedManual none
    return
  if s.worker.blockedByOtherSession then
    Async.modify fun s => s.reportGames []
    setStatus .pausedOtherSession none
    return
  let payload ← selectedGamesPayload
  let s ← Async.get
  if s.worker.quiescing ∨ guarded = true ∧ s.around.shouldGoOn = false then return
  Async.modify fun s => s.reportGames payload
  setStatus (if payload.isEmpty then .online else .boosting) none

/-! ## Retries -/

def reconnectDelay (attempt : ℕ) (decision : RetryDecision) : ℕ :=
  max (min (15 * 60000) (10000 * 2 ^ min attempt 6)) decision.minimumDelayMs

def scheduleReconnect (decision : RetryDecision) : WorkerAsync Unit := do
  Async.modify fun s => s.beginReconnect
  let scheduled ← Async.get
  let delay := reconnectDelay scheduled.worker.reconnectAttempt decision + scheduled.around.jitter
  setRecoveryHealth
  Async.modify fun s => s.armReconnect scheduled.worker.intentGeneration decision delay

def scheduleSessionConflictRetry (delay : ℕ) (resetCycle : Bool) : WorkerAsync Unit :=
  Async.modify fun s => s.armSessionConflict delay resetCycle

def registerSessionConflict (source : ConflictMode) : WorkerAsync Unit := do
  Async.modify fun s => s.beginSessionConflict source
  let attempt := (← Async.get).worker.sessionConflictAttempt
  let cooldown := decide (attempt ≥ 3)
  setRecoveryHealth
  awaitOk .conflictRecord
  scheduleSessionConflictRetry (sessionConflictDelay attempt) cooldown

def handleTerminalFailure (decision : RetryDecision) (message : String) : WorkerAsync Unit := do
  Async.modify fun s =>
    (s.clearRetryTimers.resetSessionConflict.withConnected false).withBlocked false
  setRecoveryHealth
  setDesiredState .paused
  setStatus (if decision.errorClass = .authentication then .loginRequired else .error)
    (some message)

def handleLoginSessionConflict : WorkerAsync Unit := do
  let s ← Async.get
  if s.worker.handledConflictLoginAttemptId = some s.worker.loginAttemptId then return
  Async.modify fun s => s.handleConflict
  setStatus .reconnecting none
  registerSessionConflict .login

def retryLiveSessionConflict : WorkerAsync Unit := do
  let s ← Async.get
  if s.worker.blockedByOtherSession = false then
    Async.modify fun s => s.resetSessionConflict
    clearRecoveryHealth
    applyGames false
    return
  let payload ← selectedGamesPayload
  if (← Async.get).worker.quiescing then return
  Async.modify fun s => s.reportGames payload
  registerSessionConflict .live

/-! ## Commands -/

/-- A client that is not idle returns as well. In a later tick it drops its session and emits an
error, which is an event like any other. -/
def logOn : WorkerAsync Unit := do
  let s ← Async.get
  Async.modify fun s => s.callLogOn
  if s.client.phase = .idle then
    Async.modify fun s => { s with client.phase := .connecting }

/-- A start is redundant while a log-in is under way or the account is online. -/
def SteamWorker.isRedundantStart (w : SteamWorker) : Bool :=
  w.startInFlight || w.status == .connecting ||
    w.connected && (w.status == .online || w.status == .boosting)

def startNow : WorkerAsync Unit := do
  let s ← Async.get
  if s.worker.quiescing then return
  if s.worker.isRedundantStart then return
  match s.around.token with
  | .unreadable => Async.throw
  | .missing => setStatus .loginRequired (some "Refresh token is missing or incomplete.")
  | .present =>
    Async.modify fun s => (s.withManuallyPaused false).withStartInFlight true
    setDesiredState .running
    setStatus .connecting none
    let result ← Async.attempt do
      if (← Async.get).worker.quiescing then return
      Async.modify fun s => s.beginLogin
      logOn
    Async.modify fun s => s.withStartInFlight false
    if result.isNone then Async.throw

def stopNow : WorkerAsync Unit := do
  Async.modify fun s => (s.clearFarmingSelection false).clearRetryTimers.resetSessionConflict
  clearRecoveryHealth
  clearSafetyHold
  setDesiredState .stopped
  Async.modify fun s => (s.reportGames []).logOff.withConnected false
  setStatus .disconnected none

def shutdownNow : WorkerAsync Unit := do
  let s ← Async.get
  let paused ←
    if s.worker.farmingInterruptedByShutdown then Async.attempt (setDesiredState .paused)
    else pure (some ())
  Async.modify fun s => (s.clearRetryTimers.resetSessionConflict.reportGames []).logOff
  awaitOk .logOff
  tick
  Async.modify fun s => s.withConnected false
  setStatus .disconnected none
  if paused.isNone then Async.throw

def pauseNow : WorkerAsync Unit := do
  let s ← Async.get
  if s.around.shouldGoOn = false then return
  Async.modify fun s => (s.clearFarmingSelection false).clearRetryTimers.resetSessionConflict
  clearRecoveryHealth
  if (← Async.get).around.shouldGoOn = false then return
  Async.modify fun s => s.withManuallyPaused true
  setDesiredState .paused
  if (← Async.get).around.shouldGoOn = false then return
  Async.modify fun s => s.reportGames []
  setStatus .pausedManual none

def forceDisconnectForSafety (message : String) : WorkerAsync Unit := do
  let s ← Async.get
  if s.around.shouldGoOn = false then return
  Async.modify fun s =>
    (s.clearFarmingSelection false).clearRetryTimers.resetSessionConflict.withManuallyPaused true
  let cleared ← Async.attempt clearRecoveryHealth
  let desired ← Async.attempt (setDesiredState .paused)
  if (← Async.get).around.shouldGoOn = false then return
  Async.modify fun s => (s.reportGames []).logOff.withConnected false
  let written ← Async.attempt (setStatus .pausedManual (some message))
  if cleared.isNone ∨ desired.isNone ∨ written.isNone then Async.throw

def markSafetyAttention (message : String) : WorkerAsync Unit := do
  Async.modify fun s =>
    (s.clearRetryTimers.resetSessionConflict.withConnected false).withManuallyPaused true
  setDesiredState .paused
  setRecoveryHealth
  setStatus .error (some message)

def resumeNow : WorkerAsync Unit := do
  Async.modify fun s => (s.withManuallyPaused false).withAwaitingFarming false
  setDesiredState .running
  if (← Async.get).worker.connected = false then startNow
  else applyGames false

def resumeForFarming : WorkerAsync Unit := do
  Async.modify fun s => (s.withManuallyPaused false).withFarmingSelection [] true
  setDesiredState .running
  if (← Async.get).worker.connected = false then startNow
  else applyGames false

def updateAccountNow (account : WorkerRow) : WorkerAsync Unit := do
  let s ← Async.get
  if account.desiredState ≠ s.worker.desiredState then
    Async.modify fun s => s.supersede
    if account.desiredState ≠ .running then
      Async.modify fun s => s.clearRetryTimers.resetSessionConflict
      clearRecoveryHealth
  Async.modify fun s => s.withRow account
  if (← Async.get).worker.quiescing then return
  applyGames false

def applyFarmingSelection (appIds : List AppId) : WorkerAsync Unit := do
  let s ← Async.get
  if s.around.shouldGoOn = false ∨ s.worker.connected = false ∨ s.worker.quiescing ∨
      s.worker.manuallyPaused ∨ s.worker.blockedByOtherSession then Async.throw
  enforceLimit appIds s.worker.customTitle
  Async.modify fun s => s.withFarmingSelection appIds false
  applyGames true

/-! ## Events of the client -/

inductive ClientEvent where
  | loggedOn
  | playingState (blocked : Bool)
  | disconnected (eresult : Option ℤ) (message : Option String)
  | error (error : SteamFailure) (message : String)
  deriving DecidableEq, Repr

def onLoggedOn : WorkerAsync Unit := do
  Async.modify fun s =>
    let s := (s.withConnected true).clearReconnect
    { s with worker.reconnectAttempt := 0 }.clearSessionConflictTimer.resetSessionConflict
  touchSteamContact
  clearRecoveryHealth
  persistSteamId
  if (← Async.get).worker.quiescing then return
  setStatus .online none
  applyGames false

def onPlayingState (blocked : Bool) : WorkerAsync Unit := do
  touchSteamContact
  let wasBlocked := (← Async.get).worker.blockedByOtherSession
  Async.modify fun s => s.withBlocked blocked
  if blocked then
    let wasFarming := (← Async.get).worker.farmingAppIds.isSome
    Async.modify fun s => s.clearFarmingSelection false
    if wasFarming then
      Async.modify fun s => s.withManuallyPaused true
      setDesiredState .paused
    Async.modify fun s => s.reportGames []
    setStatus .pausedOtherSession none
    if wasBlocked = false ∧ (← Async.get).worker.desiredState = .running then
      registerSessionConflict .live
    return
  if wasBlocked = false then return
  let s ← Async.get
  if s.worker.manuallyPaused = false ∧ s.worker.desiredState = .running then
    Async.modify fun s => s.clearSessionConflictTimer.resetSessionConflict
    clearRecoveryHealth
    applyGames false

/-- What a lost connection does first; an interrupted farm resumes or pauses the account. -/
def loseConnection (decision : RetryDecision) : WorkerAsync Unit := do
  let s ← Async.get
  let wasFarming := s.worker.farmingAppIds.isSome
  let resumeFarming := wasFarming && s.keepsRunningForFarming decision
  Async.modify fun s => s.clearFarmingSelection false
  if resumeFarming then
    Async.modify fun s => s.withAwaitingFarming true
  else if wasFarming then
    Async.modify fun s => s.withManuallyPaused true
    setDesiredState .paused

def onDisconnected (eresult : Option ℤ) (message : Option String) : WorkerAsync Unit := do
  let decision := classifySteamFailure (eresult.elim .other .number)
  loseConnection decision
  Async.modify fun s => s.withConnected false
  if eresult.isSome then touchSteamContact
  let s ← Async.get
  if s.worker.handledConflictLoginAttemptId = some s.worker.loginAttemptId then return
  if decision.errorClass = .sessionReplaced then
    handleLoginSessionConflict
    return
  if decision.terminal then
    handleTerminalFailure decision (message.getD "Steam disconnected permanently.")
    return
  if (← Async.get).worker.desiredState = .running then
    setStatus .reconnecting none
    scheduleReconnect decision
  else setStatus .disconnected none

def onError (error : SteamFailure) (message : String) : WorkerAsync Unit := do
  let decision := classifySteamFailure error
  -- `connected` ends before the first await, unlike in the handler of a disconnect
  Async.modify fun s => s.withConnected false
  loseConnection decision
  let s ← Async.get
  if s.worker.handledConflictLoginAttemptId = some s.worker.loginAttemptId then return
  if decision.errorClass = .sessionReplaced then
    handleLoginSessionConflict
    return
  if decision.terminal then
    handleTerminalFailure decision message
    return
  setStatus .error (some message)
  if (← Async.get).worker.desiredState = .running then scheduleReconnect decision

def ClientEvent.handler : ClientEvent → WorkerAsync Unit
  | .loggedOn => onLoggedOn
  | .playingState blocked => onPlayingState blocked
  | .disconnected eresult message => onDisconnected eresult message
  | .error failure message => onError failure message

/-- The handler of an event that was emitted under `eventIntentGeneration`. -/
def onClientEvent (event : ClientEvent) (eventIntentGeneration : ℕ) : WorkerAsync Unit := do
  let s ← Async.get
  if s.worker.quiescing then return
  if eventIntentGeneration ≠ s.worker.intentGeneration then return
  if event = .loggedOn ∧ s.worker.desiredState ≠ .running then return
  event.handler

/-- The serialised part of the conflict timer's callback. -/
def retrySessionConflict (scheduledIntentGeneration : ℕ) (resetCycle : Bool) :
    WorkerAsync Unit := do
  let s ← Async.get
  if s.worker.quiescing ∨ s.worker.desiredState ≠ .running ∨
      s.worker.intentGeneration ≠ scheduledIntentGeneration then return
  if resetCycle then
    Async.modify fun s => s.restartCycle
  if (← Async.get).worker.sessionConflictMode = some .live then retryLiveSessionConflict
  else startNow

end SteamBee.Steam
