import SteamBee.Steam.Worker
import SteamBee.Transition.Machine

/-! A worker under its manager: the events of the client, the callbacks of the timers and the
operations of the manager take turns in the queue of the account, and what they run on the worker
takes turns in the worker's own queue. -/
namespace SteamBee.Steam
open Schedule (DesiredState)
open Transition (Pause)

inductive WorkerCommand where
  | start
  | stop
  | pause
  | forceDisconnect (message : String)
  | markSafetyAttention (message : String)
  | resume
  | resumeForFarming
  | updateAccount (account : WorkerRow)
  | applyFarmingSelection (appIds : List AppId)
  deriving DecidableEq, Repr

namespace WorkerCommand

def body : WorkerCommand → WorkerAsync Unit
  | .start => startNow
  | .stop => stopNow
  | .pause => pauseNow
  | .forceDisconnect message => forceDisconnectForSafety message
  | .markSafetyAttention message => Steam.markSafetyAttention message
  | .resume => resumeNow
  | .resumeForFarming => Steam.resumeForFarming
  | .updateAccount account => updateAccountNow account
  | .applyFarmingSelection appIds => Steam.applyFarmingSelection appIds

def halts : WorkerCommand → Bool
  | .stop | .pause | .forceDisconnect _ | .markSafetyAttention _ => true
  | _ => false

end WorkerCommand

inductive WorkerTask where
  | command (command : WorkerCommand)
  | shutdown
  | event (event : ClientEvent) (eventIntentGeneration : ℕ)
  | retrySessionConflict (scheduledIntentGeneration : ℕ) (resetCycle : Bool)
  deriving DecidableEq, Repr

def WorkerTask.body : WorkerTask → WorkerAsync Unit
  | .command c => c.body
  | .shutdown => shutdownNow
  | .event emitted eventIntentGeneration => onClientEvent emitted eventIntentGeneration
  | .retrySessionConflict scheduledIntentGeneration resetCycle =>
    Steam.retrySessionConflict scheduledIntentGeneration resetCycle

/-- A call of `runSerial`; `owned` if the account operation whose turn it is waits for it. -/
structure SerialCall where
  task : WorkerTask
  caller : Caller
  owned : Bool
  deriving DecidableEq, Repr

structure RunningCall extends SerialCall where
  began : WorkerState
  pause : Pause WorkerState WorkerAwait Bool Unit

structure FinishedCall extends SerialCall where
  began : WorkerState
  ended : WorkerState
  returned : Bool

inductive AccountJob where
  | event (event : ClientEvent) (eventIntentGeneration : ℕ)
  | reconnect (scheduledIntentGeneration : ℕ) (decision : RetryDecision) (halts : ℕ)
  | sessionConflict (scheduledIntentGeneration : ℕ) (resetCycle : Bool) (halts : ℕ)
  | operation
  deriving DecidableEq, Repr

/-- Where the account operation stands whose turn it is: an operation of the manager between its
commands or at one, an event or a conflict retry at its handler, a reconnect at its start or,
when that has failed, at scheduling the next one. -/
inductive AccountTurn where
  | operating
  | commanding
  | serving
  | starting (scheduledIntentGeneration : ℕ) (decision : RetryDecision) (halts : ℕ)
  | rescheduling (pause : Pause WorkerState WorkerAwait Bool Unit)

/-- The client emits an event; a log-in follows a call of `logOn`. -/
def SteamClient.emits (client : SteamClient) : ClientEvent → Option SteamClient
  | .loggedOn => if client.phase = .connecting then some ⟨.loggedOn, none⟩ else none
  | .playingState _ => if client.phase = .loggedOn then some client else none
  | .disconnected _ _ | .error _ _ => some { client with phase := .idle }

structure WorkerSystem where
  state : WorkerState
  running : Option RunningCall
  eventQueue : List SerialCall
  turn : Option AccountTurn
  jobs : List AccountJob
  finished : List FinishedCall

namespace WorkerSystem

def worker (m : WorkerSystem) : SteamWorker := m.state.worker

/-- The rest of the reconnect callback after its start has failed. -/
def reschedule (m : WorkerSystem) (p : WorkerState × Pause WorkerState WorkerAwait Bool Unit) :
    WorkerSystem :=
  { m with
    state := p.1
    turn :=
      match p.2 with
      | .awaiting point after rest => some (.rescheduling (.awaiting point after rest))
      | _ => none }

def settle (m : WorkerSystem) (returned : Bool) : WorkerSystem :=
  match m.turn with
  | some .commanding => { m with turn := some .operating }
  | some .serving => { m with turn := none }
  | some (.starting scheduledIntentGeneration decision _) =>
    if returned = false ∧ m.worker.desiredState = .running ∧
        m.worker.intentGeneration = scheduledIntentGeneration then
      m.reschedule (scheduleReconnect decision m.state)
    else { m with turn := none }
  | _ => m

/-- While the worker shuts down nothing else is run. -/
def isRefused (m : WorkerSystem) (task : WorkerTask) : Bool :=
  m.worker.quiescing && task != .shutdown

def runSerial (m : WorkerSystem) (call : SerialCall) : WorkerSystem :=
  if m.isRefused call.task then if call.owned then m.settle false else m
  else { m with eventQueue := m.eventQueue ++ [call] }

/-- A pause or a stop that has been carried out counts. -/
def halted (call : SerialCall) (returned : Bool) (s : WorkerState) : WorkerState :=
  match call.task with
  | .command command =>
    if command.halts ∧ returned = true ∧ s.worker.desiredState ≠ .running then
      { s with trace.halts := s.trace.halts + 1 }
    else s
  | _ => s

def finish (m : WorkerSystem) (call : SerialCall) (began : WorkerState) (returned : Bool) :
    WorkerSystem :=
  let m := { m with
    state := halted call returned m.state
    running := none
    finished := ⟨call, began, m.state, returned⟩ :: m.finished }
  if call.owned then m.settle returned else m

def advance (m : WorkerSystem) (call : SerialCall) (began : WorkerState)
    (p : WorkerState × Pause WorkerState WorkerAwait Bool Unit) : WorkerSystem :=
  match p.2 with
  | .returned _ => { m with state := p.1 }.finish call began true
  | .thrown => { m with state := p.1 }.finish call began false
  | .awaiting point after rest =>
    { m with state := p.1, running := some ⟨call, began, .awaiting point after rest⟩ }

def begin (m : WorkerSystem) : Option WorkerSystem :=
  match m.running, m.eventQueue with
  | none, call :: rest =>
    let m := { m with eventQueue := rest }
    if m.isRefused call.task then some (if call.owned then m.settle false else m)
    else
      let began := { m.state with trace.caller := call.caller }
      some (m.advance call began (call.task.body began))
  | _, _ => none

def resume (m : WorkerSystem) (ok : Bool) : Option WorkerSystem := do
  let call ← m.running
  match call.pause with
  | .awaiting _ after rest =>
    some (m.advance call.toSerialCall call.began (after ok m.state, rest ok m.state))
  | _ => none

def resumeRescheduling (m : WorkerSystem) (ok : Bool) : Option WorkerSystem :=
  match m.turn with
  | some (.rescheduling (.awaiting _ after rest)) =>
    some (m.reschedule (after ok m.state, rest ok m.state))
  | _ => none

def takeTurn (m : WorkerSystem) : Option WorkerSystem :=
  match m.turn, m.jobs with
  | none, job :: rest =>
    let m := { m with jobs := rest }
    match job with
    | .event event eventIntentGeneration =>
      some ({ m with turn := some .serving }.runSerial
        ⟨.event event eventIntentGeneration, .event, true⟩)
    | .reconnect scheduledIntentGeneration decision halts =>
      if m.worker.quiescing ∨ m.worker.desiredState ≠ .running ∨
          m.worker.intentGeneration ≠ scheduledIntentGeneration then some m
      else
        some ({ m with turn := some (.starting scheduledIntentGeneration decision halts) }.runSerial
          ⟨.command .start, .retry halts, true⟩)
    | .sessionConflict scheduledIntentGeneration resetCycle halts =>
      some ({ m with turn := some .serving }.runSerial
        ⟨.retrySessionConflict scheduledIntentGeneration resetCycle, .retry halts, true⟩)
    | .operation => some { m with turn := some .operating }
  | _, _ => none

def command (m : WorkerSystem) (command : WorkerCommand) : Option WorkerSystem :=
  match m.turn with
  | some .operating =>
    some ({ m with turn := some .commanding }.runSerial ⟨.command command, .command, true⟩)
  | _ => none

def endOperation (m : WorkerSystem) : Option WorkerSystem :=
  match m.turn with
  | some .operating => some { m with turn := none }
  | _ => none

/-- A client event is left out while the worker shuts down. -/
def emit (m : WorkerSystem) (event : ClientEvent) : Option WorkerSystem := do
  let client ← m.state.client.emits event
  let m := { m with state.client := client }
  some <|
    if m.worker.quiescing then m
    else { m with jobs := m.jobs ++ [.event event m.worker.intentGeneration] }

def fire (m : WorkerSystem) (id : TimerId) : Option WorkerSystem := do
  let timer ← m.state.timers.lookup id
  let m := { m with state.timers := m.state.timers.erase id }
  some <|
    match timer.retry with
    | .reconnect intentGeneration decision =>
      if m.worker.reconnectTimer ≠ some id then m
      else
        let m := { m with state.worker.reconnectTimer := none }
        if m.worker.quiescing then m
        else { m with jobs := m.jobs ++ [.reconnect intentGeneration decision timer.halts] }
    | .sessionConflict intentGeneration resetCycle =>
      if m.worker.sessionConflictTimer ≠ some id then m
      else
        let m := { m with state.worker.sessionConflictTimer := none }
        if m.worker.quiescing then m
        else { m with jobs := m.jobs ++ [.sessionConflict intentGeneration resetCycle timer.halts] }

end WorkerSystem

/-- The microtasks of the two queues, the client, the timers and the manager, which halts farming
and begins a shutdown at once, starts an account at its own start, and does the rest in operations;
`surround` is a change of what the worker reads elsewhere. -/
inductive WorkerAction where
  | emit (event : ClientEvent)
  | fire (id : TimerId)
  | operate
  | takeTurn
  | command (command : WorkerCommand)
  | endOperation
  | start
  | begin
  | resume (ok : Bool)
  | resumeRescheduling (ok : Bool)
  | clearFarmingSelection (keepAwaitingFarming : Bool)
  | beginShutdown
  | shutdown
  | surround (around : Surroundings)

def WorkerState.ofRow (row : WorkerRow) (status : AccountStatus) (around : Surroundings) :
    WorkerState where
  worker :=
    { desiredState := row.desiredState
      customTitle := row.customTitle
      lastError := row.lastError
      status
      lastActivity := none
      farmingAppIds := none
      awaitingFarming := false
      farmingInterruptedByShutdown := false
      reportedAppIds := []
      reportedActivityMode := .idle
      connected := false
      manuallyPaused := false
      blockedByOtherSession := false
      reconnectTimer := none
      sessionConflictTimer := none
      reconnectAttempt := 0
      sessionConflictAttempt := 0
      sessionConflictMode := none
      loginAttemptId := 0
      handledConflictLoginAttemptId := none
      startInFlight := false
      quiescing := false
      intentGeneration := 0 }
  client := ⟨.idle, none⟩
  timers := ∅
  drawn := 0
  around
  trace := ⟨.command, 0, [], [], [], false⟩

def WorkerSystem.ofState (state : WorkerState) : WorkerSystem := ⟨state, none, [], none, [], []⟩

def workerMachine : Transition.Machine WorkerSystem WorkerAction where
  Starts m := ∃ row status around, m = .ofState (.ofRow row status around)
  next m
    | .emit event => m.emit event
    | .fire id => m.fire id
    | .operate => some { m with jobs := m.jobs ++ [.operation] }
    | .takeTurn => m.takeTurn
    | .command command => m.command command
    | .endOperation => m.endOperation
    | .start => some (m.runSerial ⟨.command .start, .command, false⟩)
    | .begin => m.begin
    | .resume ok => m.resume ok
    | .resumeRescheduling ok => m.resumeRescheduling ok
    | .clearFarmingSelection keepAwaitingFarming =>
      some { m with state := m.state.clearFarmingSelection keepAwaitingFarming }
    | .beginShutdown => some { m with state := m.state.beginShutdown }
    | .shutdown =>
      if m.worker.quiescing then some (m.runSerial ⟨.shutdown, .command, false⟩) else none
    | .surround around => some { m with state.around := around }

end SteamBee.Steam
