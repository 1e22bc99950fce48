import SteamBee.Farming.Session
import SteamBee.Transition.Machine

/-! The farming controller of one account. Its asynchronous calls are cut at every
`await`: a call that waits is a task, a task resumes when the adapter's promise
settles, and an adapter that acts asks its callback at that moment. -/
namespace SteamBee.Farming

abbrev TaskId := ℕ

structure Timer where
  generation : ℕ
  due : ℕ
  deriving DecidableEq, Repr

/-- An adapter call with a callback: not acted yet, acted, or declined because the
callback returned false. -/
inductive CallState where
  | pending | acted | declined
  deriving DecidableEq, Repr

inductive Point where
  | availability
  | begin (call : CallState) (gameLimit : ℕ)
  | discover (gameLimit : ℕ)
  | apply (call : CallState) (appIds : List AppId) (warmingUp : Bool)
  | endUnavailable (call : CallState) (cleanupGeneration : ℕ)
  | endCompleted (call : CallState)
  | endFailed (call : CallState) (cleanupGeneration : ℕ)
  deriving DecidableEq, Repr

/-- The arguments of `advance`, and the `resumed` of the `start` that awaits it. -/
structure Advance where
  caller : Option Bool
  generation : ℕ
  forceScan : Bool
  deriving DecidableEq, Repr

/-- A call that waits. `started` is `start` after its `await advance`; `pricing` and
`priced` are the background lookup and its `finally`. -/
inductive Task where
  | scan (generation : ℕ)
  | advance (a : Advance) (point : Point)
  | started (generation : ℕ) (resumed : Bool)
  | stop (generation : ℕ) (call : CallState)
  | pricing (appIds : List AppId)
  | priced
  deriving DecidableEq, Repr

/-- What reaches the outside: farming starts, adapter calls that took effect, and
writes of the resume marker. -/
inductive Effect where
  | started
  | began
  | applied (appIds : List AppId)
  | ended
  | remembered (resume : Bool)
  deriving DecidableEq, Repr

/-- What ended a session: one of the controller's own ends, or a halt by an
account command. -/
inductive Cause where
  | stop | completion | failure | unavailability | halt
  deriving DecidableEq, Repr

/-- The controller as one account sees it, with its pending promises and timers.
`marker` is the persisted resume marker; `effects`, newest first, and `cause`
record the run. -/
structure Controller where
  now : ℕ
  shuttingDown : Bool
  session : Option Session
  timers : Table TimerId Timer
  tasks : Table TaskId Task
  drawn : ℕ
  marker : Bool
  effects : List Effect
  cause : Option Cause
  deriving DecidableEq

/-- What a call returns at once: an error, a snapshot, or a promise. -/
inductive Reply where
  | rejected (message : String)
  | resolved (snapshot : FarmingSnapshot)
  | waiting (id : TaskId)
  deriving DecidableEq

inductive Outcome where
  | availability (value : FarmingAvailability)
  | discovery (value : Discovery)
  | prices (values : List (AppId × Option CardValue))
  | done
  | failed
  deriving DecidableEq

namespace Controller

def empty : Controller := ⟨0, false, none, ∅, ∅, 0, false, [], none⟩

def isCurrent (c : Controller) (generation : ℕ) : Bool :=
  !c.shuttingDown && c.session.any fun s => s.generation == generation

def isActive (c : Controller) : Bool := c.session.any Session.isActive

def put (c : Controller) (s : Session) : Controller := { c with session := some s }

def emit (c : Controller) (e : Effect) : Controller := { c with effects := e :: c.effects }

def remember (c : Controller) (resume : Bool) : Controller :=
  { c with marker := resume }.emit (.remembered resume)

/-- Make `task` the continuation that waits under `id`. -/
def await (c : Controller) (id : TaskId) (task : Task) : Controller :=
  { c with tasks := c.tasks.insert id task }

def finish (c : Controller) (id : TaskId) : Controller := { c with tasks := c.tasks.erase id }

def spawn (c : Controller) (task : Task) : Controller :=
  { c with tasks := c.tasks.insert c.drawn task, drawn := c.drawn + 1 }

/-- Store a session whose games were filtered and start its price lookup, if any. -/
def putFiltered (c : Controller) (filtered : Session × Option (List AppId)) : Controller :=
  match filtered.2 with
  | none => c.put filtered.1
  | some appIds => (c.put filtered.1).spawn (.pricing appIds)

def touch (setup : Setup) (c : Controller) (config : Option FarmingConfig) : Controller :=
  match c.session, config with
  | none, config => c.put (Session.new setup config)
  | some s, some config =>
    if s.isActive then c
    else c.putFiltered <|
      { s with snapshot := { s.snapshot with config } }.filterGames setup c.now c.shuttingDown
  | some _, none => c

def reply (c : Controller) : Reply :=
  match c.session with
  | none => .rejected "Card farming session is missing."
  | some s => .resolved s.snapshot

def captureIntent (setup : Setup) (c : Controller) : ℕ × Controller :=
  let c := c.touch setup none
  ((c.session.map Session.generation).getD 0, c)

def clearTimer (c : Controller) (timer : Option TimerId) : Controller :=
  match timer with
  | none => c
  | some timer => { c with timers := c.timers.erase timer }

/-- Invalidate synchronously before an account stop, pause, conflict, or shutdown. -/
def halt (c : Controller) (reason : String) (cause : Cause) : Controller :=
  match c.session with
  | none => c
  | some s =>
    let c := c.clearTimer s.timer
    let c := if reason ∈ resumableHalts then c else c.remember false
    { c.put (s.halt reason) with cause := some cause }

def scan (setup : Setup) (c : Controller) (config : FarmingConfig) (expected : Option ℕ) :
    Reply × Controller :=
  if c.shuttingDown then (.rejected "Card farming is shutting down.", c)
  else
    let c := c.touch setup (some config)
    match c.session with
    | none => (c.reply, c)
    | some s =>
      if expected.any (· != s.generation) || s.isActive then (c.reply, c)
      else
        let generation := s.generation + 1
        let c := c.put { s with
          generation
          snapshot := { s.snapshot with phase := .scanning, reason := none } }
        (.waiting c.drawn, c.spawn (.scan generation))

def start (setup : Setup) (c : Controller) (config : FarmingConfig) (expected : Option ℕ)
    (resumed : Bool) : Reply × Controller :=
  if c.shuttingDown then (.rejected "Card farming is shutting down.", c)
  else
    let c := c.touch setup (some config)
    match c.session with
    | none => (c.reply, c)
    | some s =>
      if expected.any (· != s.generation) then (c.reply, c)
      else if s.isActive then (.rejected "Card farming is already active.", c)
      else
        let generation := s.generation + 1
        let c := (c.emit .started).put { s with
          generation
          applied := false
          snapshot := { s.snapshot with
            config
            phase := .scanning
            startedAt := some c.now
            reason := none } }
        (.waiting c.drawn,
          c.spawn (.advance ⟨some resumed, generation, true⟩ .availability))

/-- Between ticks the worker is idle: select games now. An `advance` in flight reads
the new settings itself. -/
def reselect (setup : Setup) (c : Controller) (s : Session) : Controller :=
  let filtered := s.filterGames setup c.now c.shuttingDown
  let c := c.putFiltered filtered
  match s.timer with
  | none => c
  | some timer =>
    ({ c with timers := c.timers.erase timer }.put { filtered.1 with timer := none }).spawn
      (.advance ⟨none, s.generation, false⟩ .availability)

/-- Apply new settings to a running worker without stopping it. -/
def reconfigure (setup : Setup) (c : Controller) (config : FarmingConfig) : Controller :=
  let c := c.touch setup (some config)
  match c.session with
  | none => c
  | some s =>
    if !s.isActive then c
    else c.reselect setup { s with snapshot := { s.snapshot with config } }

def stop (setup : Setup) (c : Controller) : Reply × Controller :=
  let c := (c.touch setup none).halt "stopped" .stop
  match c.session with
  | none => (c.reply, c)
  | some s => (.waiting c.drawn, c.spawn (.stop s.generation .pending))

def beginShutdown (c : Controller) : Controller :=
  { c with shuttingDown := true }.halt "shutdown" .halt

/-- A manager may be initialized again after a nonterminal shutdown. -/
def initializeAgain (c : Controller) : Controller := { c with shuttingDown := false }

def returns (c : Controller) (id : TaskId) (a : Advance) : Controller :=
  match a.caller with
  | none => c.finish id
  | some resumed => c.await id (.started a.generation resumed)

/-- `advance` goes on with `k` while its generation is current and returns otherwise. -/
def whenCurrent (c : Controller) (id : TaskId) (a : Advance) (k : Session → Controller) :
    Controller :=
  match c.session with
  | none => c.returns id a
  | some s => if c.isCurrent a.generation then k s else c.returns id a

/-- The `catch` of `advance`. -/
def fail (c : Controller) (id : TaskId) (a : Advance) : Controller :=
  c.whenCurrent id a fun s =>
    let halted := s.halt "farming_failed"
    let c := (c.halt "farming_failed" .failure).put
      { halted with snapshot := { halted.snapshot with phase := .error } }
    if s.applied then c.await id (.advance a (.endFailed .pending halted.generation))
    else c.returns id a

/-- Keep the selection and arm the next tick. -/
def arm (setup : Setup) (c : Controller) (s : Session) (id : TaskId) (a : Advance)
    (appIds : List AppId) (warmingUp : Bool) : Controller :=
  { c with
    session := some { s with
      applied := true
      activeSince := some c.now
      timer := some c.drawn
      snapshot := { s.snapshot with
        activeAppIds := appIds
        phase := if warmingUp then .warming else .farming } }
    timers := c.timers.insert c.drawn ⟨a.generation, c.now + setup.tickMs⟩
    drawn := c.drawn + 1 }.returns id a

/-- No game is left to play: forget the farming and end what was applied. -/
def complete (c : Controller) (s : Session) (id : TaskId) (a : Advance) (noneEligible : Bool) :
    Controller :=
  let c := { (c.remember false).put (s.complete noneEligible) with cause := some .completion }
  if s.applied then c.await id (.advance a (.endCompleted .pending)) else c.returns id a

def choose (setup : Setup) (c : Controller) (s : Session) (id : TaskId) (a : Advance)
    (gameLimit : ℕ) : Controller :=
  let selection := select s.snapshot.config gameLimit s.snapshot.games
  if selection.appIds = [] then c.complete s id a selection.noneEligible
  else if selection.appIds ≠ s.snapshot.activeAppIds then
    (c.put { s with applied := true }).await id
      (.advance a (.apply .pending selection.appIds selection.warmingUp))
  else c.arm setup s id a selection.appIds selection.warmingUp

def refilter (setup : Setup) (c : Controller) (s : Session) (id : TaskId) (a : Advance)
    (gameLimit : ℕ) : Controller :=
  let filtered := s.filterGames setup c.now c.shuttingDown
  (c.putFiltered filtered).choose setup filtered.1 id a gameLimit

/-- Credit the elapsed playtime and rescan the badges when they are due. -/
def proceed (setup : Setup) (c : Controller) (s : Session) (id : TaskId) (a : Advance)
    (gameLimit : ℕ) : Controller :=
  let s := s.creditPlaytime c.now
  if a.forceScan || s.snapshot.scannedAt.all fun scannedAt => decide (setup.scanMs ≤ c.now - scannedAt) then
    (c.put s).await id (.advance a (.discover gameLimit))
  else c.refilter setup s id a gameLimit

/-- The account does not allow farming: halt and end what was applied. -/
def unavailable (c : Controller) (s : Session) (id : TaskId) (a : Advance) (reason : String) :
    Controller :=
  let c := c.halt reason .unavailability
  if s.applied then c.await id (.advance a (.endUnavailable .pending (s.generation + 1)))
  else c.returns id a

def available (setup : Setup) (c : Controller) (s : Session) (id : TaskId) (a : Advance)
    (value : FarmingAvailability) : Controller :=
  let s := s.observe value
  let c := c.put s
  if !value.allowed then c.unavailable s id a (value.reason.getD "account_unavailable")
  else if a.forceScan && setup.hasBegin then
    (c.put { s with applied := true }).await id (.advance a (.begin .pending value.gameLimit))
  else c.proceed setup s id a value.gameLimit

/-- `advance` resumes with what it awaited. A promise of an adapter call resolves
only after the call acted or declined; it may reject at any time. -/
def settleAdvance (setup : Setup) (c : Controller) (id : TaskId) (a : Advance) :
    Point → Outcome → Option Controller
  | .endFailed _ _, .failed => some (c.returns id a)
  | _, .failed => some (c.fail id a)
  | .availability, .availability value =>
    some (c.whenCurrent id a fun s => c.available setup s id a value)
  | .begin call gameLimit, .done =>
    if call = .pending then none
    else some (c.whenCurrent id a fun s => c.proceed setup s id a gameLimit)
  | .discover gameLimit, .discovery discovery =>
    some (c.whenCurrent id a fun s =>
      let updated := s.updateGames setup c.now c.shuttingDown discovery
      (c.putFiltered updated).refilter setup updated.1 id a gameLimit)
  | .apply call appIds warmingUp, .done =>
    if call = .pending then none
    else some (c.whenCurrent id a fun s => c.arm setup s id a appIds warmingUp)
  | .endUnavailable call _, .done | .endCompleted call, .done | .endFailed call _, .done =>
    if call = .pending then none else some (c.returns id a)
  | _, _ => none

def settleScan (setup : Setup) (c : Controller) (id : TaskId) (generation : ℕ) :
    Outcome → Option Controller
  | .discovery discovery =>
    match c.session with
    | none => some (c.finish id)
    | some s =>
      if c.isCurrent generation then
        let updated := s.updateGames setup c.now c.shuttingDown discovery
        some (((c.putFiltered updated).put { updated.1 with
          snapshot := { updated.1.snapshot with phase := .stopped } }).finish id)
      else some (c.finish id)
  | .failed =>
    match c.session with
    | none => some (c.finish id)
    | some s =>
      if c.isCurrent generation then
        some ((c.put { s with snapshot := { s.snapshot with
          phase := .error, reason := some "badge_scan_failed" } }).finish id)
      else some (c.finish id)
  | _ => none

def settleStarted (c : Controller) (id : TaskId) (resumed : Bool) : Controller :=
  match c.session with
  | none => c.finish id
  | some s =>
    if s.isActive then
      let s := if resumed then { s with snapshot := { s.snapshot with reason := some "resumed" } }
        else s
      ((c.remember true).put s).finish id
    else c.finish id

def settlePricing (setup : Setup) (c : Controller) (id : TaskId) : Outcome → Option Controller
  | .prices values =>
    some <| (match c.session with
      | none => c
      | some s => c.put (s.setPrices setup c.now values)).await id .priced
  | .failed => some (c.await id .priced)
  | _ => none

def settlePriced (c : Controller) (id : TaskId) : Controller :=
  (match c.session with
    | none => c
    | some s => c.put { s with snapshot := { s.snapshot with pricing := false } }).finish id

def settle (setup : Setup) (c : Controller) (id : TaskId) (outcome : Outcome) :
    Option Controller :=
  match c.tasks.lookup id, outcome with
  | some (.scan generation), outcome => c.settleScan setup id generation outcome
  | some (.advance a point), outcome => c.settleAdvance setup id a point outcome
  | some (.started _ resumed), .done => some (c.settleStarted id resumed)
  | some (.stop _ _), .failed => some (c.finish id)
  | some (.stop _ call), .done => if call = .pending then none else some (c.finish id)
  | some (.pricing _), outcome => c.settlePricing setup id outcome
  | some .priced, .done => some (c.settlePriced id)
  | _, _ => none

/-- Right before acting the adapter asks its callback, which compares generations. -/
def perform (c : Controller) (id : TaskId) (generation : ℕ) (effect : Effect)
    (task : CallState → Task) : Controller :=
  if c.isCurrent generation then (c.emit effect).await id (task .acted)
  else c.await id (task .declined)

/-- The adapter call of task `id` gets to the point where it acts. -/
def act (c : Controller) (id : TaskId) : Option Controller :=
  match c.tasks.lookup id with
  | some (.advance a (.begin .pending gameLimit)) =>
    some (c.perform id a.generation .began fun call => .advance a (.begin call gameLimit))
  | some (.advance a (.apply .pending appIds warmingUp)) =>
    some (c.perform id a.generation (.applied appIds) fun call =>
      .advance a (.apply call appIds warmingUp))
  | some (.advance a (.endUnavailable .pending generation)) =>
    some (c.perform id generation .ended fun call => .advance a (.endUnavailable call generation))
  | some (.advance a (.endCompleted .pending)) =>
    some (c.perform id a.generation .ended fun call => .advance a (.endCompleted call))
  | some (.advance a (.endFailed .pending generation)) =>
    some (c.perform id generation .ended fun call => .advance a (.endFailed call generation))
  | some (.stop generation .pending) =>
    some (c.perform id generation .ended fun call => .stop generation call)
  | _ => none

def fire (c : Controller) (timer : TimerId) : Option Controller :=
  match c.timers.lookup timer, c.session with
  | some t, some s =>
    if c.now < t.due then none
    else
      let c := { c with timers := c.timers.erase timer }.put { s with timer := none }
      if c.isCurrent t.generation then some (c.spawn (.advance ⟨none, t.generation, false⟩ .availability))
      else some c
  | _, _ => none

end Controller

/-- The calls of the controller, its timers, the adapter and the clock. -/
inductive Action where
  | snapshot (config : Option FarmingConfig)
  | scan (config : FarmingConfig) (expected : Option ℕ)
  | start (config : FarmingConfig) (expected : Option ℕ) (resumed : Bool)
  | reconfigure (config : FarmingConfig)
  | halt (reason : String)
  | stop
  | beginShutdown
  | initializeAgain
  | fire (timer : TimerId)
  | act (id : TaskId)
  | settle (id : TaskId) (outcome : Outcome)
  | tick (elapsed : ℕ)

/-- The controller under every order of calls, timers and adapter completions. -/
def controllerMachine (setup : Setup) : Transition.Machine Controller Action where
  Starts c := c = .empty
  next c
    | .snapshot config => some (c.touch setup config)
    | .scan config expected => some (c.scan setup config expected).2
    | .start config expected resumed => some (c.start setup config expected resumed).2
    | .reconfigure config => some (c.reconfigure setup config)
    | .halt reason => some (c.halt reason .halt)
    | .stop => some (c.stop setup).2
    | .beginShutdown => some c.beginShutdown
    | .initializeAgain => some c.initializeAgain
    | .fire timer => c.fire timer
    | .act id => c.act id
    | .settle id outcome => c.settle setup id outcome
    | .tick elapsed => some { c with now := c.now + elapsed }

end SteamBee.Farming
