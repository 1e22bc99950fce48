import Mathlib.Algebra.Group.Nat.Defs
import SteamBee.Data.Table
import SteamBee.Transition.Machine

/-! The notification dispatcher with the tables it works on: events are queued for the rules
they match, a drain delivers what is due, and rules are replaced by new revisions. Each call
stops at its awaits; drain and reconciliation are single-flight. -/
namespace SteamBee.Notifications

abbrev RuleId := ℕ

abbrev EventId := ℕ

abbrev DeliveryId := ℕ

abbrev CallId := ℕ

inductive RuleTarget where
  | browser
  | webhook
  deriving DecidableEq, Repr

/-- `webhook` is the stored target as `decryptSecret` finds it, or why it cannot. -/
structure NotificationRule where
  revision : ℕ
  startAfterEventId : EventId
  target : RuleTarget
  enabled : Bool
  eventTypes : List String
  webhook : Option (Except String String)
  failureCount : ℕ
  disabledUntil : Option ℕ
  deriving DecidableEq, Repr

structure RuleBody where
  target : RuleTarget
  enabled : Bool
  eventTypes : List String
  webhook : Option (Except String String)
  deriving DecidableEq, Repr

/-- `status` is the text of that name in the metadata. -/
structure SteamEvent where
  type : String
  status : Option String
  deriving DecidableEq, Repr

inductive DeliveryStatus where
  | pending
  | retry
  | delivered
  | failed
  deriving DecidableEq, Repr

structure NotificationDelivery where
  ruleId : RuleId
  ruleRevision : ℕ
  eventId : EventId
  status : DeliveryStatus
  attempts : ℕ
  nextAttemptAt : Option ℕ
  lastError : Option String
  deriving DecidableEq, Repr

structure ReadDelivery where
  id : DeliveryId
  row : NotificationDelivery
  deriving DecidableEq, Repr

structure ReadRule where
  id : RuleId
  row : NotificationRule
  deriving DecidableEq, Repr

/-- The await at which a drain stands. `noticedAt` is the instant of a failure. -/
inductive DrainPoint where
  | selecting
  | reading (id : DeliveryId)
  | readingRule (delivery : ReadDelivery)
  | retiring (delivery : ReadDelivery)
  | postponing (delivery : ReadDelivery) (disabledUntil : ℕ)
  | readingEvent (delivery : ReadDelivery) (rule : ReadRule)
  | sending (delivery : ReadDelivery) (rule : ReadRule)
  | marking (delivery : ReadDelivery)
  | resetting (delivery : ReadDelivery)
  | failReading (delivery : ReadDelivery) (message : String) (noticedAt : ℕ)
  | failMarking (delivery : ReadDelivery) (message : String) (noticedAt failureCount : ℕ)
  | failCounting (delivery : ReadDelivery) (noticedAt failureCount : ℕ)
  | selectingNext
  deriving DecidableEq, Repr

/-- `rest` are the deliveries that the drain has selected and not looked at. -/
structure Drain where
  startedAt : ℕ
  rest : List DeliveryId
  point : DrainPoint
  deriving DecidableEq, Repr

/-- The await at which a call of `enqueue` stands; `rules` are those that match and are left. -/
inductive Enqueue where
  | reading (eventId : EventId) (event : SteamEvent)
  | inserting (eventId : EventId) (now : ℕ) (rules : List (RuleId × ℕ))
  deriving DecidableEq, Repr

inductive Reconcile where
  | reading
  | readingEvents (rule : ReadRule) (rest : List ReadRule)
  | inserting (rule : ReadRule) (now : ℕ) (events : List EventId) (rest : List ReadRule)
  deriving DecidableEq, Repr

inductive Happened where
  | sent (id : DeliveryId) (ruleId : RuleId) (createdFor used sentAt : ℕ)
  | delivered (id : DeliveryId)
  | failed (id : DeliveryId)
  | retired (id : DeliveryId)
  | counted (ruleId : RuleId) (revision : ℕ) (success : Bool) (noticedAt : ℕ)
  | reconciled
  | crashed
  deriving DecidableEq, Repr

/-- `timer` is when the drain timer is due. `creating` are the rules that are about to be
inserted. -/
structure Dispatcher where
  rules : Table RuleId NotificationRule
  events : Table EventId SteamEvent
  lastEventId : EventId
  deliveries : Table DeliveryId NotificationDelivery
  running : Bool
  timer : Option ℕ
  drain : Option Drain
  enqueues : Table CallId Enqueue
  reconcile : Option Reconcile
  creating : Table RuleId NotificationRule
  now : ℕ
  drawn : ℕ
  log : List Happened

def maxAttempts : ℕ := 3

def anHour : ℕ := 60 * 60000

def NotificationDelivery.isDue (now : ℕ) (row : NotificationDelivery) : Bool :=
  (row.status == .pending || row.status == .retry) &&
    row.nextAttemptAt.all fun time => decide (time ≤ now)

def NotificationDelivery.isOpen (row : NotificationDelivery) : Bool :=
  row.status == .pending || row.status == .retry

def matchesRule (eventTypes : List String) (event : SteamEvent) : Bool :=
  let eventKeys := event.type :: (event.status.map fun status => event.type ++ "." ++ status).toList
  eventTypes.contains "*" || eventKeys.any fun eventKey => eventTypes.contains eventKey

namespace Dispatcher

def webhookRules (s : Dispatcher) : List ReadRule :=
  (s.rules.entries.filter fun entry => entry.2.enabled && entry.2.target == .webhook).map
    fun entry => ⟨entry.1, entry.2⟩

def note (s : Dispatcher) (happened : Happened) : Dispatcher := { s with log := happened :: s.log }

def scheduleDrain (s : Dispatcher) (delayMs : ℕ) : Dispatcher :=
  if s.running then { s with timer := some (s.now + delayMs) } else s

/-- The row of a rule and an event, which the unique index allows once. -/
def hasDelivery (s : Dispatcher) (ruleId : RuleId) (eventId : EventId) : Bool :=
  s.deliveries.entries.any fun entry => entry.2.ruleId == ruleId && entry.2.eventId == eventId

/-- `onConflictDoNothing`; a rule or an event that is gone lets the insert throw. -/
def insertDelivery (s : Dispatcher) (ruleId : RuleId) (revision : ℕ) (eventId : EventId)
    (now : ℕ) : Option Dispatcher :=
  if (s.rules.lookup ruleId).isNone || (s.events.lookup eventId).isNone then none
  else if s.hasDelivery ruleId eventId then some s
  else some { s with
    deliveries := s.deliveries.insert s.drawn
      ⟨ruleId, revision, eventId, .pending, 0, some now, none⟩
    drawn := s.drawn + 1 }

/-! ## Queueing -/

def record (s : Dispatcher) (event : SteamEvent) : Dispatcher :=
  let eventId := s.lastEventId + 1
  { s with
    events := s.events.insert eventId event
    lastEventId := eventId
    enqueues := s.enqueues.insert s.drawn (.reading eventId event)
    drawn := s.drawn + 1 }

def enqueued (s : Dispatcher) (call : CallId) (eventId : EventId) (now : ℕ) :
    List (RuleId × ℕ) → Dispatcher
  | [] => { s with enqueues := s.enqueues.erase call }.scheduleDrain 0
  | rules => { s with enqueues := s.enqueues.insert call (.inserting eventId now rules) }

def proceedEnqueue (s : Dispatcher) (call : CallId) : Option Dispatcher := do
  match ← s.enqueues.lookup call with
  | .reading eventId event =>
    let rules := s.webhookRules.filter fun rule => matchesRule rule.row.eventTypes event
    some (s.enqueued call eventId s.now (rules.map fun rule => (rule.id, rule.row.revision)))
  | .inserting eventId now ((ruleId, revision) :: rest) =>
    match s.insertDelivery ruleId revision eventId now with
    | some s => some (s.enqueued call eventId now rest)
    | none => some { s with enqueues := s.enqueues.erase call }
  | .inserting _ _ [] => none

def reconcileRules (s : Dispatcher) : List ReadRule → Dispatcher
  | [] => ({ s with reconcile := none }.scheduleDrain 0).note .reconciled
  | rule :: rest => { s with reconcile := some (.readingEvents rule rest) }

def reconciling (s : Dispatcher) (rule : ReadRule) (now : ℕ) (rest : List ReadRule) :
    List EventId → Dispatcher
  | [] => s.reconcileRules rest
  | events => { s with reconcile := some (.inserting rule now events rest) }

def proceedReconcile (s : Dispatcher) : Option Dispatcher := do
  match ← s.reconcile with
  | .reading => some (s.reconcileRules s.webhookRules)
  | .readingEvents rule rest =>
    let events := s.events.entries.filter fun entry =>
      decide (rule.row.startAfterEventId < entry.1) && matchesRule rule.row.eventTypes entry.2
    some (s.reconciling rule s.now rest (events.map fun entry => entry.1))
  | .inserting rule now (eventId :: events) rest =>
    match s.insertDelivery rule.id rule.row.revision eventId now with
    | some s => some (s.reconciling rule now rest events)
    | none => some { s with reconcile := none }
  | .inserting _ _ [] _ => none

/-! ## The drain -/

def drainAt (s : Dispatcher) (drain : Drain) (point : DrainPoint) : Dispatcher :=
  { s with drain := some { drain with point } }

/-- The loop of `drainNow` goes on, and ends when the dispatcher has stopped. -/
def nextDelivery (s : Dispatcher) (drain : Drain) : Dispatcher :=
  if !s.running then { s with drain := none }
  else match drain.rest with
    | [] => s.drainAt drain .selectingNext
    | id :: rest => s.drainAt { drain with rest } (.reading id)

def fire (s : Dispatcher) : Option Dispatcher := do
  let due ← s.timer
  if due ≤ s.now then
    let s := { s with timer := none }
    match s.drain with
    | some _ => some s
    | none => some { s with drain := some ⟨s.now, [], .selecting⟩ }
  else none

/-- The select of a drain gives at most twenty of the deliveries that are due. -/
def select (s : Dispatcher) (ids : List DeliveryId) : Option Dispatcher := do
  let drain ← s.drain
  let due := s.deliveries.entries.filter fun entry => entry.2.isDue drain.startedAt
  if drain.point = .selecting ∧ ids.Nodup ∧ ids.length = min 20 due.length ∧
      ∀ id ∈ ids, (s.deliveries.lookup id).any (fun row => row.isDue drain.startedAt) = true then
    some (s.nextDelivery { drain with rest := ids })
  else none

def updateDelivery (s : Dispatcher) (delivery : ReadDelivery)
    (change : NotificationDelivery → NotificationDelivery) (happened : Option Happened) :
    Dispatcher :=
  match s.deliveries.lookup delivery.id with
  | some row =>
    if row.ruleRevision = delivery.row.ruleRevision then
      { s with
        deliveries := s.deliveries.insert delivery.id (change row)
        log := happened.toList ++ s.log }
    else s
  | none => s

def updateRule (s : Dispatcher) (delivery : ReadDelivery)
    (change : NotificationRule → NotificationRule) (happened : Happened) : Dispatcher :=
  match s.rules.lookup delivery.row.ruleId with
  | some row =>
    if row.revision = delivery.row.ruleRevision then
      { s with rules := s.rules.insert delivery.row.ruleId (change row) }.note happened
    else s
  | none => s

def checkRule (s : Dispatcher) (drain : Drain) (delivery : ReadDelivery) : Dispatcher :=
  match s.rules.lookup delivery.row.ruleId with
  | none => s.drainAt drain (.retiring delivery)
  | some rule =>
    if rule.revision ≠ delivery.row.ruleRevision ∨ rule.enabled = false ∨ rule.target ≠ .webhook then
      s.drainAt drain (.retiring delivery)
    else match rule.disabledUntil.filter fun time => decide (s.now < time) with
      | some time => s.drainAt drain (.postponing delivery time)
      | none =>
        match rule.webhook with
        | none => s.drainAt drain (.failReading delivery "Webhook target is missing." s.now)
        | some (.error message) => s.drainAt drain (.failReading delivery message s.now)
        | some (.ok _) =>
          s.drainAt drain (.readingEvent delivery ⟨delivery.row.ruleId, rule⟩)

/-- When the next delivery is due; rows without a time come first. -/
def nextAttempt (s : Dispatcher) : Option (Option ℕ) :=
  let attempts := (s.deliveries.entries.filter fun entry => entry.2.isOpen).map
    fun entry => entry.2.nextAttemptAt
  match attempts with
  | [] => none
  | first :: rest =>
    some (rest.foldl (fun least time => least.bind fun l => time.map fun t => min l t) first)

def proceedDrain (s : Dispatcher) : Option Dispatcher := do
  let drain ← s.drain
  match drain.point with
  | .selecting | .sending _ _ => none
  | .reading id =>
    match s.deliveries.lookup id with
    | none => some (s.nextDelivery drain)
    | some row =>
      if s.running then some (s.drainAt drain (.readingRule ⟨id, row⟩))
      else some (s.nextDelivery drain)
  | .readingRule delivery =>
    if s.running then some (s.checkRule drain delivery) else some (s.nextDelivery drain)
  | .retiring delivery =>
    some ((s.updateDelivery delivery (fun row => { row with
      status := .failed
      nextAttemptAt := none
      lastError := some "Notification rule is no longer active." })
        (some (.retired delivery.id))).nextDelivery drain)
  | .postponing delivery disabledUntil =>
    some ((s.updateDelivery delivery (fun row => { row with
      status := .retry
      nextAttemptAt := some disabledUntil }) none).nextDelivery drain)
  | .readingEvent delivery rule =>
    match s.events.lookup delivery.row.eventId with
    | none =>
      some (s.drainAt drain
        (.failReading delivery "Notification event is no longer available." s.now))
    | some _ =>
      if s.running then
        some ((s.drainAt drain (.sending delivery rule)).note
          (.sent delivery.id delivery.row.ruleId delivery.row.ruleRevision rule.row.revision s.now))
      else some (s.nextDelivery drain)
  | .marking delivery =>
    some ((s.updateDelivery delivery (fun row => { row with
      status := .delivered
      attempts := delivery.row.attempts + 1
      nextAttemptAt := none
      lastError := none }) (some (.delivered delivery.id))).drainAt drain (.resetting delivery))
  | .resetting delivery =>
    some ((s.updateRule delivery (fun row => { row with
      failureCount := 0
      disabledUntil := none })
        (.counted delivery.row.ruleId delivery.row.ruleRevision true s.now)).nextDelivery drain)
  | .failReading delivery message noticedAt =>
    match (s.rules.lookup delivery.row.ruleId).filter
        fun rule => rule.revision == delivery.row.ruleRevision with
    | none => some (s.nextDelivery drain)
    | some rule =>
      some (s.drainAt drain (.failMarking delivery message noticedAt (rule.failureCount + 1)))
  | .failMarking delivery message noticedAt failureCount =>
    let attempts := delivery.row.attempts + 1
    let terminal := decide (maxAttempts ≤ attempts)
    some ((s.updateDelivery delivery (fun row => { row with
      status := if terminal then .failed else .retry
      attempts
      nextAttemptAt := if terminal then none else some (noticedAt + 30000 * 2 ^ (attempts - 1))
      lastError := some message }) (some (.failed delivery.id))).drainAt drain
        (.failCounting delivery noticedAt failureCount))
  | .failCounting delivery noticedAt failureCount =>
    some ((s.updateRule delivery (fun row => { row with
      failureCount
      disabledUntil := if 5 ≤ failureCount then some (noticedAt + anHour) else none })
        (.counted delivery.row.ruleId delivery.row.ruleRevision false noticedAt)).nextDelivery drain)
  | .selectingNext =>
    let s' := { s with drain := none }
    some <| match s.nextAttempt with
      | none => s'
      | some time => s'.scheduleDrain (max 1000 (time.getD (drain.startedAt + 30000) - s.now))

/-- The sender's promise settles: `none` when the webhook took the event, else with the error
and whether it is that of an abort. -/
def settle (s : Dispatcher) (outcome : Option (Bool × String)) : Option Dispatcher := do
  let drain ← s.drain
  match drain.point, outcome with
  | .sending delivery _, none => some (s.drainAt drain (.marking delivery))
  | .sending delivery _, some (isAbort, message) =>
    if !s.running && isAbort then some (s.nextDelivery drain)
    else some (s.drainAt drain (.failReading delivery message s.now))
  | _, _ => none

/-! ## The rules -/

def ruleValues (s : Dispatcher) (revision : ℕ) (body : RuleBody) : NotificationRule where
  revision
  startAfterEventId := s.events.entries.foldl (fun latest entry => max latest entry.1) 0
  target := body.target
  enabled := body.enabled
  eventTypes := body.eventTypes.eraseDups
  webhook := if body.target = .webhook then body.webhook else none
  failureCount := 0
  disabledUntil := none

def createRule (s : Dispatcher) (body : RuleBody) : Dispatcher :=
  { s with creating := s.creating.insert s.drawn (s.ruleValues 1 body), drawn := s.drawn + 1 }

def insertRule (s : Dispatcher) (ruleId : RuleId) : Option Dispatcher := do
  let rule ← s.creating.lookup ruleId
  some { s with creating := s.creating.erase ruleId, rules := s.rules.insert ruleId rule }

def replaceRule (s : Dispatcher) (ruleId : RuleId) (body : RuleBody) : Option Dispatcher := do
  let current ← s.rules.lookup ruleId
  some { s with
    rules := s.rules.insert ruleId (s.ruleValues (current.revision + 1) body)
    deliveries := s.deliveries.retain fun _ row => row.ruleId != ruleId }

def deleteRule (s : Dispatcher) (ruleId : RuleId) : Dispatcher :=
  { s with
    rules := s.rules.erase ruleId
    deliveries := s.deliveries.retain fun _ row => row.ruleId != ruleId }

def deleteEvents (s : Dispatcher) (ids : List EventId) : Dispatcher :=
  { s with
    events := s.events.retain fun id _ => !ids.contains id
    deliveries := s.deliveries.retain fun _ row => !ids.contains row.eventId }

/-! ## The process -/

def start (s : Dispatcher) : Dispatcher :=
  let s := { s with running := true }.scheduleDrain 0
  { s with reconcile := s.reconcile.or (some .reading) }

/-- The sends are aborted; their promises settle with the error of an abort later. -/
def stop (s : Dispatcher) : Dispatcher := { s with running := false, timer := none }

/-- The process is gone, and what it was about to do. -/
def crash (s : Dispatcher) : Dispatcher :=
  { s with
    running := false
    timer := none
    drain := none
    enqueues := ∅
    reconcile := none
    creating := ∅ }.note .crashed

end Dispatcher

inductive DispatcherAction where
  | record (event : SteamEvent)
  | enqueue (call : CallId)
  | reconcile
  | fire
  | select (ids : List DeliveryId)
  | drain
  | settle (outcome : Option (Bool × String))
  | create (body : RuleBody)
  | insert (ruleId : RuleId)
  | replace (ruleId : RuleId) (body : RuleBody)
  | deleteRule (ruleId : RuleId)
  | deleteEvents (ids : List EventId)
  | start
  | stop
  | crash
  | tick (elapsed : ℕ)
  deriving DecidableEq

/-- A database with neither rules nor events, and no process. -/
def Dispatcher.empty (now : ℕ) : Dispatcher :=
  ⟨∅, ∅, 0, ∅, false, none, none, ∅, none, ∅, now, 0, []⟩

def dispatcherMachine : Transition.Machine Dispatcher DispatcherAction where
  Starts s := ∃ now, s = .empty now
  next s
    | .record event => some (s.record event)
    | .enqueue call => s.proceedEnqueue call
    | .reconcile => s.proceedReconcile
    | .fire => s.fire
    | .select ids => s.select ids
    | .drain => s.proceedDrain
    | .settle outcome => s.settle outcome
    | .create body => some (s.createRule body)
    | .insert ruleId => s.insertRule ruleId
    | .replace ruleId body => s.replaceRule ruleId body
    | .deleteRule ruleId => some (s.deleteRule ruleId)
    | .deleteEvents ids => some (s.deleteEvents ids)
    | .start => some s.start
    | .stop => some s.stop
    | .crash => some s.crash
    | .tick elapsed => some { s with now := s.now + elapsed }

end SteamBee.Notifications
