import SteamBee.Data.History
import SteamBee.Notifications.Dispatcher

/-! What the log of a dispatcher says of its deliveries and of the health of its rules, and the
invariant that ties the tables and the drain to it. -/
namespace SteamBee.Notifications

/-! ## Reading the log -/

def streak (ruleId : RuleId) (revision : ℕ) : List Happened → ℕ
  | [] => 0
  | .counted counted of success _ :: log =>
    if counted = ruleId ∧ of = revision then if success then 0 else streak ruleId revision log + 1
    else streak ruleId revision log
  | _ :: log => streak ruleId revision log

/-- The end of the suspension by the last failure counted for a revision, if it was the fifth
in a row or a later one. -/
def suspendedUntil (ruleId : RuleId) (revision : ℕ) : List Happened → Option ℕ
  | [] => none
  | .counted counted of success noticedAt :: log =>
    if counted = ruleId ∧ of = revision then
      if success then none
      else if 5 ≤ streak ruleId revision log + 1 then some (noticedAt + anHour)
      else none
    else suspendedUntil ruleId revision log
  | _ :: log => suspendedUntil ruleId revision log

/-- The last send of a delivery has no recorded outcome. -/
def unrecorded (id : DeliveryId) : List Happened → Bool
  | [] => false
  | .sent sent _ _ _ _ :: log => if sent = id then true else unrecorded id log
  | .delivered recorded :: log => if recorded = id then false else unrecorded id log
  | .failed recorded :: log => if recorded = id then false else unrecorded id log
  | _ :: log => unrecorded id log

def SendOk : Happened → List Happened → Prop
  | .sent id ruleId createdFor used sentAt, earlier =>
    earlier.count (.failed id) < maxAttempts ∧ .delivered id ∉ earlier ∧ .retired id ∉ earlier ∧
      unrecorded id earlier = false ∧ used = createdFor ∧
      ∀ revision endsAt, suspendedUntil ruleId revision earlier = some endsAt →
        endsAt ≤ sentAt ∨ revision < used
  | _, _ => True

def DrainPoint.recording : DrainPoint → Option DeliveryId
  | .sending delivery _ | .marking delivery | .failReading delivery _ _
  | .failMarking delivery _ _ _ => some delivery.id
  | _ => none

def Dispatcher.recording (s : Dispatcher) : Option DeliveryId :=
  s.drain.bind fun drain => drain.point.recording

/-- Neither a crash nor an abort comes between a send and its record. -/
def NotCut (s : Dispatcher) : DispatcherAction → Prop
  | .crash => ∀ id, s.recording = some id → unrecorded id s.log = false
  | .settle (some (true, _)) => s.running = true
  | _ => True

/-! ## The invariant -/

def DrainPoint.current : DrainPoint → Option DeliveryId
  | .selecting | .selectingNext => none
  | .reading id => some id
  | .readingRule delivery | .retiring delivery | .postponing delivery _ | .readingEvent delivery _
  | .sending delivery _ | .marking delivery | .resetting delivery | .failReading delivery _ _
  | .failMarking delivery _ _ _ | .failCounting delivery _ _ => some delivery.id

structure RowKept (drawn : ℕ) (log : List Happened) (id : DeliveryId)
    (row : NotificationDelivery) : Prop where
  drawn : id < drawn
  bound : row.attempts ≤ maxAttempts
  tally : row.attempts = log.count (.failed id) + log.count (.delivered id)
  fresh : row.isOpen = true → row.attempts < maxAttempts ∧ .delivered id ∉ log ∧ .retired id ∉ log

namespace Dispatcher
variable {s t : Dispatcher} {a : DispatcherAction} {id : DeliveryId} {row : NotificationDelivery}
  {delivery : ReadDelivery} {rule : ReadRule} {drain : Drain} {point : DrainPoint}
  {ruleId : RuleId}

structure LogKept (s : Dispatcher) : Prop where
  tally : ∀ id, s.log.count (.failed id) + s.log.count (.delivered id) ≤ maxAttempts
  drawn : ∀ id, s.drawn ≤ id → .failed id ∉ s.log ∧ .delivered id ∉ s.log ∧ .retired id ∉ s.log ∧
    unrecorded id s.log = false
  sends : History.Each SendOk s.log
  counted : ∀ ruleId revision success noticedAt,
    .counted ruleId revision success noticedAt ∈ s.log →
      ruleId < s.drawn ∧ s.creating.lookup ruleId = none

structure RuleKept (log : List Happened) (ruleId : RuleId) (rule : NotificationRule) : Prop where
  failureCount : rule.failureCount = streak ruleId rule.revision log
  disabledUntil : rule.disabledUntil = suspendedUntil ruleId rule.revision log
  revision : ∀ revision success noticedAt,
    .counted ruleId revision success noticedAt ∈ log → revision ≤ rule.revision

structure RulesKept (s : Dispatcher) : Prop where
  rules : ∀ ruleId rule, s.rules.lookup ruleId = some rule →
    RuleKept s.log ruleId rule ∧ ruleId < s.drawn ∧ s.creating.lookup ruleId = none
  creating : ∀ ruleId rule, s.creating.lookup ruleId = some rule →
    ruleId < s.drawn ∧ rule.failureCount = 0 ∧ rule.disabledUntil = none

structure Parts (s : Dispatcher) : Prop where
  rows : ∀ id row, s.deliveries.lookup id = some row → RowKept s.drawn s.log id row
  log : s.LogKept
  rules : s.RulesKept

structure Held (s : Dispatcher) (delivery : ReadDelivery) : Prop where
  drawn : delivery.id < s.drawn
  same : ∀ row, s.deliveries.lookup delivery.id = some row → row = delivery.row
  isOpen : delivery.row.isOpen = true
  attempts : delivery.row.attempts < maxAttempts
  failed : s.log.count (.failed delivery.id) = delivery.row.attempts
  delivered : .delivered delivery.id ∉ s.log
  retired : .retired delivery.id ∉ s.log

def Linked (s : Dispatcher) (delivery : ReadDelivery) : Prop :=
  ∀ row, s.deliveries.lookup delivery.id = some row →
    ∃ rule, s.rules.lookup delivery.row.ruleId = some rule ∧
      rule.revision = delivery.row.ruleRevision

structure Ready (s : Dispatcher) (delivery : ReadDelivery) (rule : ReadRule) : Prop where
  revision : rule.row.revision = delivery.row.ruleRevision
  recorded : unrecorded delivery.id s.log = false
  awake : ∀ revision endsAt,
    suspendedUntil delivery.row.ruleId revision s.log = some endsAt →
      endsAt ≤ s.now ∨ revision < delivery.row.ruleRevision

def PointKept (s : Dispatcher) : DrainPoint → Prop
  | .selecting | .selectingNext | .resetting _ => True
  | .reading id => ∀ row, s.deliveries.lookup id = some row → row.isOpen = true
  | .readingRule delivery => s.Held delivery ∧ unrecorded delivery.id s.log = false
  | .retiring delivery | .postponing delivery _ => s.Held delivery
  | .readingEvent delivery rule => s.Held delivery ∧ s.Linked delivery ∧ s.Ready delivery rule
  | .sending delivery _ | .marking delivery | .failReading delivery _ _ =>
    s.Held delivery ∧ s.Linked delivery
  | .failMarking delivery _ _ failureCount => s.Held delivery ∧
      failureCount = streak delivery.row.ruleId delivery.row.ruleRevision s.log + 1
  | .failCounting delivery _ failureCount =>
      failureCount = streak delivery.row.ruleId delivery.row.ruleRevision s.log + 1

def RestKept (s : Dispatcher) (rest : List DeliveryId) : Prop :=
  rest.Nodup ∧ ∀ id ∈ rest, ∀ row, s.deliveries.lookup id = some row → row.isOpen = true

structure DrainKept (s : Dispatcher) (drain : Drain) : Prop where
  rest : s.RestKept drain.rest
  current : ∀ id, drain.point.current = some id → id ∉ drain.rest
  point : s.PointKept drain.point

/-- The last send of every open delivery is recorded, or the drain is about to record it. -/
def Finished (s : Dispatcher) : Prop :=
  ∀ id row, s.deliveries.lookup id = some row → row.isOpen = true → s.recording ≠ some id →
    unrecorded id s.log = false

structure Kept (s : Dispatcher) : Prop where
  parts : s.Parts
  drain : ∀ drain, s.drain = some drain → s.DrainKept drain
  finished : s.Finished

end Dispatcher

end SteamBee.Notifications
