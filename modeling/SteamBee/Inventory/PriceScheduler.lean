import Mathlib.Algebra.Group.Nat.Defs
import SteamBee.Data.Table
import SteamBee.Transition.Machine

/-! The requests of the price reader. Two run at a time, forty wait for at most twenty
seconds, and a 429 answer holds back every new one until its cooldown has passed. The
reactions to a promise are steps of their own. -/
namespace SteamBee.Inventory

abbrev ReadId := ℕ

inductive ReadPriceError where
  | noOrders
  | steamUnavailable
  | rateLimited
  | unsupportedPrice
  deriving DecidableEq, Repr

structure PriceReadError where
  code : ReadPriceError
  retryAt : Option ℕ
  deriving DecidableEq, Repr

inductive ReadFailure where
  | priceRead (error : PriceReadError)
  | other
  deriving DecidableEq, Repr

def unavailable : PriceReadError := ⟨.steamUnavailable, none⟩

def scrub : ReadFailure → PriceReadError
  | .priceRead error => error
  | .other => unavailable

/-- What an operation settles with; the text is the UTF-8 decoding of the bytes. -/
abbrev ReadResult := Except ReadFailure (List UInt8)

/-- `body` lists the chunks that the reader of the body yields. -/
structure PriceResponse where
  status : ℕ
  ok : Bool
  body : Option (List (List UInt8))
  deriving DecidableEq, Repr

def maxActive : ℕ := 2

def maxWaiting : ℕ := 40

def waitingTimeout : ℕ := 20000

def maxBodyBytes : ℕ := 8 * 1024 * 1024

def readBody (chunks : List UInt8) : List (List UInt8) → ReadResult
  | [] => .ok chunks
  | part :: parts =>
    if maxBodyBytes < chunks.length + part.length then
      .error (.priceRead ⟨.unsupportedPrice, none⟩)
    else readBody (chunks ++ part) parts

/-- Where an operation stands: it waits for a slot, its request is out, its promise has
settled, the promise of `schedule` has settled as well, or its slot is free again. An
operation that was not started is refused. -/
inductive ReadStage where
  | waiting (timeoutAt : ℕ)
  | active
  | ended (result : ReadResult)
  | settled (result : ReadResult)
  | released (result : ReadResult)
  | refused (error : PriceReadError)

namespace ReadStage

def isWaiting : ReadStage → Bool
  | .waiting _ => true
  | _ => false

/-- The operation was started and its slot is not free yet. -/
def holdsSlot : ReadStage → Bool
  | .active | .ended _ | .settled _ => true
  | _ => false

def isStarted : ReadStage → Bool
  | .waiting _ | .refused _ => false
  | _ => true

def result : ReadStage → Option ReadResult
  | .settled result | .released result => some result
  | .refused error => some (.error (.priceRead error))
  | _ => none

end ReadStage

/-- `current` is what `isCurrent` returns. -/
structure Read where
  current : Bool
  stage : ReadStage

inductive ReadEvent where
  | started (id : ReadId)
  | requested (id : ReadId) (now cooldownUntil : ℕ)
  | settled (id : ReadId)
  deriving DecidableEq, Repr

/-- The part of `MarketPriceReader` that `schedule`, `pump` and the cooldown use. `reads` are
the operations that `schedule` accepted, `log` is what they did. -/
structure PriceScheduler where
  reads : Table ReadId Read
  waiting : List ReadId
  active : ℕ
  cooldownUntil : ℕ
  cooldownStep : ℕ
  now : ℕ
  drawn : ℕ
  log : List ReadEvent

namespace PriceScheduler

def empty (now : ℕ) : PriceScheduler := ⟨∅, [], 0, 0, 0, now, 0, []⟩

def cooldown (s : PriceScheduler) : Option PriceReadError :=
  if s.now < s.cooldownUntil then some ⟨.rateLimited, some s.cooldownUntil⟩ else none

def rateLimited (s : PriceScheduler) : PriceScheduler :=
  let cooldownStep := min (s.cooldownStep + 1) 4
  { s with
    cooldownStep
    cooldownUntil := max s.cooldownUntil (s.now + min (60000 * 2 ^ (cooldownStep - 1)) 300000) }

def setStage (s : PriceScheduler) (id : ReadId) (read : Read) (stage : ReadStage) :
    PriceScheduler := { s with reads := s.reads.insert id { read with stage } }

def note (s : PriceScheduler) (event : ReadEvent) : PriceScheduler :=
  { s with log := event :: s.log }

/-- The promise of `schedule` rejects before the operation was started. -/
def refuse (s : PriceScheduler) (id : ReadId) (read : Read) (error : PriceReadError) :
    PriceScheduler := (s.setStage id read (.refused error)).note (.settled id)

/-- `operation()` up to its first await. -/
def operate (s : PriceScheduler) (id : ReadId) (read : Read) : PriceScheduler :=
  let s := { s with active := s.active + 1 }.note (.started id)
  if read.current then
    (s.setStage id read .active).note (.requested id s.now s.cooldownUntil)
  else s.setStage id read (.ended (.error (.priceRead unavailable)))

/-- `start`. Where it rejects, the `pump` it calls is the loop of `pumpFrom` that goes on. -/
def start (s : PriceScheduler) (id : ReadId) (read : Read) : PriceScheduler :=
  match s.cooldown with
  | some error => s.refuse id read error
  | none => s.operate id read

def pumpFrom : List ReadId → PriceScheduler → PriceScheduler
  | [], s => s
  | id :: rest, s =>
    if s.active < maxActive then
      let s := { s with waiting := rest }
      pumpFrom rest (match s.reads.lookup id with
        | some read => s.start id read
        | none => s)
    else s

def pump (s : PriceScheduler) : PriceScheduler := s.pumpFrom s.waiting

def scheduleError (s : PriceScheduler) : Option PriceReadError :=
  match s.cooldown with
  | some error => some error
  | none =>
    if maxActive ≤ s.active ∧ maxWaiting ≤ s.waiting.length then
      some ⟨.rateLimited, some (s.now + 1000)⟩
    else none

/-- `schedule` of an operation that it accepts. The cooldown was tested just before, so
`start` does not reject here. -/
def accept (s : PriceScheduler) (current : Bool) : PriceScheduler :=
  let id := s.drawn
  let timeoutAt := s.now + waitingTimeout
  let s := { s with drawn := s.drawn + 1 }
  if s.active < maxActive then s.start id ⟨current, .waiting timeoutAt⟩
  else
    { s with
      reads := s.reads.insert id ⟨current, .waiting timeoutAt⟩
      waiting := s.waiting ++ [id] }

def schedule (s : PriceScheduler) (current : Bool) : Except PriceReadError PriceScheduler :=
  match s.scheduleError with
  | some error => .error error
  | none => .ok (s.accept current)

/-- `isCurrent` of the operation is false from now on. -/
def outdate (s : PriceScheduler) (id : ReadId) : Option PriceScheduler := do
  let read ← s.reads.lookup id
  some { s with reads := s.reads.insert id { read with current := false } }

/-- The rest of an operation whose request was answered. -/
def outcome (s : PriceScheduler) (response : PriceResponse) : ReadResult × PriceScheduler :=
  if response.status = 429 then
    let s := s.rateLimited
    (.error (.priceRead ⟨.rateLimited, some s.cooldownUntil⟩), s)
  else if !response.ok then (.error (.priceRead unavailable), s)
  else
    match response.body with
    | none => (.error (.priceRead unavailable), s)
    | some parts => (readBody [] parts, s)

def answer (s : PriceScheduler) (id : ReadId) (response : PriceResponse) :
    Option PriceScheduler := do
  let read ← s.reads.lookup id
  match read.stage with
  | .active => some ((s.outcome response).2.setStage id read (.ended (s.outcome response).1))
  | _ => none

/-- The request or the reader of its body rejects. -/
def fail (s : PriceScheduler) (id : ReadId) : Option PriceScheduler := do
  let read ← s.reads.lookup id
  match read.stage with
  | .active => some (s.setStage id read (.ended (.error .other)))
  | _ => none

/-- `then(resolve, reject)`. -/
def settle (s : PriceScheduler) (id : ReadId) : Option PriceScheduler := do
  let read ← s.reads.lookup id
  match read.stage with
  | .ended result => some ((s.setStage id read (.settled result)).note (.settled id))
  | _ => none

/-- The `finally` of an operation. -/
def release (s : PriceScheduler) (id : ReadId) : Option PriceScheduler := do
  let read ← s.reads.lookup id
  match read.stage with
  | .settled result =>
    some { s.setStage id read (.released result) with active := s.active - 1 }.pump
  | _ => none

def timeout (s : PriceScheduler) (id : ReadId) : Option PriceScheduler := do
  let read ← s.reads.lookup id
  match read.stage with
  | .waiting timeoutAt =>
    if timeoutAt ≤ s.now then
      some ({ s with waiting := s.waiting.erase id }.refuse id read
        ⟨.rateLimited, some (s.now + 1000)⟩)
    else none
  | _ => none

def observe (s : PriceScheduler) : PriceScheduler :=
  if s.cooldownUntil ≤ s.now then { s with cooldownStep := 0, cooldownUntil := 0 } else s

end PriceScheduler

inductive ReadAction where
  | schedule (current : Bool)
  | outdate (id : ReadId)
  | answer (id : ReadId) (response : PriceResponse)
  | fail (id : ReadId)
  | settle (id : ReadId)
  | release (id : ReadId)
  | timeout (id : ReadId)
  | observe
  | tick (elapsed : ℕ)

/-- An operation that `schedule` rejects leaves no trace. -/
def priceSchedulerMachine : Transition.Machine PriceScheduler ReadAction where
  Starts s := ∃ now, s = .empty now
  next s
    | .schedule current =>
      match s.schedule current with
      | .ok t => some t
      | .error _ => some s
    | .outdate id => s.outdate id
    | .answer id response => s.answer id response
    | .fail id => s.fail id
    | .settle id => s.settle id
    | .release id => s.release id
    | .timeout id => s.timeout id
    | .observe => some s.observe
    | .tick elapsed => some { s with now := s.now + elapsed }

end SteamBee.Inventory
