import SteamBee.Data.Table
import SteamBee.Inventory.Contracts
import SteamBee.Transition.Machine

/-! The operations of each account form a chain of promises: an operation starts when the
tail before it has settled, and the last tail is kept in a map until it is over. Every
microtask is a step of its own. `T` and `E` are what operations resolve and reject with. -/
namespace SteamBee.Steam
variable {T E M : Type}

abbrev OperationId := ℕ

abbrev DrainId := ℕ

/-- `rest` is the other metadata of the request. -/
structure OperationContext (M : Type) where
  correlationId : Option String
  source : Option String
  action : Option String
  rest : M
  deriving DecidableEq, Repr

structure StoredOperationContext (M : Type) extends OperationContext M where
  expiresAt : ℕ
  deriving DecidableEq, Repr

def defaultContextTtlMs : ℕ := 2 * 60000

/-- Where an operation stands: it waits for the tail of `previous`, it runs, its promise has
settled, its tail has settled, or the `finally` of its tail has run. -/
inductive OperationStage (T E : Type) where
  | queued (previous : Option OperationId)
  | running
  | settled (result : Except E T)
  | tailed (result : Except E T)
  | cleaned (result : Except E T)

namespace OperationStage

def isOver : OperationStage T E → Bool
  | .tailed _ | .cleaned _ => true
  | _ => false

def isQueued : OperationStage T E → Bool
  | .queued _ => true
  | _ => false

def result : OperationStage T E → Option (Except E T)
  | .settled result | .tailed result | .cleaned result => some result
  | _ => none

end OperationStage

structure Operation (T E : Type) where
  accountId : AccountId
  stage : OperationStage T E

inductive DrainStage where
  | waiting (tails : List OperationId)
  | returned
  deriving DecidableEq, Repr

structure AccountOperationState (T E M : Type) where
  contexts : Table AccountId (StoredOperationContext M)
  queues : Table AccountId OperationId
  contextTtlMs : ℕ
  operations : Table OperationId (Operation T E)
  drains : Table DrainId DrainStage
  drawn : ℕ
  now : ℕ

namespace AccountOperationState

def empty (contextTtlMs : ℕ) : AccountOperationState T E M := ⟨∅, ∅, contextTtlMs, ∅, ∅, 0, 0⟩

def setStage (s : AccountOperationState T E M) (id : OperationId) (op : Operation T E)
    (stage : OperationStage T E) : AccountOperationState T E M :=
  { s with operations := s.operations.insert id { op with stage } }

/-- The tail of `previous` has settled; no tail stands for a resolved promise. -/
def isReady (s : AccountOperationState T E M) (previous : Option OperationId) : Bool :=
  previous.all fun id => (s.operations.lookup id).any fun op => op.stage.isOver

/-- `run(accountId, operation)`. -/
def run (s : AccountOperationState T E M) (accountId : AccountId) : AccountOperationState T E M :=
  { s with
    operations := s.operations.insert s.drawn ⟨accountId, .queued (s.queues.lookup accountId)⟩
    queues := s.queues.insert accountId s.drawn
    drawn := s.drawn + 1 }

/-- `previous.then(operation, operation)` calls the operation. -/
def start (s : AccountOperationState T E M) (id : OperationId) :
    Option (AccountOperationState T E M) := do
  let op ← s.operations.lookup id
  match op.stage with
  | .queued previous => if s.isReady previous then some (s.setStage id op .running) else none
  | _ => none

def settle (s : AccountOperationState T E M) (id : OperationId) (result : Except E T) :
    Option (AccountOperationState T E M) := do
  let op ← s.operations.lookup id
  match op.stage with
  | .running => some (s.setStage id op (.settled result))
  | _ => none

/-- The tail settles, whatever the operation settled with. -/
def settleTail (s : AccountOperationState T E M) (id : OperationId) :
    Option (AccountOperationState T E M) := do
  let op ← s.operations.lookup id
  match op.stage with
  | .settled result => some (s.setStage id op (.tailed result))
  | _ => none

/-- The `finally` of the tail. -/
def clean (s : AccountOperationState T E M) (id : OperationId) :
    Option (AccountOperationState T E M) := do
  let op ← s.operations.lookup id
  match op.stage with
  | .tailed result =>
    let s := s.setStage id op (.cleaned result)
    some <|
      if s.queues.lookup op.accountId = some id then
        { s with queues := s.queues.erase op.accountId }
      else s
  | _ => none

/-- The test of the loop in `drain`. -/
def drainAgain (s : AccountOperationState T E M) (id : DrainId) : AccountOperationState T E M :=
  { s with drains := s.drains.insert id <|
      if s.queues.size = 0 then .returned
      else .waiting (s.queues.entries.map fun e => e.2) }

def drain (s : AccountOperationState T E M) : AccountOperationState T E M :=
  { s.drainAgain s.drawn with drawn := s.drawn + 1 }

def drainSettled (s : AccountOperationState T E M) (id : DrainId) :
    Option (AccountOperationState T E M) := do
  match ← s.drains.lookup id with
  | .waiting tails =>
    if tails.all fun tail => s.isReady (some tail) then some (s.drainAgain id) else none
  | .returned => none

/-- Empty strings are as good as none. -/
def isPresent : Option String → Bool
  | none => false
  | some text => text ≠ ""

def remember (s : AccountOperationState T E M) (accountId : AccountId) (fallbackAction : String)
    (context : OperationContext M) : AccountOperationState T E M :=
  let action := context.action.getD fallbackAction
  if !isPresent context.correlationId && !isPresent context.source && !isPresent (some action)
  then s
  else { s with contexts := s.contexts.insert accountId {
      context with action := some action, expiresAt := s.now + s.contextTtlMs } }

/-- What `metadata` returns; an expired context is deleted. -/
def metadata (s : AccountOperationState T E M) (accountId : AccountId) :
    Option (OperationContext M) × AccountOperationState T E M :=
  match s.contexts.lookup accountId with
  | none => (none, s)
  | some context =>
    if context.expiresAt ≤ s.now then
      (none, { s with contexts := s.contexts.erase accountId })
    else (some context.toOperationContext, s)

def clearContext (s : AccountOperationState T E M) (accountId : AccountId) :
    AccountOperationState T E M := { s with contexts := s.contexts.erase accountId }

def clearContexts (s : AccountOperationState T E M) : AccountOperationState T E M :=
  { s with contexts := ∅ }

end AccountOperationState

/-- The calls of the class, the microtasks of the chains and of `drain`, and the clock. -/
inductive OperationAction (T E M : Type) where
  | run (accountId : AccountId)
  | start (id : OperationId)
  | settle (id : OperationId) (result : Except E T)
  | settleTail (id : OperationId)
  | clean (id : OperationId)
  | drain
  | drainSettled (id : DrainId)
  | remember (accountId : AccountId) (fallbackAction : String) (context : OperationContext M)
  | metadata (accountId : AccountId)
  | clearContext (accountId : AccountId)
  | clearContexts
  | tick (elapsed : ℕ)

def operationMachine (T E M : Type) :
    Transition.Machine (AccountOperationState T E M) (OperationAction T E M) where
  Starts s := ∃ contextTtlMs, s = .empty contextTtlMs
  next s
    | .run accountId => some (s.run accountId)
    | .start id => s.start id
    | .settle id result => s.settle id result
    | .settleTail id => s.settleTail id
    | .clean id => s.clean id
    | .drain => some s.drain
    | .drainSettled id => s.drainSettled id
    | .remember accountId fallbackAction context => some (s.remember accountId fallbackAction context)
    | .metadata accountId => some (s.metadata accountId).2
    | .clearContext accountId => some (s.clearContext accountId)
    | .clearContexts => some s.clearContexts
    | .tick elapsed => some { s with now := s.now + elapsed }

end SteamBee.Steam
