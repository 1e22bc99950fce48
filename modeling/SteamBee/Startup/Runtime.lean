import SteamBee.Restore.Fence
import SteamBee.Transition.Refinement

/-! Servers from their start to their exit: the module `index.ts`, its app and the closing of
the app, beside restores that want the same data directory. -/
namespace SteamBee.Startup
open Restore (Entries Host Owner OwnerId Payload)

/-- How far `index.ts` has come. `cleaning` awaits the close in the `catch` of `buildApp`,
`failing` the one in the `catch` of `listenWithLeaseCleanup`. -/
inductive Main where
  | acquiring
  | preparing
  | initializing
  | cleaning
  | listening
  | failing
  | serving
  deriving DecidableEq, Repr

inductive AppState where
  | absent
  | opened
  | closing
  | closed
  | broken
  deriving DecidableEq, Repr

inductive CloseError where
  | shutdownTimeout
  | runtime
  deriving DecidableEq, Repr

/-- What `closeOperations` holds of the app. `lease` tells the data lease from the one whose
`release` does nothing. -/
structure Closing where
  lease : Bool
  begun : ℕ
  outcome : Option (Except CloseError Unit)

/-- The `closing` of `createRuntimeShutdown`: its cleanup is the closing of the app, or the
error that `beginShutdown` has thrown. -/
inductive Shutdown where
  | idle
  | waiting
  | thrown
  deriving DecidableEq, Repr

structure Server where
  main : Main
  app : AppState
  closing : Option Closing
  shutdown : Shutdown
  releases : ℕ
  closeCalls : ℕ

def shutdownBudgetMs : ℕ := 25000

inductive Fate where
  | runs
  | exits (code : ℕ)
  | killed
  deriving DecidableEq, Repr

/-- A server after a step, which may have released its lease or ended the process. -/
structure Outcome where
  server : Server
  release : Bool
  fate : Fate

inductive Move where
  | prepared
  | prepareFails
  | initialized
  | initializeFails (throws : Bool)
  | cleaned
  | listens
  | listenFails (throws : Bool)
  | rethrown
  | signal (fails throws : Bool)
  | stopped
  | appSettles (ok : Bool)
  | deadline
  | lost
  | killed
  deriving DecidableEq, Repr

namespace Server

def fresh : Server := ⟨.acquiring, .absent, none, .idle, 0, 0⟩

def holds (s : Server) : Bool := s.main ≠ .acquiring && s.releases = 0

/-- The server may still write to the data directory. -/
def Active (s : Server) : Prop := s.main ≠ .acquiring ∧ s.app ≠ .closed

instance (s : Server) : Decidable s.Active := inferInstanceAs (Decidable (_ ∧ _))

/-- The handlers of `SIGINT` and `SIGTERM` are there once `buildApp` has returned. -/
def handlesSignals (s : Server) : Bool :=
  match s.main with
  | .listening | .failing | .serving => true
  | _ => false

def settled (s : Server) : Option (Except CloseError Unit) := s.closing.bind Closing.outcome

def stays (s : Server) : Outcome := ⟨s, false, .runs⟩

def releasing (s : Server) (fate : Fate) : Outcome :=
  ⟨{ s with releases := s.releases + 1 }, true, fate⟩

/-- `throws`: `app.close` throws instead of returning a promise. -/
def closeWithLeaseCleanup (s : Server) (lease : Bool) (now : ℕ) (throws : Bool) : Server :=
  match s.closing with
  | some _ => s
  | none =>
    { s with
      app := if throws then .broken else .closing
      closeCalls := s.closeCalls + 1
      closing := some ⟨lease, now, if throws then some (.error .runtime) else none⟩ }

/-- The promise of `app.close` settles: it wins the race, or the deadline has won it before. -/
def appSettles (s : Server) (ok : Bool) : Outcome :=
  let s' := { s with app := if ok then .closed else .broken }
  match s.closing with
  | some c =>
    match c.outcome with
    | some _ => s'.stays
    | none =>
      if ok then
        let done := { s' with closing := some { c with outcome := some (.ok ()) } }
        if c.lease then done.releasing .runs else done.stays
      else Server.stays { s' with closing := some { c with outcome := some (.error .runtime) } }
  | none => s'.stays

def next (s : Server) (now : ℕ) : Move → Option Outcome
  | .prepared =>
    if s.main = .preparing then some (Server.stays { s with main := .initializing, app := .opened })
    else none
  -- `buildWithLeaseCleanup` gives the lease back
  | .prepareFails => if s.main = .preparing then some (s.releasing (.exits 1)) else none
  | .initialized =>
    if s.main = .initializing then some (Server.stays { s with main := .listening }) else none
  | .initializeFails throws =>
    if s.main = .initializing then
      some ({ s with main := .cleaning }.closeWithLeaseCleanup false now throws).stays
    else none
  | .cleaned =>
    match s.main, s.settled with
    | .cleaning, some (.ok _) => some (s.releasing (.exits 1))
    -- an `IncompleteStartupCleanupError` keeps the lease
    | .cleaning, some (.error _) => some ⟨s, false, .exits 1⟩
    | _, _ => none
  | .listens =>
    if s.main = .listening then some (Server.stays { s with main := .serving }) else none
  | .listenFails throws =>
    if s.main = .listening then
      some ({ s with main := .failing }.closeWithLeaseCleanup true now throws).stays
    else none
  | .rethrown =>
    if s.main = .failing ∧ s.settled.isSome then some ⟨s, false, .exits 1⟩ else none
  | .signal fails throws =>
    if !s.handlesSignals then none
    else if s.shutdown ≠ .idle then some s.stays
    else if fails then some (Server.stays { s with shutdown := .thrown })
    else some ({ s with shutdown := .waiting }.closeWithLeaseCleanup true now throws).stays
  | .stopped =>
    match s.shutdown, s.settled with
    | .thrown, _ => some ⟨s, false, .exits 1⟩
    | .waiting, some (.ok _) => some ⟨s, false, .exits 0⟩
    | .waiting, some (.error _) => some ⟨s, false, .exits 1⟩
    | _, _ => none
  | .appSettles ok => if s.app = .closing then some (s.appSettles ok) else none
  | .deadline =>
    match s.closing with
    | some c =>
      if c.outcome.isNone ∧ c.begun + shutdownBudgetMs ≤ now then
        let late : Closing := { c with outcome := some (.error .shutdownTimeout) }
        some (Server.stays { s with closing := some late })
      else none
    | none => none
  -- `failStop`: the heartbeat no longer finds the guard it holds
  | .lost => if s.holds then some ⟨s, false, .exits 1⟩ else none
  | .killed => some ⟨s, false, .killed⟩

end Server

structure Exit where
  id : OwnerId
  code : ℕ
  server : Server

structure Deployment where
  host : Host
  servers : Table OwnerId Server
  exits : List Exit
  now : ℕ

inductive Action where
  | start
  | acquire (id : OwnerId) (pid : ℤ) (fail : Bool)
  | move (id : OwnerId) (m : Move)
  | write (id : OwnerId) (data : Entries)
  | startRestore (pid : ℤ) (payload : Payload)
  | restoreStep (id : OwnerId) (fail : Bool)
  | crashRestore (id : OwnerId)
  | pass (ms : ℕ)

namespace Deployment

/-- The operating system takes the lock from a process that is gone. -/
def ends (d : Deployment) (id : OwnerId) : Option Deployment :=
  (d.host.next (.crash id)).map fun host => { d with host, servers := d.servers.erase id }

def does (d : Deployment) (id : OwnerId) (o : Outcome) : Option Deployment :=
  (if o.release then d.host.next (.release id) else some d.host).bind fun host =>
    let d := { d with host, servers := d.servers.insert id o.server }
    match o.fate with
    | .runs => some d
    | .exits code => ends { d with exits := ⟨id, code, o.server⟩ :: d.exits } id
    | .killed => d.ends id

def next (d : Deployment) : Action → Option Deployment
  | .start => (d.host.next .startRuntime).map fun host =>
      { d with host, servers := d.servers.insert d.host.drawn .fresh }
  | .acquire id pid fail =>
    (d.servers.lookup id).bind fun s =>
      if s.main = .acquiring then
        (d.host.next (.acquire id pid d.now fail)).bind fun host =>
          let d := { d with host }
          if (host.owners.lookup id).any Owner.held then
            d.does id (Server.stays { s with main := .preparing })
          else d.does id ⟨s, false, .exits 1⟩
      else none
  | .move id m => (d.servers.lookup id).bind fun s => (s.next d.now m).bind (d.does id)
  | .write id data =>
    (d.servers.lookup id).bind fun s =>
      if s.Active then (d.host.next (.serve id data)).map fun host => { d with host } else none
  | .startRestore pid payload =>
    (d.host.next (.startRestore pid d.now payload)).map fun host => { d with host }
  | .restoreStep id fail =>
    (d.host.next (.restoreStep id fail)).map fun host => { d with host }
  | .crashRestore id =>
    if d.servers.lookup id = none then
      (d.host.next (.crash id)).map fun host => { d with host }
    else none
  | .pass ms => some { d with now := d.now + ms }

end Deployment

def deploymentMachine : Transition.Machine Deployment Action where
  Starts d := Restore.hostMachine.Starts d.host ∧ d.servers = ∅ ∧ d.exits = []
  next := Deployment.next

end SteamBee.Startup
