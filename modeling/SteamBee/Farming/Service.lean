import SteamBee.Farming.Controller

/-! The callers of the farming controller for one account: the start and stop routes,
the account commands that end farming, the automatic resume, and the process, whose
restart leaves only the resume marker. -/
namespace SteamBee.Farming

/-- What `getFarmingAvailability` returns, with the mark the start route reads. -/
structure AccountAvailability where
  allowed : Bool
  resumable : Bool
  deriving DecidableEq, Repr

inductive StartPoint where
  | account
  | availability
  | resumeForFarming
  | config (intent : ℕ)
  deriving DecidableEq, Repr

/-- The promise `resumeInterruptedFarming` awaits once it has read the marker. -/
inductive ResumePoint where
  | config
  | availability (config : FarmingConfig)
  deriving DecidableEq, Repr

/-- The calls that end farming on purpose: the farming stop route, the account
commands, and their scheduled forms. -/
inductive EndKind where
  | farmingStop | accountStop | accountPause | presetApply | scheduledPause | scheduledPreset
  deriving DecidableEq, Repr

/-- How far such a call is: before its last halt, after it, or (for the farming stop)
waiting for the end of the controller's stop. -/
inductive EndPoint where
  | called
  | halted
  | stopping (id : TaskId)
  deriving DecidableEq, Repr

structure EndRequest where
  kind : EndKind
  point : EndPoint
  deriving DecidableEq, Repr

def EndKind.reason : EndKind → String
  | .farmingStop | .accountStop => "stopped"
  | .accountPause | .scheduledPause => "paused"
  | .presetApply | .scheduledPreset => "preset-applied"

/-- `runFarmingInterruption` halts before the command enters the account queue. -/
def EndKind.haltsAtCall : EndKind → Bool
  | .accountStop | .accountPause | .presetApply => true
  | _ => false

/-- The command halts (again) inside the account queue. -/
def EndKind.haltsInside : EndKind → Bool
  | .accountStop => false
  | _ => true

/-- The past of its last halt: nothing older may start farming any more. -/
def EndRequest.pastHalt (e : EndRequest) : Bool := e.point != .called

inductive Read where
  | done
  | failed
  | availability (value : AccountAvailability)
  | config (value : FarmingConfig)
  deriving DecidableEq

/-- The account in the process: the controller, the pending requests, and whether an
explicit end has returned with no start request received since. -/
structure Service where
  farm : Controller
  starts : Table ℕ StartPoint
  resumes : Table ℕ ResumePoint
  ends : Table ℕ EndRequest
  drawn : ℕ
  ended : Bool
  deriving DecidableEq

namespace Service

def empty : Service := ⟨.empty, ∅, ∅, ∅, 0, false⟩

def startReceived (v : Service) : Service :=
  { v with starts := v.starts.insert v.drawn .account, drawn := v.drawn + 1, ended := false }

def dropStart (v : Service) (id : ℕ) : Service := { v with starts := v.starts.erase id }

/-- The start route after its reads: capture the intent, then check. -/
def captureStart (setup : Setup) (v : Service) (id : ℕ) (value : AccountAvailability) : Service :=
  let (intent, farm) := v.farm.captureIntent setup
  let v := { v with farm }
  if !value.allowed then v.dropStart id
  else if v.farm.isActive then v.dropStart id
  else { v with starts := v.starts.insert id (.config intent) }

def startReads (setup : Setup) (v : Service) (id : ℕ) (read : Read) : Option Service :=
  match v.starts.lookup id, read with
  | none, _ => none
  | some _, .failed => some (v.dropStart id)
  | some .account, .done => some { v with starts := v.starts.insert id .availability }
  | some .availability, .availability value =>
    if !value.allowed && value.resumable then
      some { v with starts := v.starts.insert id .resumeForFarming }
    else some (v.captureStart setup id value)
  | some .resumeForFarming, .availability value => some (v.captureStart setup id value)
  | some (.config intent), .config config =>
    some { v.dropStart id with farm := (v.farm.start setup config (some intent) false).2 }
  | _, _ => none

/-- `resumeInterruptedFarming` reads the marker when it is called. -/
def resumeCalled (v : Service) : Service :=
  if v.farm.marker then { v with resumes := v.resumes.insert v.drawn .config, drawn := v.drawn + 1 }
  else v

def dropResume (v : Service) (id : ℕ) : Service := { v with resumes := v.resumes.erase id }

def resumeReads (setup : Setup) (v : Service) (id : ℕ) (read : Read) : Option Service :=
  match v.resumes.lookup id, read with
  | none, _ => none
  | some _, .failed => some (v.dropResume id)
  | some .config, .config config =>
    if !config.autoResume then some (v.dropResume id)
    else
      let v := { v with farm := v.farm.touch setup none }
      if v.farm.isActive then some (v.dropResume id)
      else some { v with resumes := v.resumes.insert id (.availability config) }
  | some (.availability config), .availability value =>
    if !value.allowed then some (v.dropResume id)
    else some { v.dropResume id with farm := (v.farm.start setup config none true).2 }
  | _, _ => none

/-- A call that ends farming: the commands halt before they wait for the account. -/
def endCalled (v : Service) (kind : EndKind) : Service :=
  { v with
    farm := if kind.haltsAtCall then v.farm.halt kind.reason .halt else v.farm
    ends := v.ends.insert v.drawn ⟨kind, if kind.haltsInside then .called else .halted⟩
    drawn := v.drawn + 1 }

/-- The call goes on: the farming stop to the controller, a command to its turn in the
account queue, where it halts again. -/
def endRuns (setup : Setup) (v : Service) (id : ℕ) : Option Service :=
  match v.ends.lookup id with
  | some ⟨.farmingStop, .called⟩ =>
    match v.farm.stop setup with
    | (.waiting task, farm) =>
      some { v with farm, ends := v.ends.insert id ⟨.farmingStop, .stopping task⟩ }
    | (_, _) => none
  | some ⟨kind, .called⟩ =>
    some { v with
      farm := v.farm.halt kind.reason .halt
      ends := v.ends.insert id ⟨kind, .halted⟩ }
  | _ => none

/-- The call returns; the farming stop once its task is done. -/
def endReturns (v : Service) (id : ℕ) : Option Service :=
  match v.ends.lookup id with
  | some ⟨_, .halted⟩ => some { v with ends := v.ends.erase id, ended := true }
  | some ⟨_, .stopping task⟩ =>
    if (v.farm.tasks.lookup task).isSome then none
    else some { v with ends := v.ends.erase id, ended := true }
  | _ => none

def endThrows (v : Service) (id : ℕ) : Option Service :=
  match v.ends.lookup id with
  | some _ => some { v with ends := v.ends.erase id }
  | none => none

def restart (v : Service) : Service :=
  { empty with
    farm := { Controller.empty with
      now := v.farm.now
      marker := v.farm.marker
      effects := v.farm.effects }
    drawn := v.drawn
    ended := v.ended }

end Service

/-- Everything that happens to the account. `farm` stands for the other calls of the
controller, its timers and the adapter: it starts and stops farming through the
requests alone. -/
inductive ServiceAction where
  | farm (action : Action)
  | startReceived
  | startReads (id : ℕ) (read : Read)
  | resumeCalled
  | resumeReads (id : ℕ) (read : Read)
  | endCalled (kind : EndKind)
  | endRuns (id : ℕ)
  | endReturns (id : ℕ)
  | endThrows (id : ℕ)
  | restart

/-- The account under every interleaving of its requests and any number of restarts. -/
def serviceMachine (setup : Setup) : Transition.Machine Service ServiceAction where
  Starts v := v = .empty
  next v
    | .farm (.start _ _ _) | .farm .stop => none
    | .farm action =>
      ((controllerMachine setup).next v.farm action).map fun farm => { v with farm }
    | .startReceived => some v.startReceived
    | .startReads id read => v.startReads setup id read
    | .resumeCalled => some v.resumeCalled
    | .resumeReads id read => v.resumeReads setup id read
    | .endCalled kind => some (v.endCalled kind)
    | .endRuns id => v.endRuns setup id
    | .endReturns id => v.endReturns id
    | .endThrows id => v.endThrows id
    | .restart => some v.restart

end SteamBee.Farming
