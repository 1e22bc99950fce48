import Mathlib.Data.List.Dedup
import Mathlib.Data.List.Sort
import SteamBee.Data.Table
import SteamBee.Inventory.Contracts
import SteamBee.Transition.Machine

/-! The boost sessions of the accounts: what the status of a worker opens, rotates and closes,
the heartbeat that stamps what is open, and the repair after a crash. A call of the tracker
stops at each of its awaits; the calls of one account are serialised. -/
namespace SteamBee.Steam

abbrev PresetId := ℕ

abbrev SessionId := ℕ

inductive AccountStatus where
  | disconnected
  | connecting
  | online
  | boosting
  | pausedManual
  | pausedOtherSession
  | loginRequired
  | reconnecting
  | error
  deriving DecidableEq, Repr

inductive ActivityMode where
  | idle
  | manual
  | farming
  deriving DecidableEq, Repr

structure BoostActivitySnapshot where
  activityMode : Option ActivityMode
  activeAppIds : Option (List ℕ)
  deriving DecidableEq, Repr

inductive StopReason where
  | status (status : AccountStatus)
  | idle
  | selectionChanged
  | interrupted
  deriving DecidableEq, Repr

structure BoostSession where
  id : SessionId
  accountId : AccountId
  presetId : Option PresetId
  appIds : List ℕ
  startedAt : ℕ
  endedAt : Option ℕ
  stopReason : Option StopReason
  lastSeenAt : Option ℕ
  deriving DecidableEq, Repr

structure BoostAccount where
  activePresetId : Option PresetId
  presets : List PresetId
  games : List (ℕ × Bool)
  deriving DecidableEq, Repr

structure NewSession where
  presetId : Option PresetId
  appIds : List ℕ
  startedAt : ℕ
  deriving DecidableEq, Repr

/-- The await at which a call stands. `next` is the session that follows the end of the open
ones, `existing` the open ones as they were read. -/
inductive Tracking where
  | listing (activity : Option BoostActivitySnapshot)
  | readingAccount (activity : Option BoostActivitySnapshot) (existing : List BoostSession)
  | readingPreset (activity : Option BoostActivitySnapshot) (existing : List BoostSession)
      (presetId : PresetId)
  | clearingPreset (activity : Option BoostActivitySnapshot) (existing : List BoostSession)
  | readingGames (existing : List BoostSession) (presetId : Option PresetId)
  | listingOpen (reason : StopReason) (endedAt : ℕ) (next : Option NewSession)
  | closing (id : SessionId) (rest : List SessionId) (reason : StopReason) (endedAt : ℕ)
      (next : Option NewSession)
  | inserting (session : NewSession)
  | recording (next : Option NewSession)
  deriving DecidableEq, Repr

/-- The process is down, repairs the sessions that a crash left open, or runs. -/
inductive Phase where
  | down
  | listing
  | repairing (rest : List BoostSession)
  | running
  deriving DecidableEq, Repr

/-- `stamps` are the heartbeats whose update is still to be made. -/
structure Tracker where
  accounts : Table AccountId BoostAccount
  sessions : List BoostSession
  calls : Table AccountId Tracking
  stamps : List ℕ
  phase : Phase
  now : ℕ
  drawn : ℕ

def modeOf (activity : Option BoostActivitySnapshot) : Option ActivityMode :=
  activity.bind fun activity => activity.activityMode

def normalizeAppIds (appIds : List ℕ) : List ℕ := appIds.dedup.insertionSort (· ≤ ·)

namespace Tracker

def await (s : Tracker) (accountId : AccountId) (call : Tracking) : Tracker :=
  { s with calls := s.calls.insert accountId call }

def finish (s : Tracker) (accountId : AccountId) : Tracker :=
  { s with calls := s.calls.erase accountId }

def ofAccount (s : Tracker) (accountId : AccountId) : List BoostSession :=
  s.sessions.filter fun row => row.accountId = accountId

def openSessions (s : Tracker) (accountId : AccountId) : List BoostSession :=
  (s.ofAccount accountId).filter fun row => row.endedAt.isNone

def close (s : Tracker) (id : SessionId) (reason : StopReason) (endedAt : ℕ) : Tracker :=
  { s with sessions := s.sessions.map fun row =>
      if row.id = id then { row with endedAt := some endedAt, stopReason := some reason } else row }

def afterEnd (s : Tracker) (accountId : AccountId) : Option NewSession → Tracker
  | some session => s.await accountId (.inserting session)
  | none => s.finish accountId

def endBoostSession (s : Tracker) (accountId : AccountId) (reason : StopReason) (endedAt : ℕ)
    (next : Option NewSession) : Tracker := s.await accountId (.listingOpen reason endedAt next)

/-- `startBoostSession` once it knows the preset and the games. -/
def decideStart (s : Tracker) (accountId : AccountId) (existing : List BoostSession)
    (presetId : Option PresetId) (appIds : List ℕ) : Tracker :=
  let unchanged := match existing with
    | [session] => session.presetId == presetId && normalizeAppIds session.appIds == appIds
    | _ => false
  if unchanged then s.finish accountId
  else
    let session : NewSession := ⟨presetId, appIds, s.now⟩
    if existing ≠ [] then s.endBoostSession accountId .selectionChanged s.now (some session)
    else s.await accountId (.inserting session)

def chooseApps (s : Tracker) (accountId : AccountId) (activity : Option BoostActivitySnapshot)
    (existing : List BoostSession) (presetId : Option PresetId) : Tracker :=
  match activity.bind fun activity => activity.activeAppIds with
  | some appIds => s.decideStart accountId existing presetId (normalizeAppIds appIds)
  | none =>
    if modeOf activity = some .farming then s.decideStart accountId existing presetId []
    else s.await accountId (.readingGames existing presetId)

def trackBoostSession (s : Tracker) (accountId : AccountId) (status : AccountStatus)
    (activity : Option BoostActivitySnapshot) : Tracker :=
  if status = .boosting ∧ modeOf activity ≠ some .idle then s.await accountId (.listing activity)
  else
    s.endBoostSession accountId
      (if modeOf activity = some .idle ∧ status = .boosting then .idle else .status status) s.now
      none

/-- A call of `trackBoostSession`; the one before it has returned. -/
def track (s : Tracker) (accountId : AccountId) (status : AccountStatus)
    (activity : Option BoostActivitySnapshot) : Option Tracker :=
  if s.phase = .running ∧ s.calls.lookup accountId = none then
    some (s.trackBoostSession accountId status activity)
  else none

def insertSession (s : Tracker) (accountId : AccountId) (session : NewSession) : Tracker :=
  { s with
    sessions := s.sessions ++ [⟨s.drawn, accountId, session.presetId, session.appIds,
      session.startedAt, none, none, some session.startedAt⟩]
    drawn := s.drawn + 1 }

/-- The await of a call resolves. An account that was deleted in between lets the insert fail. -/
def proceed (s : Tracker) (accountId : AccountId) : Option Tracker := do
  match ← s.calls.lookup accountId with
  | .listing activity =>
    some (s.await accountId (.readingAccount activity (s.openSessions accountId)))
  | .readingAccount activity existing =>
    match s.accounts.lookup accountId with
    | none => some (s.finish accountId)
    | some account =>
      match if modeOf activity = some .farming then none else account.activePresetId with
      | some presetId => some (s.await accountId (.readingPreset activity existing presetId))
      | none => some (s.chooseApps accountId activity existing none)
  | .readingPreset activity existing presetId =>
    if (s.accounts.lookup accountId).any fun account => presetId ∈ account.presets then
      some (s.chooseApps accountId activity existing (some presetId))
    else some (s.await accountId (.clearingPreset activity existing))
  | .clearingPreset activity existing =>
    some ({ s with accounts := s.accounts.modify accountId fun account =>
        { account with activePresetId := none } }.chooseApps accountId activity existing none)
  | .readingGames existing presetId =>
    let games := (s.accounts.lookup accountId).elim [] fun account => account.games
    some (s.decideStart accountId existing presetId
      (normalizeAppIds ((games.filter fun game => game.2).map fun game => game.1)))
  | .listingOpen reason endedAt next =>
    match (s.openSessions accountId).map fun row => row.id with
    | [] => some (s.afterEnd accountId next)
    | id :: rest => some (s.await accountId (.closing id rest reason endedAt next))
  | .closing id rest reason endedAt next =>
    let s := s.close id reason endedAt
    match rest with
    | [] => some (s.await accountId (.recording next))
    | id :: rest => some (s.await accountId (.closing id rest reason endedAt next))
  | .inserting session =>
    if (s.accounts.lookup accountId).isSome then
      some ((s.insertSession accountId session).await accountId (.recording none))
    else some (s.finish accountId)
  | .recording next => some (s.afterEnd accountId next)

def heartbeat (s : Tracker) : Option Tracker :=
  if s.phase = .running then some { s with stamps := s.now :: s.stamps } else none

def stamp (s : Tracker) (seenAt : ℕ) : Option Tracker :=
  if seenAt ∈ s.stamps then
    some { s with
      stamps := s.stamps.erase seenAt
      sessions := s.sessions.map fun row =>
        if row.endedAt.isNone then { row with lastSeenAt := some seenAt } else row }
  else none

/-- The process is gone, and what it was about to do. -/
def crash (s : Tracker) : Tracker := { s with calls := ∅, stamps := [], phase := .down }

def boot (s : Tracker) : Option Tracker :=
  if s.phase = .down then some { s with phase := .listing } else none

def repair (s : Tracker) : Option Tracker :=
  match s.phase with
  | .listing => some { s with phase := .repairing (s.sessions.filter fun row => row.endedAt.isNone) }
  | .repairing [] => some { s with phase := .running }
  | .repairing (row :: rest) =>
    some { s.close row.id .interrupted (max row.startedAt (row.lastSeenAt.getD row.startedAt)) with
      phase := .repairing rest }
  | _ => none

def remove (s : Tracker) (accountId : AccountId) : Tracker :=
  { s with
    accounts := s.accounts.erase accountId
    sessions := s.sessions.filter fun row => row.accountId ≠ accountId }

def forgetPreset (s : Tracker) (presetId : PresetId) : Tracker :=
  { s with sessions := s.sessions.map fun row =>
      if row.presetId = some presetId then { row with presetId := none } else row }

end Tracker

/-- `configure` stands for the other writers of an account, its presets and its games. -/
inductive TrackerAction where
  | track (accountId : AccountId) (status : AccountStatus)
      (activity : Option BoostActivitySnapshot)
  | proceed (accountId : AccountId)
  | heartbeat
  | stamp (seenAt : ℕ)
  | crash
  | boot
  | repair
  | configure (accountId : AccountId) (account : BoostAccount)
  | remove (accountId : AccountId)
  | forgetPreset (presetId : PresetId)
  | tick (elapsed : ℕ)
  deriving DecidableEq, Repr

def trackerMachine : Transition.Machine Tracker TrackerAction where
  Starts s := ∃ accounts now, s = ⟨accounts, [], ∅, [], .down, now, 0⟩
  next s
    | .track accountId status activity => s.track accountId status activity
    | .proceed accountId => s.proceed accountId
    | .heartbeat => s.heartbeat
    | .stamp seenAt => s.stamp seenAt
    | .crash => some s.crash
    | .boot => s.boot
    | .repair => s.repair
    | .configure accountId account =>
      some { s with accounts := s.accounts.insert accountId account }
    | .remove accountId => some (s.remove accountId)
    | .forgetPreset presetId => some (s.forgetPreset presetId)
    | .tick elapsed => some { s with now := s.now + elapsed }

end SteamBee.Steam
