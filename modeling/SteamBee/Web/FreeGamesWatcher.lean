import SteamBee.Data.Table
import SteamBee.Transition.Machine
import SteamBee.Web.OfferNotifications

/-! The watchers of the free games of an account, one for each tab in which notices are enabled.
Their commits share the local storage, one at a time. -/
namespace SteamBee.Web
open Text

abbrev WatcherId := ℕ

/-- Where the poll of a watcher stands: it waits for the lock, or for the continuation behind
the commit of the given number. -/
inductive PollPhase where
  | idle
  | waiting (fallback : OfferNotificationState) (offers : List FreeGameOffer) (baseline : Bool)
  | settling (snapshot : OfferSnapshot) (commit : Option ℕ)
  deriving DecidableEq, Repr

structure OfferWatcher where
  preference : OfferNotificationState
  baseline : Bool
  cancelled : Bool
  phase : PollPhase
  deriving DecidableEq, Repr

def OfferWatcher.isCurrent (watcher : OfferWatcher) : Bool :=
  !watcher.cancelled && watcher.preference.enabled

def offerIds (offers : List FreeGameOffer) : List ℤ :=
  offers.filterMap fun offer => offerId offer.appId

structure OfferCommit where
  observed : List ℤ
  establishes : Bool
  newOffers : List FreeGameOffer
  deriving DecidableEq, Repr

/-- `announced` has what was shown, each with the number of its commit. -/
structure WatcherState where
  storage : OfferStorage
  watchers : Table WatcherId OfferWatcher
  commits : List OfferCommit
  announced : List (Option ℕ × List FreeGameOffer)

inductive WatcherAction where
  | mount (id : WatcherId) (preference : OfferNotificationState)
  | hear (id : WatcherId) (state : OfferNotificationState)
  | cancel (id : WatcherId)
  | answer (id : WatcherId) (offers : List FreeGameOffer)
  | commit (id : WatcherId)
  | settle (id : WatcherId)
  deriving DecidableEq, Repr

namespace WatcherState

def setWatcher (s : WatcherState) (id : WatcherId) (watcher : OfferWatcher) : WatcherState :=
  { s with watchers := s.watchers.insert id watcher }

def commit (s : WatcherState) (id : WatcherId) (watcher : OfferWatcher)
    (fallback : OfferNotificationState) (offers : List FreeGameOffer) (baseline : Bool) :
    WatcherState :=
  let merged := mergedState s.storage (normalizeState fallback.value)
  let current := watcher.isCurrent
  let result := commitOfferSnapshot s.storage fallback offers baseline current current
  if current && merged.enabled then
    { s with
      storage := result.1
      watchers := s.watchers.insert id
        { watcher with phase := .settling result.2 (some s.commits.length) }
      commits := s.commits ++
        [⟨offerIds offers, baseline || !merged.baselined, result.2.newOffers⟩] }
  else
    { s with
      storage := result.1
      watchers := s.watchers.insert id { watcher with phase := .settling result.2 none } }

/-- The continuation behind a commit. -/
def settle (s : WatcherState) (id : WatcherId) (watcher : OfferWatcher)
    (snapshot : OfferSnapshot) (number : Option ℕ) : WatcherState :=
  if watcher.isCurrent then
    { s with
      watchers := s.watchers.insert id
        { watcher with baseline := false, preference := snapshot.state, phase := .idle }
      announced :=
        if snapshot.newOffers.isEmpty then s.announced
        else s.announced ++ [(number, snapshot.newOffers)] }
  else s.setWatcher id { watcher with phase := .idle }

end WatcherState

def watcherNext (s : WatcherState) : WatcherAction → Option WatcherState
  | .mount id preference =>
    if (s.watchers.lookup id).isSome then none
    else some (s.setWatcher id ⟨preference, true, false, .idle⟩)
  | .hear id state =>
    (s.watchers.lookup id).map fun watcher =>
      s.setWatcher id { watcher with preference := state }
  | .cancel id =>
    (s.watchers.lookup id).map fun watcher => s.setWatcher id { watcher with cancelled := true }
  | .answer id offers =>
    match s.watchers.lookup id with
    | some watcher =>
      if watcher.phase = .idle ∧ watcher.isCurrent = true then
        some (s.setWatcher id
          { watcher with phase := .waiting watcher.preference offers watcher.baseline })
      else none
    | none => none
  | .commit id =>
    match s.watchers.lookup id with
    | some watcher =>
      match watcher.phase with
      | .waiting fallback offers baseline => some (s.commit id watcher fallback offers baseline)
      | _ => none
    | none => none
  | .settle id =>
    match s.watchers.lookup id with
    | some watcher =>
      match watcher.phase with
      | .settling snapshot number => some (s.settle id watcher snapshot number)
      | _ => none
    | none => none

/-- The storage may hold anything at first. -/
def watcherMachine : Transition.Machine WatcherState WatcherAction where
  Starts s := s.watchers = ∅ ∧ s.commits = [] ∧ s.announced = []
  next := watcherNext

end SteamBee.Web
