import Mathlib.Data.List.Sort
import Mathlib.Data.Rat.Defs
import Mathlib.Algebra.Order.Ring.Rat
import SteamBee.Data.Table
import SteamBee.Inventory.Contracts

/-! A farming session and the computations that do not wait: the badge games, the
rules that skip them, their order, their prices and the selection to play.
Times are milliseconds, playtimes exact minutes. -/
namespace SteamBee.Farming

abbrev AppId := ℕ

structure CardValue where
  average : ℚ
  text : String
  deriving DecidableEq

inductive SkipReason where
  | blacklisted | notWhitelisted | refundWindow | purchaseDateUnknown
  deriving DecidableEq, Repr

structure FarmingGame where
  appId : AppId
  name : String
  remainingDrops : ℕ
  playtimeMinutes : Option ℚ
  acquiredAt : Option ℕ
  skipReason : Option SkipReason
  cardValue : Option CardValue
  deriving DecidableEq

inductive FarmingOrder where
  | default | cardValue | dropsDesc | dropsAsc | hoursDesc | acquiredAsc | name
  deriving DecidableEq, Repr

structure FarmingConfig where
  maxConcurrentGames : ℕ := 32
  skipRefundable : Bool := true
  whitelist : List AppId := []
  blacklist : List AppId := []
  autoResume : Bool := true
  order : FarmingOrder := .default
  priority : List AppId := []
  deriving DecidableEq, Repr

inductive FarmingPhase where
  | stopped | scanning | warming | farming | completed | blocked | error
  deriving DecidableEq, Repr

structure FarmingSnapshot where
  accountId : AccountId
  phase : FarmingPhase
  config : FarmingConfig
  games : List FarmingGame
  activeAppIds : List AppId
  remainingDrops : ℕ
  scannedAt : Option ℕ
  startedAt : Option ℕ
  truncated : Bool
  reason : Option String
  canStart : Bool
  gameLimit : ℕ
  pricing : Bool
  deriving DecidableEq

structure FarmingAvailability where
  allowed : Bool
  reason : Option String
  gameLimit : ℕ
  deriving DecidableEq, Repr

structure Discovery where
  games : List FarmingGame
  truncated : Bool
  deriving DecidableEq

/-- What the controller of one account is built with: the optional members of the
adapter, the periods, and the collation of `localeCompare`. -/
structure Setup where
  accountId : AccountId
  hasBegin : Bool := true
  hasCardValues : Bool := true
  tickMs : ℕ := 60000
  scanMs : ℕ := 5 * 60000
  localeCompare : String → String → Ordering

structure CardPrice where
  value : Option CardValue
  readAt : ℕ
  deriving DecidableEq

abbrev TimerId := ℕ

structure Session where
  snapshot : FarmingSnapshot
  generation : ℕ
  timer : Option TimerId
  activeSince : Option ℕ
  applied : Bool
  badgeOrder : List AppId
  cardValues : Table AppId CardPrice
  deriving DecidableEq

def maxSafeInteger : ℕ := 2 ^ 53 - 1

def cardValueTtl : ℕ := 24 * 60 * 60000

def missingCardValueTtl : ℕ := 6 * 60 * 60000

/-- Interruptions that do not mean the user wanted farming to end. -/
def resumableHalts : List String :=
  ["shutdown", "shutting_down", "connecting", "reconnecting", "disconnected", "error",
    "not_connected"]

def FarmingPhase.isActive : FarmingPhase → Bool
  | .scanning | .warming | .farming => true
  | _ => false

/-- The position that `new Map(ids.map((id, index) => [id, index]))` gives an id. -/
def mapIndex (ids : List AppId) (appId : AppId) : Option ℕ :=
  (ids.zipIdx.reverse.find? fun e => e.1 = appId).map Prod.snd

/-- Why a game is left out under the settings, at the time `now`. -/
def skipReasonOf (config : FarmingConfig) (now : ℕ) (game : FarmingGame) : Option SkipReason :=
  if game.appId ∈ config.blacklist then some .blacklisted
  else if 0 < config.whitelist.length ∧ game.appId ∉ config.whitelist then some .notWhitelisted
  else if !config.skipRefundable ∨ 120 ≤ game.playtimeMinutes.getD 0 then none
  else match game.acquiredAt with
    | none => some .purchaseDateUnknown
    | some acquiredAt =>
      if now < acquiredAt then some .purchaseDateUnknown
      else if now - acquiredAt ≤ 14 * 24 * 60 * 60000 then some .refundWindow
      else none

def strategy (setup : Setup) (order : FarmingOrder) (left right : FarmingGame) : Ordering :=
  let average (game : FarmingGame) : ℚ := (game.cardValue.map CardValue.average).getD (-1)
  match order with
  | .cardValue => compare (average right) (average left)
  | .dropsDesc => compare right.remainingDrops left.remainingDrops
  | .dropsAsc => compare left.remainingDrops right.remainingDrops
  | .hoursDesc => compare (right.playtimeMinutes.getD 0) (left.playtimeMinutes.getD 0)
  | .acquiredAsc =>
    compare (left.acquiredAt.getD maxSafeInteger) (right.acquiredAt.getD maxSafeInteger)
  | .name => setup.localeCompare left.name right.name
  | .default => .eq

/-- Pinned games first in their order, then the chosen strategy, then badge order. -/
def compareGames (setup : Setup) (config : FarmingConfig) (badgeOrder : List AppId)
    (left right : FarmingGame) : Ordering :=
  let pin (game : FarmingGame) := (mapIndex config.priority game.appId).getD maxSafeInteger
  let badge (game : FarmingGame) := (mapIndex badgeOrder game.appId).getD maxSafeInteger
  (compare (pin left) (pin right)).then <|
    (strategy setup config.order left right).then (compare (badge left) (badge right))

/-- The games without a fresh price, among those the value order is for. -/
def missingPrices (now : ℕ) (cardValues : Table AppId CardPrice) (games : List FarmingGame) :
    List AppId :=
  let wanted (game : FarmingGame) : Bool :=
    decide (0 < game.remainingDrops) && game.skipReason.isNone &&
      match cardValues.lookup game.appId with
      | none => true
      | some known =>
        decide (known.readAt + (if known.value.isSome then cardValueTtl else missingCardValueTtl) < now)
  (games.filter wanted).map FarmingGame.appId

/-- The games to play: a pulled-forward game alone, else a warm-up batch, else one game. -/
structure Selection where
  appIds : List AppId
  warmingUp : Bool
  noneEligible : Bool
  deriving DecidableEq

def eligibleGames (games : List FarmingGame) : List FarmingGame :=
  games.filter fun game => game.skipReason.isNone && decide (0 < game.remainingDrops)

def select (config : FarmingConfig) (gameLimit : ℕ) (games : List FarmingGame) : Selection :=
  let eligible := eligibleGames games
  let warming := eligible.filter fun game => decide (game.playtimeMinutes.getD 0 < 120)
  let limit := min 32 (min config.maxConcurrentGames gameLimit)
  let pulled := eligible.head?.any fun first => decide (first.appId ∈ config.priority)
  let warmingUp := !pulled && !warming.isEmpty
  let selection :=
    if pulled then (eligible.take 1).take limit
    else if warmingUp then warming.take limit
    else eligible.take (min 1 limit)
  { appIds := selection.map FarmingGame.appId, warmingUp, noneEligible := eligible.isEmpty }

/-- Add minutes to the first game with this id. -/
def creditGame (elapsed : ℚ) (appId : AppId) : List FarmingGame → List FarmingGame
  | [] => []
  | game :: games =>
    if game.appId = appId then
      { game with playtimeMinutes := some (game.playtimeMinutes.getD 0 + elapsed) } :: games
    else game :: creditGame elapsed appId games

namespace Session

def new (setup : Setup) (config : Option FarmingConfig) : Session where
  snapshot := {
    accountId := setup.accountId
    phase := .stopped
    config := config.getD {}
    games := []
    activeAppIds := []
    remainingDrops := 0
    scannedAt := none
    startedAt := none
    truncated := false
    reason := none
    canStart := false
    gameLimit := 32
    pricing := false }
  generation := 0
  timer := none
  activeSince := none
  applied := false
  badgeOrder := []
  cardValues := ∅

def isActive (s : Session) : Bool := s.snapshot.phase.isActive

def setGames (s : Session) (games : List FarmingGame) : Session :=
  { s with snapshot := { s.snapshot with games } }

def orderGames (setup : Setup) (s : Session) : Session :=
  s.setGames <| s.snapshot.games.insertionSort fun left right =>
    compareGames setup s.snapshot.config s.badgeOrder left right ≠ .gt

/-- Decide on a background lookup of missing prices: the ids to ask for, if any. -/
def priceGames (setup : Setup) (now : ℕ) (shuttingDown : Bool) (s : Session) :
    Session × Option (List AppId) :=
  if !setup.hasCardValues || s.snapshot.pricing || shuttingDown ||
      s.snapshot.config.order != .cardValue then (s, none)
  else
    let missing := missingPrices now s.cardValues s.snapshot.games
    if missing.isEmpty then (s, none)
    else ({ s with snapshot := { s.snapshot with pricing := true } }, some missing)

def filterGames (setup : Setup) (now : ℕ) (shuttingDown : Bool) (s : Session) :
    Session × Option (List AppId) :=
  let s := s.setGames <| s.snapshot.games.map fun game =>
    { game with skipReason := skipReasonOf s.snapshot.config now game }
  (s.orderGames setup).priceGames setup now shuttingDown

/-- A rescan keeps the larger playtime of the badge page and the local estimate. -/
def updateGames (setup : Setup) (now : ℕ) (shuttingDown : Bool) (discovery : Discovery)
    (s : Session) : Session × Option (List AppId) :=
  let update (game : FarmingGame) : FarmingGame :=
    let previous := s.snapshot.games.reverse.find? fun old => old.appId = game.appId
    let observed := max (game.playtimeMinutes.getD 0)
      ((previous.bind FarmingGame.playtimeMinutes).getD 0)
    { game with
      playtimeMinutes := if observed ≠ 0 then some observed else game.playtimeMinutes
      skipReason := none
      cardValue := (s.cardValues.lookup game.appId).bind CardPrice.value }
  { s with
    badgeOrder := discovery.games.map FarmingGame.appId
    snapshot := { s.snapshot with
      games := discovery.games.map update
      scannedAt := some now
      truncated := discovery.truncated
      remainingDrops :=
        discovery.games.foldl (fun total (game : FarmingGame) => total + game.remainingDrops) 0 } }.filterGames
    setup now shuttingDown

def setPrices (setup : Setup) (now : ℕ) (values : List (AppId × Option CardValue))
    (s : Session) : Session :=
  let cardValues := values.foldl (fun known e => known.insert e.1 ⟨e.2, now⟩) s.cardValues
  let games := s.snapshot.games.map fun game =>
    { game with cardValue := (cardValues.lookup game.appId).bind CardPrice.value }
  { s.setGames games with cardValues }.orderGames setup

def creditPlaytime (now : ℕ) (s : Session) : Session :=
  match s.activeSince with
  | none => s
  | some activeSince =>
    let elapsed : ℚ := max 0 (((now : ℚ) - activeSince) / 60000)
    let games := s.snapshot.activeAppIds.foldl (fun games appId => creditGame elapsed appId games)
      s.snapshot.games
    { s.setGames games with activeSince := some now }

def halt (reason : String) (s : Session) : Session :=
  { s with
    generation := s.generation + 1
    timer := none
    activeSince := none
    applied := false
    snapshot :=
      if reason = "stopped" ∨ s.isActive then
        { s.snapshot with
          activeAppIds := []
          phase := if reason = "stopped" then .stopped else .blocked
          reason := if reason = "stopped" then none else some reason }
      else { s.snapshot with activeAppIds := [] } }

def observe (value : FarmingAvailability) (s : Session) : Session :=
  { s with snapshot := { s.snapshot with canStart := value.allowed, gameLimit := value.gameLimit } }

/-- What the session shows when no game is left to play. -/
def complete (noneEligible : Bool) (s : Session) : Session :=
  { s with
    activeSince := none
    snapshot := { s.snapshot with
      phase := .completed
      reason :=
        if noneEligible && !s.snapshot.games.isEmpty then some "no_eligible_games" else none
      activeAppIds := [] } }

/-- The part of a session that decides what runs: the computations on games, prices
and playtimes keep it. -/
structure SameControl (s t : Session) : Prop where
  generation : t.generation = s.generation
  timer : t.timer = s.timer
  applied : t.applied = s.applied
  phase : t.snapshot.phase = s.snapshot.phase
  activeAppIds : t.snapshot.activeAppIds = s.snapshot.activeAppIds

theorem SameControl.refl (s : Session) : s.SameControl s := ⟨rfl, rfl, rfl, rfl, rfl⟩

theorem SameControl.isActive {s t : Session} (h : s.SameControl t) : t.isActive = s.isActive :=
  congrArg FarmingPhase.isActive h.phase

theorem sameControl_priceGames (setup : Setup) (now : ℕ) (shuttingDown : Bool) (s : Session) :
    s.SameControl (s.priceGames setup now shuttingDown).1 := by
  unfold priceGames
  dsimp only
  split_ifs
  · exact .refl s
  · exact .refl s
  · exact ⟨rfl, rfl, rfl, rfl, rfl⟩

theorem sameControl_filterGames (setup : Setup) (now : ℕ) (shuttingDown : Bool) (s : Session) :
    s.SameControl (s.filterGames setup now shuttingDown).1 := by
  unfold filterGames
  dsimp only
  have h := sameControl_priceGames setup now shuttingDown
  exact ⟨(h _).generation, (h _).timer, (h _).applied, (h _).phase, (h _).activeAppIds⟩

theorem sameControl_updateGames (setup : Setup) (now : ℕ) (shuttingDown : Bool)
    (discovery : Discovery) (s : Session) :
    s.SameControl (s.updateGames setup now shuttingDown discovery).1 := by
  unfold updateGames
  dsimp only
  have h := sameControl_filterGames setup now shuttingDown
  exact ⟨(h _).generation, (h _).timer, (h _).applied, (h _).phase, (h _).activeAppIds⟩

theorem sameControl_setPrices (setup : Setup) (now : ℕ)
    (values : List (AppId × Option CardValue)) (s : Session) :
    s.SameControl (s.setPrices setup now values) := ⟨rfl, rfl, rfl, rfl, rfl⟩

theorem sameControl_creditPlaytime (now : ℕ) (s : Session) :
    s.SameControl (s.creditPlaytime now) := by
  unfold creditPlaytime
  split
  · exact .refl s
  · exact ⟨rfl, rfl, rfl, rfl, rfl⟩

@[simp] theorem halt_generation (reason : String) (s : Session) :
    (s.halt reason).generation = s.generation + 1 := rfl

@[simp] theorem halt_timer (reason : String) (s : Session) : (s.halt reason).timer = none := rfl

theorem halt_phase (reason : String) (s : Session) : (s.halt reason).snapshot.phase =
    if reason = "stopped" then .stopped
    else if s.isActive then .blocked else s.snapshot.phase := by
  unfold halt
  by_cases hr : reason = "stopped"
  · simp [hr]
  · by_cases ha : s.isActive = true <;> simp [hr, ha]

theorem halt_isActive (reason : String) (s : Session) : (s.halt reason).isActive = false := by
  show (s.halt reason).snapshot.phase.isActive = false
  rw [halt_phase]
  split_ifs with hr ha
  · rfl
  · rfl
  · simpa [isActive] using ha

end Session
end SteamBee.Farming
