import Mathlib.Data.List.Dedup
import Mathlib.Logic.Function.Basic
import SteamBee.Data.Sorting
import SteamBee.Inventory.OrderBook
import SteamBee.Transition.Machine

/-! The estimates on the cards of an inventory in the web client: what its hook asks the service
for, and when. One lifetime of the effect, between two changes of what it depends on. -/
namespace SteamBee.Web.Prices
open Inventory Text

inductive PriceStatus where
  | idle | loading | ready | stale | error | unavailable
  deriving DecidableEq, Repr

inductive RowError where
  | unknownVariant | notMarketable | noOrders | belowMinimumFees | outsidePriceLimits
  | currencyMismatch | unsupportedPrice | steamUnavailable | rateLimited
  deriving DecidableEq, Repr

inductive PriceError where
  | row (error : RowError)
  | contextExpired | contextTooLarge | requestFailed
  deriving DecidableEq, Repr

/-- The defaults are `emptyVariantPrice`. -/
structure VariantPriceState where
  status : PriceStatus := .idle
  sourceBuyerPrice : Option ℕ := none
  buyerPrice : Option ℕ := none
  sellerReceivesPerItem : Option ℕ := none
  currency : Option MarketCurrency := none
  priceMode : Option PriceMode := none
  fetchedAt : Option ℕ := none
  freshUntil : Option ℕ := none
  displayUntil : Option ℕ := none
  error : Option PriceError := none
  retryAt : Option ℕ := none
  refreshing : Bool := false
  deriving DecidableEq, Repr

structure OverviewRow where
  variantId : String
  rawReferenceBuyerPrice : Option ℕ
  estimate : Option PriceEstimate
  observedAt : Option ℕ
  freshUntil : Option ℕ
  displayUntil : Option ℕ
  stale : Bool
  error : Option RowError
  retryAt : Option ℕ
  deriving DecidableEq, Repr

structure Overview where
  accountId : String
  inventoryFetchedAt : ℕ
  currency : Option MarketCurrency
  priceMode : PriceMode
  rulesFingerprint : String
  walletFingerprint : Option String
  rows : List OverviewRow
  deriving DecidableEq, Repr

def retryDelay : ℕ := 60000

def permanentErrors : List PriceError :=
  [.row .unknownVariant, .row .notMarketable, .contextTooLarge]

/-- `/^753:6:[1-9]\d{0,24}:\d{1,25}$/`. -/
def isVariantId (id : String) : Bool :=
  match behind "753:6:".toList id.toList with
  | none => false
  | some rest =>
    let classId := rest.takeWhile Char.isDigit
    match rest.dropWhile Char.isDigit with
    | ':' :: instanceId =>
      classId.head?.any (· != '0') && decide (classId.length ≤ 25) &&
        instanceId.all Char.isDigit && decide (1 ≤ instanceId.length ∧ instanceId.length ≤ 25)
    | _ => false

/-- What `api` rejects with. -/
inductive Cause where
  | api (code : String) (status : ℕ)
  | abort
  | other
  deriving DecidableEq, Repr

def Cause.contextExpired : Cause → Bool
  | .api code _ => code == "INVENTORY_PRICE_CONTEXT_EXPIRED"
  | _ => false

def Cause.tooLarge : Cause → Bool
  | .api code _ => code == "INVENTORY_PRICE_CONTEXT_TOO_LARGE"
  | _ => false

def Cause.limited : Cause → Bool
  | .api _ status => status == 429
  | _ => false

/-! ## Records -/

abbrev Records := String → Option VariantPriceState

def usable (value : VariantPriceState) (now : ℕ) : Bool :=
  value.currency.isSome && decide (now < value.displayUntil.getD 0)

/-- `none` stands for `Infinity`. -/
def nextCheck : Option VariantPriceState → Option ℕ
  | none => some 0
  | some value =>
    if value.status = .idle then some 0
    else if value.error.any (· ∈ permanentErrors) then none
    else
      match value.retryAt with
      | some time => some time
      | none => value.freshUntil

def expired (now : ℕ) (value : VariantPriceState) : VariantPriceState :=
  if value.currency.isSome && value.displayUntil.any (· ≤ now) then
    { value with
      sourceBuyerPrice := none
      buyerPrice := none
      sellerReceivesPerItem := none
      currency := none
      status := .error
      error := some (value.error.getD .requestFailed) }
  else if value.status = .ready ∧ value.freshUntil.any (· ≤ now) then
    { value with status := .stale }
  else value

def failed (now : ℕ) (cause : Cause) (record : Option VariantPriceState) : VariantPriceState :=
  let before := record.getD {}
  let keep := usable before now
  { (if keep then before else {}) with
    status := if keep then .stale else .error
    error := some <|
      if cause.tooLarge then .contextTooLarge
      else if cause.contextExpired then .contextExpired
      else if cause.limited then .row .rateLimited
      else .requestFailed
    retryAt := if cause.tooLarge then none else some (now + retryDelay)
    refreshing := false }

def fromRow (now : ℕ) (row : OverviewRow) (overview : Overview) : VariantPriceState :=
  let usableCurrency := overview.currency.isSome && decide (now < row.displayUntil.getD 0)
  let estimate := if usableCurrency then row.estimate else none
  { status :=
      if estimate.isSome then
        if row.stale || decide (row.freshUntil.getD 0 ≤ now) then .stale else .ready
      else .unavailable
    sourceBuyerPrice := if usableCurrency then row.rawReferenceBuyerPrice else none
    buyerPrice := estimate.map fun estimate => estimate.buyerPaysPerItem
    sellerReceivesPerItem := estimate.map fun estimate => estimate.sellerReceivesPerItem
    currency := if usableCurrency then overview.currency else none
    priceMode := some overview.priceMode
    fetchedAt := row.observedAt
    freshUntil := row.freshUntil
    displayUntil := row.displayUntil
    error := row.error.map .row
    retryAt :=
      match row.retryAt, row.error with
      | some time, _ => some time
      | none, some error => if .row error ∈ permanentErrors then none else some (now + retryDelay)
      | none, none => none
    refreshing := false }

def paused (value : VariantPriceState) : VariantPriceState :=
  if value.refreshing then
    if value.status = .loading then {} else { value with refreshing := false }
  else value

/-! ## The effect -/

/-- Where a `pump` waits: for an overview, for the rules to be read again, or for the inventory to
be read again because its context has expired. The first two know the request of the `pump` and
the variants that it asked for. -/
inductive Await where
  | overview (request : ℕ) (ids : List String)
  | rulesRecovery (request : ℕ) (ids : List String)
  | contextRecovery
  deriving DecidableEq, Repr

inductive Note where
  | repair | read | retry
  deriving DecidableEq, Repr

structure Config where
  accountId : String
  inventoryFetchedAt : Option ℕ
  enabled : Bool
  rulesFingerprint : Option String

/-- `shown` is what `hasVisibleDocument` returns. `requests` counts the requests, which have their
numbers from it; `aborted` are those whose signal is aborted. The timer is the delay that it was
set to. `waiting` are the `pump`s that wait, and `notes` is what has happened, latest first. -/
structure PollState where
  shown : Bool
  visible : List String
  records : Records
  wallet : Option String
  observedRules : Option String
  cooldownUntil : ℕ
  repairUsed : Bool
  inFlight : Bool
  repairing : Bool
  timer : Option ℕ
  requests : ℕ
  aborted : List ℕ
  waiting : List Await
  notes : List Note

variable (config : Config) (now : ℕ)

def expire (s : PollState) : PollState :=
  { s with
    records := s.visible.foldl (fun records id =>
      Function.update records id ((records id).map (expired now))) s.records }

def markFailure (ids : List String) (cause : Cause) (s : PollState) : PollState :=
  { s with
    cooldownUntil :=
      if cause.limited then max s.cooldownUntil (now + retryDelay) else s.cooldownUntil
    records := ids.foldl (fun records id =>
      Function.update records id (some (failed now cause (records id)))) s.records }

/-- The times at which a record is shown otherwise. -/
def transitions (value : VariantPriceState) : List ℕ :=
  [if value.status = .ready then value.freshUntil else none,
    if value.currency.isSome then value.displayUntil else none].filterMap fun time =>
      time.filter fun time => decide (now < time)

def armDelay (delay : ℕ) (s : PollState) : ℕ :=
  match (s.visible.flatMap fun id => (s.records id).elim [] (transitions now)).min? with
  | none => max 1 delay
  | some transition => max 1 (min delay (transition - now))

def arm (delay : ℕ) (s : PollState) : PollState :=
  { s with timer := if config.enabled && s.shown then some (armDelay now delay s) else none }

/-- Snapshots of before cannot make trusted reads of variants. -/
def eligible (s : PollState) : List String := s.visible.filter isVariantId

def noteUnknown (s : PollState) : PollState :=
  { s with
    records := s.visible.foldl (fun records id =>
      if isVariantId id || (records id).isSome then records
      else Function.update records id
        (some { status := .unavailable, error := some (.row .unknownVariant) })) s.records }

def request (ids : List String) (s : PollState) : PollState :=
  let s := { s with
    inFlight := true
    requests := s.requests + 1
    records := ids.foldl (fun records id =>
      let before := (records id).getD {}
      Function.update records id (some (if usable before now then { before with refreshing := true }
        else { status := .loading, refreshing := true }))) s.records }
  let s := arm config now retryDelay s
  { s with waiting := .overview (s.requests - 1) ids :: s.waiting }

/-- `pump` from where the variants are chosen on. -/
def choose (s : PollState) : PollState :=
  let ids := ((eligible s).filter fun id => (nextCheck (s.records id)).any (· ≤ now)).take 5
  if ids.isEmpty then
    match ((eligible s).filterMap fun id => nextCheck (s.records id)).min? with
    | none => s
    | some next => arm config now (max 150 (next - now)) s
  else request config now ids s

def pump (s : PollState) : PollState :=
  if !(config.enabled && s.shown) then s
  else
    let s := expire now s
    if s.inFlight || s.repairing then arm config now retryDelay s
    else if now < s.cooldownUntil then arm config now (s.cooldownUntil - now) s
    else choose config now (noteUnknown s)

/-- The `finally` of `pump`. -/
def finish (s : PollState) : PollState := arm config now 150 { s with inFlight := false }

/-- The `catch` of `pump`. A context is repaired once until a read succeeds. -/
def fail (request : ℕ) (ids : List String) (cause : Cause) (s : PollState) : PollState :=
  if request ∈ s.aborted ∨ cause = .abort then finish config now s
  else if cause.contextExpired && !s.repairUsed then
    { markFailure now ids cause s with
      repairUsed := true
      repairing := true
      waiting := .contextRecovery :: s.waiting
      notes := .repair :: s.notes }
  else finish config now (markFailure now ids cause s)

/-- The rules of the account are no longer those of the estimates. -/
def rulesChanged (s : PollState) : PollState :=
  { s with
    records := fun id => (s.records id).map fun value =>
      { value with
        buyerPrice := none
        sellerReceivesPerItem := none
        status := .unavailable
        error := some .requestFailed
        refreshing := false
        retryAt := some (now + retryDelay) } }

def acceptRow (overview : Overview) (s : PollState) (id : String) : PollState :=
  match overview.rows.find? fun row => row.variantId == id with
  | none => markFailure now [id] .other s
  | some row =>
    let kept := (s.records id).filter fun previous =>
      overview.currency.isNone &&
        (row.error == some .rateLimited || row.error == some .steamUnavailable) &&
        usable previous now
    match kept with
    | some previous =>
      { s with
        records := Function.update s.records id (some { previous with
          status := .stale
          refreshing := false
          error := row.error.map .row
          retryAt := some (row.retryAt.getD (now + retryDelay)) }) }
    | none => { s with records := Function.update s.records id (some (fromRow now row overview)) }

def observe (overview : Overview) (s : PollState) : PollState :=
  let otherRules := s.observedRules.any (· != overview.rulesFingerprint)
  let otherWallet := s.wallet.any fun wallet => overview.walletFingerprint.any (· != wallet)
  { s with
    records := if otherRules || otherWallet then fun _ => none else s.records
    observedRules := some overview.rulesFingerprint
    wallet := overview.walletFingerprint.or s.wallet }

def accept (ids : List String) (overview : Overview) (s : PollState) : PollState :=
  let s := ids.foldl (acceptRow now overview) (observe overview s)
  let limitedRows := overview.rows.filter fun row => row.error == some .rateLimited
  { s with
    cooldownUntil := limitedRows.foldl (fun cooldown row =>
      max cooldown (row.retryAt.getD (now + retryDelay))) s.cooldownUntil
    repairUsed := false
    notes := .read :: s.notes }

/-- `pump` from the response on; `recovers` says that there is an `onRulesChanged`. -/
def respond (request : ℕ) (ids : List String) (overview : Overview) (recovers : Bool)
    (s : PollState) : PollState :=
  if request ∈ s.aborted then finish config now s
  else if overview.accountId ≠ config.accountId ∨
      overview.inventoryFetchedAt < config.inventoryFetchedAt.getD 0 then
    fail config now request ids .other s
  else if config.rulesFingerprint.any (· != overview.rulesFingerprint) then
    if recovers then
      { rulesChanged now s with
        repairing := true
        waiting := .rulesRecovery request ids :: s.waiting }
    else finish config now (rulesChanged now s)
  else finish config now (accept now ids overview s)

def visibilityChanged (s : PollState) : PollState :=
  if s.shown then arm config now 150 s
  else
    { s with
      timer := none
      aborted := if s.requests = 0 then s.aborted else (s.requests - 1) :: s.aborted
      records := fun id => (s.records id).map paused }

/-- The order of strings by their units of 16 bits, which `sort` uses. -/
def unitsBefore (left right : String) : Bool :=
  let units (s : String) := s.toList.flatMap fun c =>
    if c.toNat < 0x10000 then [c.toNat]
    else [0xd800 + (c.toNat - 0x10000) / 0x400, 0xdc00 + (c.toNat - 0x10000) % 0x400]
  !(units right).lex (units left)

def onVisibleVariantsChange (ids : List String) (s : PollState) : PollState :=
  let next := ids.dedup.insertionSort (unitsBefore · ·)
  if "\n".intercalate next = "\n".intercalate s.visible then s
  else arm config now 150 { s with visible := next }

def retryImpl (id : Option String) (s : PollState) : PollState :=
  let targets := match id.filter (· != "") with
    | some id => [id]
    | none => s.visible
  arm config now 150 { s with
    repairUsed := false
    records := targets.foldl (fun records target =>
      if (records target).any fun value => value.error == some (.row .rateLimited) &&
          decide (now < value.retryAt.getD 0) then records
      else Function.update records target none) s.records
    notes := .retry :: s.notes }

/-! ## Runs -/

inductive Outcome where
  | response (overview : Overview) (recovers : Bool)
  | resolved
  | rejected (cause : Cause)

def resume (s : PollState) : Await → Outcome → Option PollState
  | .overview request ids, .response overview recovers =>
    some (respond config now request ids overview recovers s)
  | .overview request ids, .rejected cause => some (fail config now request ids cause s)
  | .rulesRecovery _ _, .resolved => some (finish config now { s with repairing := false })
  | .rulesRecovery request ids, .rejected cause =>
    some (fail config now request ids cause { s with repairing := false })
  | .contextRecovery, .resolved => some (finish config now { s with repairing := false })
  | .contextRecovery, .rejected _ => some (finish config now { s with repairing := false })
  | _, _ => none

inductive PollEvent where
  | visibilityChange (shown : Bool)
  | visibleVariants (ids : List String)
  | retry (id : Option String)
  | fire
  | settle (index : ℕ) (outcome : Outcome)

/-- An event at a time. A timer may fire at any time: a delay that is too long for it is none. -/
def next (s : PollState) : ℕ × PollEvent → Option PollState
  | (now, .visibilityChange shown) => some (visibilityChanged config now { s with shown })
  | (now, .visibleVariants ids) => some (onVisibleVariantsChange config now ids s)
  | (now, .retry id) => some (retryImpl config now id s)
  | (now, .fire) => s.timer.map fun _ => pump config now { s with timer := none }
  | (now, .settle index outcome) =>
    s.waiting[index]?.bind fun await =>
      resume config now { s with waiting := s.waiting.eraseIdx index } await outcome

/-- What the effect finds when it is run: refs with any content, and no variables of its own. -/
structure Fresh (s : PollState) : Prop where
  inFlight : s.inFlight = false
  repairing : s.repairing = false
  timer : s.timer = none
  requests : s.requests = 0
  aborted : s.aborted = []
  waiting : s.waiting = []
  notes : s.notes = []

def pollMachine : Transition.Machine PollState (ℕ × PollEvent) where
  Starts s := ∃ found now, Fresh found ∧ s = arm config now 150 (expire now found)
  next := next config

end SteamBee.Web.Prices
