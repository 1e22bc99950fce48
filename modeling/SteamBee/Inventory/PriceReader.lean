import SteamBee.Data.Recency
import SteamBee.Inventory.OrderBook

/-! The observations of the price reader: those it keeps, those that calls share while they are
read, and those that stand in for a read that fails. The reactions to a settled promise run
before time passes. -/
namespace SteamBee.Inventory
open Text SteamData

namespace PriceReader

structure Observation where
  lowestSellOrder : Option ℕ
  highestBuyOrder : Option ℕ
  observedAt : ℕ
  freshUntil : ℕ
  displayUntil : ℕ
  stale : Bool
  error : Option ReadPriceError
  retryAt : Option ℕ
  deriving DecidableEq, Repr

def maxPublicEntries : ℕ := 2000

def itemIdTtl : ℕ := 6 * 60 * 60000

def priceTtl : ℕ := 60000

def displayTtl : ℕ := 5 * 60000

/-- A `Map`, whose entries stand in the order of their insertion. -/
abbrev Cache (K V : Type) := List (K × V)

section Cache
variable {K V : Type} [DecidableEq K]

def find (cache : Cache K V) (key : K) : Option V :=
  (cache.find? fun e => e.1 = key).map Prod.snd

def delete (cache : Cache K V) (key : K) : Cache K V := cache.filter fun e => e.1 ≠ key

/-- The entry becomes the last one, and the first ones leave beyond the limit. -/
def remember (cache : Cache K V) (key : K) (value : V) (limit : ℕ) : Cache K V :=
  (delete cache key ++ [(key, value)]).newest limit

end Cache

structure ObservationKey where
  marketHashName : String
  currencyId : ℕ
  country : String
  deriving DecidableEq, Repr

structure PriceCall where
  accountId : AccountId
  marketHashName : String
  wallet : Wallet
  deriving DecidableEq

def PriceCall.key (call : PriceCall) : ObservationKey :=
  ⟨call.marketHashName, call.wallet.currency.id, call.wallet.country⟩

inductive FlightStage where
  | itemId
  | histogram (itemId : String)
  deriving DecidableEq, Repr

/-- A shared read: the call that began it, what it found in the cache, and who awaits it. -/
structure Flight where
  call : PriceCall
  cached : Option Observation
  stage : FlightStage
  callers : List PriceCall
  deriving DecidableEq

structure Returned where
  call : PriceCall
  observation : Observation
  returnedAt : ℕ
  deriving DecidableEq

end PriceReader

open PriceReader

structure PriceReader where
  now : ℕ
  itemIds : Cache String (String × ℕ)
  itemIdFlights : List (AccountId × String)
  observations : Cache ObservationKey Observation
  observationFlights : Table ObservationKey Flight
  returned : List Returned

namespace PriceReader

def empty (now : ℕ) : PriceReader := ⟨now, [], [], [], ∅, []⟩

def resolve (s : PriceReader) (callers : List PriceCall) (observation : Observation) :
    PriceReader :=
  { s with returned := s.returned ++ callers.map fun call => ⟨call, observation, s.now⟩ }

def bookData (book : ListingOrderBook) : Fields :=
  [("lowest_sell_order", priceField book.lowestSellOrder),
    ("highest_buy_order", priceField book.highestBuyOrder)]

def bookFor (wallet : Wallet) (book : ListingOrderBook) : Except PriceReadError Fields :=
  if book.currencyId ≠ wallet.currency.id then .error ⟨.unsupportedPrice, none⟩
  else .ok (bookData book)

def histogramData (body : List Char) : Except PriceReadError Fields :=
  match parseObject body with
  | none => .error ⟨.unsupportedPrice, none⟩
  | some data => if success (get data "success") then .ok data else .error unavailable

def sides (data : Fields) : Except PriceReadError (Option ℕ × Option ℕ) :=
  match orderPrice (get data "lowest_sell_order"), orderPrice (get data "highest_buy_order") with
  | .ok lowestSellOrder, .ok highestBuyOrder => .ok (lowestSellOrder, highestBuyOrder)
  | .error code, _ | _, .error code => .error ⟨code, none⟩

def observedNow (now : ℕ) (prices : Option ℕ × Option ℕ) : Observation where
  lowestSellOrder := prices.1
  highestBuyOrder := prices.2
  observedAt := now
  freshUntil := now + priceTtl
  displayUntil := now + displayTtl
  stale := false
  error := none
  retryAt := none

def Observation.failed (o : Observation) (failure : PriceReadError) : Observation :=
  { o with stale := true, error := some failure.code, retryAt := failure.retryAt }

/-- A flight ends with the order book or without; the observation it began with stands in while
it may be displayed. -/
def settle (s : PriceReader) (flight : Flight) (data : Except PriceReadError Fields) :
    PriceReader :=
  let s := { s with observationFlights := s.observationFlights.erase flight.call.key }
  match data.bind sides with
  | .ok prices =>
    let value := observedNow s.now prices
    { s with observations := remember s.observations flight.call.key value maxPublicEntries
      }.resolve flight.callers value
  | .error failure =>
    match flight.cached with
    | some cached =>
      if s.now < cached.displayUntil then s.resolve flight.callers (cached.failed failure) else s
    | none => s

/-- A flight begins: the item's number is known, or its listing page is read. -/
def depart (s : PriceReader) (call : PriceCall) (cached : Option Observation) : PriceReader :=
  let fly (s : PriceReader) (stage : FlightStage) : PriceReader :=
    { s with
      observationFlights := s.observationFlights.insert call.key ⟨call, cached, stage, [call]⟩ }
  match find s.itemIds call.marketHashName with
  | some known =>
    if s.now < known.2 then
      fly { s with itemIds := remember s.itemIds call.marketHashName known maxPublicEntries }
        (.histogram known.1)
    else
      fly { s with
        itemIds := delete s.itemIds call.marketHashName
        itemIdFlights := s.itemIdFlights.insert (call.accountId, call.marketHashName) } .itemId
  | none =>
    fly { s with itemIdFlights := s.itemIdFlights.insert (call.accountId, call.marketHashName) }
      .itemId

def share (s : PriceReader) (call : PriceCall) (cached : Option Observation) : PriceReader :=
  match s.observationFlights.lookup call.key with
  | some flight =>
    { s with
      observationFlights := s.observationFlights.insert call.key
        { flight with callers := flight.callers ++ [call] } }
  | none => s.depart call cached

def observation (s : PriceReader) (call : PriceCall) : PriceReader :=
  if !isReadableName call.marketHashName then s
  else
    match find s.observations call.key with
    | none => s.share call none
    | some cached =>
      if cached.displayUntil ≤ s.now then
        { s with observations := delete s.observations call.key }.share call none
      else if s.now < cached.freshUntil then
        { s with observations := remember s.observations call.key cached maxPublicEntries
          }.resolve [call] cached
      else s.share call (some cached)

def awaitingItemId (s : PriceReader) (accountId : AccountId) (marketHashName : String) :
    List Flight :=
  (s.observationFlights.entries.map Sigma.snd).filter fun flight =>
    flight.stage = .itemId ∧ flight.call.accountId = accountId ∧
      flight.call.marketHashName = marketHashName

/-- The number of the item is known: the flight reads the histogram. -/
def proceed (itemId : String) (s : PriceReader) (flight : Flight) : PriceReader :=
  { s with
    observationFlights := s.observationFlights.insert flight.call.key
      { flight with stage := .histogram itemId } }

/-- The read of a listing page settles, and with it the flights that await it. -/
def listing (s : PriceReader) (accountId : AccountId) (marketHashName : String)
    (page : Except PriceReadError (List Char)) : Option PriceReader :=
  if (accountId, marketHashName) ∈ s.itemIdFlights then
    let flights := s.awaitingItemId accountId marketHashName
    let s := { s with itemIdFlights := s.itemIdFlights.erase (accountId, marketHashName) }
    let finish (data : Flight → Except PriceReadError Fields) : PriceReader :=
      flights.foldl (fun s flight => s.settle flight (data flight)) s
    some <| match page with
      | .error failure => finish fun _ => .error failure
      | .ok html =>
        match parseListingOrderBook html, firstMatch (spreadAt isId) html with
        | some book, _ => finish fun flight => bookFor flight.call.wallet book
        | none, none => finish fun _ => .error ⟨.unsupportedPrice, none⟩
        | none, some itemId =>
          let known := (itemId, s.now + itemIdTtl)
          flights.foldl (proceed itemId)
            { s with itemIds := remember s.itemIds marketHashName known maxPublicEntries }
  else none

def histogram (s : PriceReader) (key : ObservationKey) (body : Except PriceReadError (List Char)) :
    Option PriceReader :=
  match s.observationFlights.lookup key with
  | some flight =>
    match flight.stage with
    | .histogram _ => some (s.settle flight (body.bind histogramData))
    | .itemId => none
  | none => none

end PriceReader

inductive PriceReaderAction where
  | observation (call : PriceCall)
  | listing (accountId : AccountId) (marketHashName : String)
      (page : Except PriceReadError (List Char))
  | histogram (key : ObservationKey) (body : Except PriceReadError (List Char))
  | tick (elapsed : ℕ)

def priceReaderMachine : Transition.Machine PriceReader PriceReaderAction where
  Starts s := ∃ now, s = .empty now
  next s
    | .observation call => some (s.observation call)
    | .listing accountId marketHashName page => s.listing accountId marketHashName page
    | .histogram key body => s.histogram key body
    | .tick elapsed => some { s with now := s.now + elapsed }

end SteamBee.Inventory
