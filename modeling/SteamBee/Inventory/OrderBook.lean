import SteamBee.Inventory.Money
import SteamBee.Inventory.InventoryPages
import SteamBee.Inventory.PriceScheduler
import SteamBee.Text.Search

/-! The order book of an item, as a sale reads it and as the price overview does. -/
namespace SteamBee.Inventory
open Text SteamData Responses

/-! ## The book that a listing page embeds -/

structure ListingOrderBook where
  currencyId : ℕ
  lowestSellOrder : Option ℕ
  highestBuyOrder : Option ℕ
  deriving DecidableEq, Repr

def orderBookKey : List Char := "\"queryKey\":[\"market\",\"orderbook\",".toList

def stateStart : List Char := "\x7b\"state\":\x7b\"data\":".toList

/-- `/"name":(null|\d{1,15})[,}]/`, at the beginning of a text. -/
def fieldAt (name : String) (text : List Char) : Option (Option ℕ) := do
  let rest ← behind ('"' :: (name.toList ++ ['"', ':'])) text
  match behind "null".toList rest with
  | some rest => if rest.head? = some ',' ∨ rest.head? = some '}' then some none else none
  | none =>
    let digits := rest.takeWhile Char.isDigit
    let next := (rest.dropWhile Char.isDigit).head?
    if digits ≠ [] ∧ digits.length ≤ 15 ∧ (next = some ',' ∨ next = some '}') then
      some (some (Nat.ofDigitChars 10 digits 0))
    else none

/-- The book of a state, where a price of 0 stands for none. -/
def bookOfState (state : List Char) : Option ListingOrderBook := do
  let currency ← firstMatch (fieldAt "eCurrency") state
  let currencyId ← currency
  let lowestSellOrder ← firstMatch (fieldAt "amtMinSellOrder") state
  let highestBuyOrder ← firstMatch (fieldAt "amtMaxBuyOrder") state
  return {
    currencyId
    lowestSellOrder := lowestSellOrder.filter fun price => price != 0
    highestBuyOrder := highestBuyOrder.filter fun price => price != 0 }

/-- The book behind the first key, if there is one with these quotes. -/
def bookIn (quote html : List Char) : Option (Option ListingOrderBook) :=
  (indexOf (replaceAll ['"'] quote orderBookKey) html).map fun stop => do
    let start ← lastIndexOf (replaceAll ['"'] quote stateStart) html stop
    let state := (html.take stop).drop start
    if 20000 < utf16Length state then none else bookOfState (replaceAll quote ['"'] state)

/-- The state is serialized inside a JS string, so quotes arrive escaped. -/
def parseListingOrderBook (html : List Char) : Option ListingOrderBook :=
  match bookIn ['\\', '"'] html with
  | some book => book
  | none => (bookIn ['"'] html).join

/-- `/Market_LoadOrderSpread\(\s*(\d+)\s*\)/`, at the beginning of a text, where the digits are an
item's. -/
def spreadAt (isItem : String → Bool) (text : List Char) : Option String := do
  let rest ← behind "Market_LoadOrderSpread(".toList text
  let digits := String.ofList ((rest.dropWhile isSpace).takeWhile Char.isDigit)
  let next := ((rest.dropWhile isSpace).dropWhile Char.isDigit).dropWhile isSpace
  if isItem digits ∧ next.head? = some ')' then some digits else none

/-- The answers of Steam about an item: its listing page, and the histogram of an item number in
the currency and the country of the wallet. -/
structure OrderSource where
  listing : Except ActionError Response
  histogram : String → Except ActionError Response

def priceField : Option ℕ → Json
  | none => .null
  | some price => .num (.integer price)

/-! ## The quote of a sale -/

def listingOrderBook (wallet : Wallet) (source : OrderSource) (html : List Char) :
    Except ActionError Fields :=
  match parseListingOrderBook html with
  | some book =>
    if book.currencyId ≠ wallet.currency.id then
      .error (appError "Steam returned prices in another currency. No sale was submitted." 409)
    else .ok [("success", .num (.integer 1)),
      ("lowest_sell_order", priceField book.lowestSellOrder),
      ("highest_buy_order", priceField book.highestBuyOrder)]
  | none =>
    match firstMatch (spreadAt isDigits) html with
    | none =>
      .error (appError "Steam did not provide an authoritative order book for this item." 409)
    | some itemId => fetch (source.histogram itemId)

def sideOf : PriceMode → String
  | .lowestSellOrder => "lowest_sell_order"
  | .highestBuyOrder => "highest_buy_order"

def isMissing : Option Json → Bool
  | none | some .null => true
  | _ => false

def referencePrice (settings : MarketPriceSettings) (data : Fields) : Except ActionError ℕ :=
  let reference := get data (sideOf settings.priceMode)
  if !success (get data "success") || isMissing reference then
    .error (appError "No current Steam sell price is available. No sale was submitted." 409)
  else do
    let price ← integer reference maxAmount
    if price < 1 then throw (appError "No current Steam sell price is available." 409)
    else return price

def saleQuote (item : Item) (wallet : Wallet) (settings : MarketPriceSettings)
    (source : OrderSource) : Except ActionError Quote := do
  assertMarketable item
  let response ← source.listing
  let html ← responseText response
  let data ← listingOrderBook wallet source html
  let reference ← referencePrice settings data
  quoteWithRules reference wallet item.publisherFee settings

/-! ## The estimate of the price overview -/

def readPage : Except ActionError Response → Except ReadPriceError (List Char)
  | .error _ => .error .steamUnavailable
  | .ok response =>
    if response.status = 429 then .error .rateLimited
    else if !response.ok then .error .steamUnavailable
    else
      match response.body with
      | none => .error .steamUnavailable
      | some (bytes, text) =>
        if maxBodyBytes < bytes then .error .unsupportedPrice else .ok text

/-- A price of 0 stands for none. -/
def orderPrice : Option Json → Except ReadPriceError (Option ℕ)
  | none | some .null | some (.num (.integer 0)) | some (.str "0") => .ok none
  | value =>
    match integer value maxAmount with
    | .error _ => .error .unsupportedPrice
    | .ok price => if price < 1 then .error .unsupportedPrice else .ok (some price)

def readerOrderBook (wallet : Wallet) (source : OrderSource) (html : List Char) :
    Except ReadPriceError Fields :=
  match parseListingOrderBook html with
  | some book =>
    if book.currencyId ≠ wallet.currency.id then .error .unsupportedPrice
    else .ok [("lowest_sell_order", priceField book.lowestSellOrder),
      ("highest_buy_order", priceField book.highestBuyOrder)]
  | none =>
    match firstMatch (spreadAt isId) html with
    | none => .error .unsupportedPrice
    | some itemId => do
      let body ← readPage (source.histogram itemId)
      match parseObject body with
      | none => throw .unsupportedPrice
      | some data => if !success (get data "success") then throw .steamUnavailable else return data

def isControl (c : Char) : Bool := c.toNat ≤ 0x1f || c.toNat == 0x7f

def isReadableName (name : String) : Bool :=
  !name.isEmpty && utf16Length name.toList ≤ 500 && !name.toList.any isControl

def observation (marketHashName : String) (wallet : Wallet) (source : OrderSource) :
    Except ReadPriceError (Option ℕ × Option ℕ) :=
  if !isReadableName marketHashName then .error .unsupportedPrice
  else do
    let html ← readPage source.listing
    let data ← readerOrderBook wallet source html
    let lowestSellOrder ← orderPrice (get data "lowest_sell_order")
    let highestBuyOrder ← orderPrice (get data "highest_buy_order")
    return (lowestSellOrder, highestBuyOrder)

structure PriceVariant where
  marketHashName : Option String
  publisherFee : Option String
  marketable : Bool

def variantOf (item : Item) : PriceVariant where
  marketHashName := item.marketHashName
  publisherFee := item.publisherFee
  marketable := item.marketable

inductive PriceOverviewError where
  | notMarketable
  | read (error : ReadPriceError)
  | currencyMismatch | outsidePriceLimits | belowMinimumFees
  deriving DecidableEq, Repr

def displayError (e : ActionError) : PriceOverviewError :=
  if e = appError ("The saved market prices use a different wallet currency. " ++
      "Review the price settings.") 409 then .currencyMismatch
  else if e = Inventory.outsidePriceLimits then .outsidePriceLimits
  else if e = Inventory.belowMinimumFees then .belowMinimumFees
  else .read .unsupportedPrice

structure PriceEstimate where
  buyerPaysPerItem : ℕ
  sellerReceivesPerItem : ℕ
  deriving DecidableEq, Repr

structure PriceRow where
  rawReferenceBuyerPrice : Option ℕ
  estimate : Option PriceEstimate
  error : Option PriceOverviewError
  deriving DecidableEq, Repr

def estimateOf (reference : ℕ) (wallet : Wallet) (publisherFee : Option String)
    (settings : MarketPriceSettings) : Except ActionError PriceEstimate := do
  let quote ← quoteWithRules reference wallet publisherFee settings
  let buyerPaysPerItem ← toMinorUnits quote.buyerPays wallet.currency
  let sellerReceivesPerItem ← toMinorUnits quote.base wallet.currency
  return { buyerPaysPerItem, sellerReceivesPerItem }

def referenceOf (settings : MarketPriceSettings) (sides : Option ℕ × Option ℕ) : Option ℕ :=
  match settings.priceMode with
  | .lowestSellOrder => sides.1
  | .highestBuyOrder => sides.2

def overviewRow (variant : PriceVariant) (wallet : Wallet) (settings : MarketPriceSettings)
    (source : OrderSource) : PriceRow :=
  match variant.marketHashName.filter fun name => variant.marketable && !name.isEmpty with
  | none => ⟨none, none, some .notMarketable⟩
  | some name =>
    match observation name wallet source with
    | .error e => ⟨none, none, some (.read e)⟩
    | .ok sides =>
      match (referenceOf settings sides).filter fun price => decide (1 ≤ price) with
      | none => ⟨none, none, some (.read .noOrders)⟩
      | some reference =>
        match toMinorUnits reference wallet.currency with
        | .error _ => ⟨none, none, some (.read .unsupportedPrice)⟩
        | .ok raw =>
          match estimateOf reference wallet variant.publisherFee settings with
          | .error e => ⟨some raw, none, some (displayError e)⟩
          | .ok estimate => ⟨some raw, some estimate, none⟩

end SteamBee.Inventory
