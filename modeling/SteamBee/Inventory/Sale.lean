import Mathlib.Algebra.Order.Ring.Int
import SteamBee.Data.Table
import SteamBee.Data.Total
import SteamBee.Inventory.Contracts

/-! Items, wallets, previews and intents of the market, and the checks that decide
whether an asset may be sold. Prices of Steam are hundredths. -/
namespace SteamBee.Inventory

abbrev AssetId := String

abbrev ListingId := String

structure Item where
  assetId : AssetId
  variantId : String
  name : String
  marketHashName : Option String
  quantity : ℕ
  marketable : Bool
  group : String
  publisherFee : Option String
  deriving DecidableEq, Repr

structure Rate where
  numerator : ℕ
  denominator : ℕ
  deriving DecidableEq, Repr

structure Wallet where
  currency : MarketCurrency
  country : String
  minimum : ℕ
  increment : ℕ
  steamRate : Rate
  publisherRate : Rate
  steamBase : ℕ
  deriving DecidableEq, Repr

inductive PriceMode where
  | lowestSellOrder | highestBuyOrder
  deriving DecidableEq, Repr

structure MarketPriceSettings where
  priceMode : PriceMode := .lowestSellOrder
  adjustment : ℤ := 0
  minBuyerPrice : Option ℕ := none
  maxBuyerPrice : Option ℕ := none
  delaySeconds : ℕ := 10
  currencyId : Option ℕ := none
  deriving DecidableEq, Repr

structure Quote where
  base : ℕ
  steamFee : ℕ
  publisherFee : ℕ
  buyerPays : ℕ
  buyerCap : ℕ
  deriving DecidableEq, Repr

structure MarketListing where
  listingId : ListingId
  assetId : AssetId
  name : String
  quantity : ℕ
  buyerPays : ℕ
  sellerReceives : ℕ
  deriving DecidableEq, Repr

structure MarketSalePreview where
  token : Uuid
  expiresAt : ℕ
  assetId : AssetId
  name : String
  quantity : ℕ
  buyerPaysPerItem : ℕ
  sellerReceivesPerItem : ℕ
  steamFeePerItem : ℕ
  publisherFeePerItem : ℕ
  totalBuyerPays : ℕ
  totalSellerReceives : ℕ
  currency : MarketCurrency
  deriving DecidableEq, Repr

structure MarketCancelPreview where
  token : Uuid
  expiresAt : ℕ
  listingId : ListingId
  name : String
  deriving DecidableEq, Repr

structure Sale where
  accountId : AccountId
  actor : Actor
  preview : MarketSalePreview
  apiPrice : ℕ
  buyerCap : ℕ
  wallet : Wallet
  settings : MarketPriceSettings
  deriving DecidableEq, Repr

structure Cancellation where
  accountId : AccountId
  actor : Actor
  preview : MarketCancelPreview
  deriving DecidableEq, Repr

inductive Intent where
  | sale (intent : Sale)
  | cancel (intent : Cancellation)
  deriving DecidableEq, Repr

namespace Intent

def accountId : Intent → AccountId
  | .sale intent => intent.accountId
  | .cancel intent => intent.accountId

def actor : Intent → Actor
  | .sale intent => intent.actor
  | .cancel intent => intent.actor

def kind : Intent → MarketKind
  | .sale _ => .sale
  | .cancel _ => .cancel

def token : Intent → Uuid
  | .sale intent => intent.preview.token
  | .cancel intent => intent.preview.token

def expiresAt : Intent → ℕ
  | .sale intent => intent.preview.expiresAt
  | .cancel intent => intent.preview.expiresAt

end Intent

def maxSafeAmount : ℕ := 2 ^ 53 - 1

def previewTtl : ℕ := 60000

def appError (message : String) (statusCode : ℕ) : ActionError :=
  { message := some message, statusCode := some statusCode }

def stoppedBeforeSubmission : ActionError :=
  { appError "Market batch stopped before submission." 409 with
    notSubmitted := true, stopBatch := true }

def uncertainSubmission : ActionError :=
  { appError ("Steam did not confirm the submission result. Check Steam's listings and " ++
      "confirmations. No automatic retry will be made.") 409 with stopBatch := true }

def queueError (e : AppError) : ActionError := appError e.message e.statusCode

/-- `/^[1-9]\d{0,24}$/`. -/
def isId (s : String) : Bool :=
  match s.toList with
  | [] => false
  | c :: cs => c.isDigit && c != '0' && cs.all Char.isDigit && decide (cs.length ≤ 24)

/-- Steam's API counts hundredths even for zero- and three-decimal currencies. -/
def toMinorUnits (steamAmount : ℕ) (currency : MarketCurrency) : Except ActionError ℕ :=
  if maxSafeAmount < steamAmount ∨ 3 < currency.minorUnit then
    .error (appError "Market prices must be exact integer currency amounts." 409)
  else if steamAmount * 10 ^ currency.minorUnit % 100 ≠ 0 then
    .error (appError "Steam returned a price outside the wallet currency precision." 409)
  else if maxSafeAmount < steamAmount * 10 ^ currency.minorUnit / 100 then
    .error (appError "Steam market price exceeds the supported limit." 409)
  else .ok (steamAmount * 10 ^ currency.minorUnit / 100)

/-- Exact inverse of `toMinorUnits`, including signed price adjustments. -/
def fromMinorUnits (amount : ℤ) (currency : MarketCurrency) : Except ActionError ℤ :=
  if maxSafeAmount < amount.natAbs ∨ 3 < currency.minorUnit then
    .error (appError "Market prices must be exact integer currency amounts." 409)
  else if amount * 100 % 10 ^ currency.minorUnit ≠ 0 then
    .error (appError "The price cannot be represented exactly in Steam's currency precision." 409)
  else if maxSafeAmount < (amount * 100 / 10 ^ currency.minorUnit).natAbs then
    .error (appError "Steam market price exceeds the supported limit." 409)
  else .ok (amount * 100 / 10 ^ currency.minorUnit)

/-- Validate money against the current wallet before persisting or quoting it. -/
def validatePriceSettings (wallet : Wallet) (settings : MarketPriceSettings) :
    Except ActionError Unit :=
  let bounds := [settings.minBuyerPrice, settings.maxBuyerPrice]
  let moneyCustomized := settings.adjustment != 0 || bounds.any Option.isSome
  if 1000000000 < settings.adjustment.natAbs ∨ settings.delaySeconds < 1 ∨
      60 < settings.delaySeconds ∨ settings.currencyId.any (fun id => decide (id < 1 ∨ 1000 < id)) ∨
      bounds.any (Option.any fun value => decide (1000000000 < value)) then
    .error (appError "Market price settings are invalid." 400)
  else if moneyCustomized && settings.currencyId.isNone then
    .error (appError "Bind custom market prices to the current wallet currency." 409)
  else if settings.currencyId.any (· != wallet.currency.id) then
    .error (appError ("The saved market prices use a different wallet currency. " ++
      "Review the price settings.") 409)
  else if bounds.all Option.isSome &&
      decide (settings.maxBuyerPrice.getD 0 < settings.minBuyerPrice.getD 0) then
    .error (appError "The minimum buyer price cannot exceed the maximum buyer price." 400)
  else
    (settings.adjustment :: bounds.filterMap (Option.map Int.ofNat)).forM fun value => do
      let steamAmount ← fromMinorUnits value wallet.currency
      if steamAmount % wallet.increment ≠ 0 then
        throw (appError "Market prices must follow the wallet's price increments without rounding."
          409)

/-- An asset sent to Steam, with the stack size it had: once Steam's inventory shows the
sold copies gone, the rest of a partly sold stack is sellable. -/
structure Submission where
  quantity : ℕ
  before : ℕ
  deriving DecidableEq, Repr

def findItem (items : List Item) (assetId : AssetId) : Option Item :=
  items.find? fun item => item.assetId == assetId

theorem findItem_eq_of_mem {items : List Item} (hnodup : (items.map Item.assetId).Nodup)
    {item : Item} (hitem : item ∈ items) : findItem items item.assetId = some item := by
  unfold findItem
  induction items with
  | nil => cases hitem
  | cons x items ih =>
    obtain ⟨hx, hnodup⟩ := List.nodup_cons.mp hnodup
    rcases List.mem_cons.mp hitem with rfl | hmem
    · simp
    · have hne : x.assetId ≠ item.assetId := by
        intro heq
        exact hx (heq ▸ List.mem_map_of_mem hmem)
      simpa [hne] using ih hnodup hmem

/-- The inventory shows the sold copies gone. -/
def Submission.settledBy (items : List Item) (assetId : AssetId) (entry : Submission) : Bool :=
  match findItem items assetId with
  | none => true
  | some item => decide (item.quantity ≤ entry.before - entry.quantity)

def releaseSettledSubmissions (submitted : Table AssetId Submission) (items : List Item) :
    Table AssetId Submission :=
  submitted.retain fun assetId entry => !entry.settledBy items assetId

def freeQuantity (submitted : Table AssetId Submission) (entry : Item) : ℕ :=
  entry.quantity - min entry.quantity (((submitted.lookup entry.assetId).map Submission.quantity).getD 0)

def groupQuantity (submitted : Table AssetId Submission) (items : List Item) (group : String) : ℕ :=
  (items.filter fun entry => entry.group == group).total (freeQuantity submitted)

def assertSellable (submitted : Table AssetId Submission) (items : List Item) (assetId : AssetId)
    (quantity : ℕ) : Except ActionError Item :=
  match findItem items assetId with
  | none =>
    .error (appError "This item or quantity is no longer available. Refresh the inventory." 409)
  | some item =>
    if quantity < 1 ∨ 100 < quantity ∨ item.quantity < quantity then
      .error (appError "This item or quantity is no longer available. Refresh the inventory." 409)
    else if (submitted.lookup assetId).isSome then
      .error (appError ("This asset has already been submitted or its submission is uncertain. " ++
        "Check Steam's listings before retrying.") 409)
    else if groupQuantity submitted items item.group < quantity + 1 then
      .error (appError "Keep one copy: only duplicate items can be sold here." 409)
    else .ok item

theorem sellable_spec {submitted : Table AssetId Submission} {items : List Item}
    {assetId : AssetId} {quantity : ℕ} {item : Item}
    (h : assertSellable submitted items assetId quantity = .ok item) :
    findItem items assetId = some item ∧ quantity ≤ item.quantity ∧
      submitted.lookup assetId = none ∧ quantity < groupQuantity submitted items item.group := by
  unfold assertSellable at h
  split at h
  next => cases h
  next found hfound =>
    split_ifs at h with hquantity hsubmitted hgroup
    obtain rfl := Except.ok.inj h
    refine ⟨hfound, ?_, by simpa using hsubmitted, ?_⟩
    · omega
    · omega

def alreadyListed : ActionError :=
  appError "This asset already has an active or pending market listing." 409

def isListed (listings : List MarketListing) (assetId : AssetId) : Bool :=
  listings.any fun listing => listing.assetId == assetId

def assertMarketable (item : Item) : Except ActionError Unit :=
  if !item.marketable || item.marketHashName.all String.isEmpty then
    .error (appError "This item cannot be sold on the Steam Community Market." 409)
  else .ok ()

def salePreview (token : Uuid) (expiresAt : ℕ) (item : Item) (quantity : ℕ) (quote : Quote)
    (currency : MarketCurrency) : Except ActionError MarketSalePreview := do
  let buyerPaysPerItem ← toMinorUnits quote.buyerPays currency
  let sellerReceivesPerItem ← toMinorUnits quote.base currency
  let steamFeePerItem ← toMinorUnits quote.steamFee currency
  let publisherFeePerItem ← toMinorUnits quote.publisherFee currency
  let totalBuyerPays ← toMinorUnits (quote.buyerPays * quantity) currency
  let totalSellerReceives ← toMinorUnits (quote.base * quantity) currency
  return {
    token, expiresAt
    assetId := item.assetId
    name := item.name
    quantity, buyerPaysPerItem, sellerReceivesPerItem, steamFeePerItem, publisherFeePerItem
    totalBuyerPays, totalSellerReceives, currency }

def pricesChanged (intent : Sale) (wallet : Wallet) (quote : Quote) : Except ActionError Bool :=
  if quote.buyerCap ≠ intent.buyerCap ∨ quote.base ≠ intent.apiPrice then .ok true
  else do
    let buyerPays ← toMinorUnits quote.buyerPays wallet.currency
    return buyerPays != intent.preview.buyerPaysPerItem

end SteamBee.Inventory
