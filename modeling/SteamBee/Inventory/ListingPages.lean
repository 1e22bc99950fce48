import Mathlib.Data.List.Sort
import SteamBee.Inventory.InventoryPages

/-! `loadListings` over the responses of Steam as they come: the market listings of an account,
page after page. -/
namespace SteamBee.Inventory.Responses
open Text SteamData

structure LoadedListing extends MarketListing where
  type : String
  iconUrl : Option String
  pendingConfirmation : Bool
  deriving DecidableEq, Repr

def maxListingPages : ℕ := 20

def isArrayIndex (name : String) : Bool := isInstanceId name && decide (decimal name < 4294967295)

/-- `Object.values`: array indices come first, by their size. -/
def values (fields : Fields) : List Json :=
  let names := (fields.map Prod.fst).eraseDups
  let indices := (names.filter isArrayIndex).insertionSort fun a b => decimal a ≤ decimal b
  (indices ++ names.filter fun name => !isArrayIndex name).filterMap (SteamData.get fields)

def truthy : Json → Bool
  | .null => false
  | .bool b => b
  | .num n => n != .integer 0
  | .str s => s != ""
  | .arr _ | .obj _ => true

/-- The identifiers of listings may be numbers. -/
def idOfText (value : Option Json) : Except ActionError String := do
  let s ← stringOf value
  SteamData.id (some (.str s))

def listingIdOf (raw : Json) : Except ActionError ListingId := do
  let listing ← object (some raw)
  idOfText (get listing "listingid")

def reportedTotal (data : Fields) : Except ActionError ℕ :=
  integer (orElse (get data "num_active_listings") (get data "total_count")) 100000

def incompleteListings : ActionError := appError "Steam returned incomplete market listings." 502

def activeOf (data : Fields) : Except ActionError (List Json) :=
  match orElse (get data "listings") (get data "listinginfo") with
  | none => .error incompleteListings
  | some (.arr items) => .ok items
  | some .null => .ok []
  | value => (object value).map values

structure Entry where
  data : Fields
  raw : Json
  pending : Bool

def entriesOf (data : Fields) (active : List Json) : List Entry :=
  active.map (⟨data, ·, false⟩) ++
    ((arrayOf (get data "listings_on_hold")).map (⟨data, ·, true⟩) ++
      (arrayOf (get data "listings_to_confirm")).map (⟨data, ·, true⟩))

/-- The description of a listing's asset, which stands beside the listings or in them. -/
def detailsOf (data asset : Fields) (assetId : AssetId) : Except ActionError Fields :=
  match get data "assets" with
  | none | some (.arr _) => .ok asset
  | some assets =>
    if !truthy assets then .ok asset
    else do
      let byApp ← object (some assets)
      let appAssets ← object (orElse (get byApp "753") (some (.obj [])))
      let contextAssets ← object (orElse (get appAssets "6") (some (.obj [])))
      match (get contextAssets assetId).filter truthy with
      | some details => object (some details)
      | none => return asset

def amountsOf (wallet : Wallet) (listing : Fields) : Except ActionError (ℕ × ℕ) := do
  let currency ← integer (get listing "currencyid") 3000
  if currency % 1000 = wallet.currency.id then
    let base ← integer (get listing "price") maxAmount
    let fees ← integer (get listing "fee") maxAmount
    return (base, fees)
  else do
    let converted ← integer (get listing "converted_currencyid") 3000
    if converted % 1000 ≠ wallet.currency.id then
      throw (appError "Steam listing currency does not match the wallet." 409)
    else do
      let base ← integer (get listing "converted_price") maxAmount
      let fees ← integer (get listing "converted_fee") maxAmount
      return (base, fees)

def loadListing (wallet : Wallet) (e : Entry) (listing asset : Fields) :
    Except ActionError LoadedListing := do
  let listingId ← listingIdOf e.raw
  let assetId ← idOfText (orElse (get asset "id") (get asset "assetid"))
  let details ← detailsOf e.data asset assetId
  let (base, fees) ← amountsOf wallet listing
  let quantity ← integer (orElse (get asset "amount") (some (.num (.integer 1)))) 1000000
  let sellerReceives ← toMinorUnits base wallet.currency
  let buyerPays ← toMinorUnits (base + fees) wallet.currency
  return {
    listingId, assetId
    name :=
      SteamData.text (orElse (get details "name") (get details "market_hash_name")) "Steam item"
    type := SteamData.text (get details "type") ""
    iconUrl := economyIconUrl (get details "icon_url")
    quantity, sellerReceives, buyerPays
    pendingConfirmation := e.pending }

/-- One round of the loop over a page. Listings of other inventories are passed over. -/
def loadEntry (wallet : Wallet) (e : Entry) : Except ActionError (Option LoadedListing) := do
  let listing ← object (some e.raw)
  let asset ← object (get listing "asset")
  let inside ← isCommunityItem asset
  if !inside then return none
  else do
    let loaded ← loadListing wallet e listing asset
    return some loaded

/-- A listing that is met again replaces the former one. -/
def put (listings : List LoadedListing) : Option LoadedListing → List LoadedListing
  | none => listings
  | some loaded =>
    listings.upsert (fun listing => listing.listingId) loaded.listingId (fun _ => loaded) loaded

def addEntries (wallet : Wallet) : List LoadedListing → List Entry →
    Except ActionError (List LoadedListing)
  | listings, [] => .ok listings
  | listings, e :: rest => do
    let loaded ← loadEntry wallet e
    addEntries wallet (put listings loaded) rest

def addActiveIds : List ListingId → List Json → Except ActionError (List ListingId)
  | ids, [] => .ok ids
  | ids, raw :: rest => do
    let listingId ← listingIdOf raw
    if listingId ∈ ids then
      throw (appError "Steam market listing pagination did not advance." 502)
    else addActiveIds (ids ++ [listingId]) rest

structure ListingScan where
  listings : List LoadedListing
  activeIds : List ListingId
  start : ℕ

/-- What has been read with a page, and whether it was the last one. -/
def addListingPage (wallet : Wallet) (scan : ListingScan) (data : Fields) :
    Except ActionError (ListingScan × Bool) := do
  if !success (get data "success") then
    throw (appError "Steam market listings are unavailable or the session has expired." 409)
  else do
    let total ← reportedTotal data
    let active ← activeOf data
    let activeIds ← addActiveIds scan.activeIds active
    let listings ← addEntries wallet scan.listings (entriesOf data active)
    let start := scan.start + active.length
    if total ≤ start then
      if activeIds.length ≠ total then throw incompleteListings
      else return (⟨listings, activeIds, start⟩, true)
    else if active.isEmpty then throw (appError "Steam market pagination did not advance." 502)
    else return (⟨listings, activeIds, start⟩, false)

def listingPath (start : ℕ) : String :=
  "/market/mylistings?norender=1&start=" ++ toString start ++ "&count=100"

/-- The loop over the pages, with the number of pages that may still be asked for; with its result
the paths that it has asked for. -/
def readListings (wallet : Wallet) (outcomes : Outcomes) (scan : ListingScan) :
    ℕ → List String × Except ActionError ListingScan
  | 0 => ([], .error (appError "Market listings exceed the supported pagination limit." 409))
  | remaining + 1 =>
    let path := listingPath scan.start
    match fetch (outcomes (maxListingPages - (remaining + 1))) >>= addListingPage wallet scan with
    | .error e => ([path], .error e)
    | .ok (scan, true) => ([path], .ok scan)
    | .ok (scan, false) =>
      let (paths, result) := readListings wallet outcomes scan remaining
      (path :: paths, result)

def loadListings (wallet : Wallet) (outcomes : Outcomes) :
    List String × Except ActionError (List LoadedListing) :=
  let (paths, result) := readListings wallet outcomes ⟨[], [], 0⟩ maxListingPages
  (paths, result.map ListingScan.listings)

end SteamBee.Inventory.Responses
