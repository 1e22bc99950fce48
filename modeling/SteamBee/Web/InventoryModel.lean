import Mathlib.Data.List.Sort
import SteamBee.Inventory.Snapshot

/-! The variants that the web client makes of a snapshot, and how it spreads the sale of a
variant over the assets. -/
namespace SteamBee.Web
open Inventory

/-- A variant has the texts of its first asset. -/
structure InventoryVariant where
  variantId : String
  name : String
  marketHashName : Option String
  type : String
  iconUrl : Option String
  quantity : ℕ
  duplicateQuantity : ℕ
  marketable : Bool
  tradable : Bool
  gameAppId : Option ℕ
  gameName : Option String
  gameIconUrl : Option String
  assets : List InventoryItem
  sellableQuantity : ℕ
  saleCapacity : ℕ
  deriving DecidableEq, Repr

structure InventorySaleAllocation where
  assetId : AssetId
  quantity : ℕ
  deriving DecidableEq, Repr

/-- `a ||= b` on texts. -/
def orText (a b : Option String) : Option String := (a.filter fun s => s != "").or b

def sellableAssetQuantity (asset : InventoryItem) : ℕ :=
  if !asset.marketable || decide (maxSafeAmount < asset.quantity) ||
      decide (maxSafeAmount < asset.duplicateQuantity) || asset.quantity == 0 ||
      asset.duplicateQuantity == 0 then 0
  else min asset.quantity asset.duplicateQuantity

def variantIdOf (item : InventoryItem) : String :=
  ((item.variantId.filter fun s => s != "")).getD ("asset:" ++ item.assetId)

def InventoryVariant.of (item : InventoryItem) : InventoryVariant where
  variantId := variantIdOf item
  name := item.name
  marketHashName := item.marketHashName
  type := item.type
  iconUrl := item.iconUrl
  quantity := item.quantity
  duplicateQuantity := item.duplicateQuantity
  marketable := item.marketable
  tradable := item.tradable
  gameAppId := item.gameAppId
  gameName := item.gameName
  gameIconUrl := item.gameIconUrl
  assets := [item]
  sellableQuantity := sellableAssetQuantity item
  saleCapacity := min (sellableAssetQuantity item) 100

def InventoryVariant.add (item : InventoryItem) (existing : InventoryVariant) : InventoryVariant :=
  { existing with
    assets := existing.assets ++ [item]
    quantity := existing.quantity + item.quantity
    duplicateQuantity := existing.duplicateQuantity + item.duplicateQuantity
    sellableQuantity := existing.sellableQuantity + sellableAssetQuantity item
    saleCapacity := existing.saleCapacity + min (sellableAssetQuantity item) 100
    marketable := existing.marketable || item.marketable
    tradable := existing.tradable || item.tradable
    gameAppId := existing.gameAppId.or item.gameAppId
    gameName := orText existing.gameName item.gameName
    gameIconUrl := orText existing.gameIconUrl item.gameIconUrl
    iconUrl := orText existing.iconUrl item.iconUrl }

def addItem (variants : List InventoryVariant) (item : InventoryItem) : List InventoryVariant :=
  variants.upsert (fun variant => variant.variantId) (variantIdOf item)
    (InventoryVariant.add item) (.of item)

def buildInventoryVariants (items : List InventoryItem) : List InventoryVariant :=
  items.foldl addItem []

/-- The number that decimal digits spell; `none` unless `/^\d+$/` matches. -/
def decimal (s : String) : Option ℕ :=
  if s != "" && s.toList.all Char.isDigit then
    some (s.toList.foldl (fun n c => n * 10 + (c.toNat - '0'.toNat)) 0)
  else none

/-- `collate` is the collator of the client. -/
def compareAssetIds (collate : String → String → Ordering) (left right : InventoryItem) :
    Ordering :=
  let byText := (collate left.assetId right.assetId).then
    (compareOfLessAndEq left.assetId right.assetId)
  match decimal left.assetId, decimal right.assetId with
  | some leftId, some rightId => (compare leftId rightId).then byText
  | _, _ => byText

def allocate : ℕ → List InventoryItem → List InventorySaleAllocation
  | _, [] => []
  | remaining, asset :: assets =>
    let amount := min (min remaining (sellableAssetQuantity asset)) 100
    let allocations := if 0 < amount then [⟨asset.assetId, amount⟩] else []
    if remaining - amount = 0 then allocations
    else allocations ++ allocate (remaining - amount) assets

def allocateVariantSale (collate : String → String → Ordering) (variant : InventoryVariant)
    (quantity : ℕ) : Except String (List InventorySaleAllocation) :=
  if maxSafeAmount < quantity ∨ quantity = 0 then
    .error "Sale quantity must be a positive whole number."
  else
    let assets := variant.assets.insertionSort fun left right =>
      compareAssetIds collate left right ≠ .gt
    if assets.total (fun asset => min (sellableAssetQuantity asset) 100) < quantity then
      .error "Sale quantity exceeds the available extra copies."
    else .ok (allocate quantity assets)

def basketAllocations (collate : String → String → Ordering) :
    List (InventoryVariant × ℕ) → Except String (List InventorySaleAllocation)
  | [] => .ok []
  | (variant, quantity) :: entries =>
    match allocateVariantSale collate variant quantity, basketAllocations collate entries with
    | .ok rows, .ok others => .ok (rows ++ others)
    | .error e, _ => .error e
    | _, .error e => .error e

end SteamBee.Web
