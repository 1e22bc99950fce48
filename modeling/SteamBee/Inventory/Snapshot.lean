import SteamBee.Data.Keyed
import SteamBee.Inventory.Batch
import SteamBee.Inventory.Sale

/-! The inventory as the service reads it from Steam, page after page, and the snapshot that
the web client is given of it. -/
namespace SteamBee.Inventory

structure SteamAsset where
  appId : ℕ
  contextId : String
  assetId : AssetId
  classId : String
  instanceId : Option String
  amount : ℕ
  deriving DecidableEq, Repr

/-- What is read of a description. What it says about the game is given as
`inventoryMetadata` and `economyIconUrl` find it. -/
structure SteamDescription where
  name : Option String
  marketHashName : Option String
  type : Option String
  iconUrl : Option String
  marketable : Bool
  tradable : Bool
  gameAppId : Option ℕ
  gameName : Option String
  gameIconUrl : Option String
  marketFee : Option String
  deriving DecidableEq, Repr

structure InventoryPage where
  success : Bool
  totalInventoryCount : ℕ
  assets : Option (List SteamAsset)
  descriptions : List (String × Option String × SteamDescription)
  moreItems : Bool
  lastAssetId : AssetId
  deriving DecidableEq, Repr

structure LoadedItem extends Item where
  type : String
  iconUrl : Option String
  duplicateQuantity : ℕ
  tradable : Bool
  gameAppId : Option ℕ
  gameName : Option String
  gameIconUrl : Option String
  deriving DecidableEq, Repr

/-- An item of a snapshot. Older snapshots have no variant. -/
structure InventoryItem where
  assetId : AssetId
  variantId : Option String
  name : String
  marketHashName : Option String
  type : String
  iconUrl : Option String
  quantity : ℕ
  duplicateQuantity : ℕ
  marketable : Bool
  tradable : Bool
  gameAppId : Option ℕ
  gameName : Option String
  gameIconUrl : Option String
  deriving DecidableEq, Repr

def maxInventoryPages : ℕ := 20

def maxInventoryItems : ℕ := 40000

def invalidIdentifier : ActionError := appError "Steam returned an invalid item identifier." 502

/-- `/^(?:0|[1-9]\d{0,24})$/`. -/
def isInstanceId (s : String) : Bool := s == "0" || isId s

def text (value : Option String) (fallback : String) : String := (value.map slice500).getD fallback

def groupOf (classId instanceId : String) : String := classId ++ "_" ++ instanceId

structure InventoryRead where
  assets : List SteamAsset
  descriptions : Table String SteamDescription
  seenCursors : List AssetId
  expectedTotal : Option ℕ

def addDescriptions : Table String SteamDescription →
    List (String × Option String × SteamDescription) →
    Except ActionError (Table String SteamDescription)
  | descriptions, [] => .ok descriptions
  | descriptions, (classId, instanceId, description) :: rest =>
    if !isId classId then .error invalidIdentifier
    else if !isInstanceId (instanceId.getD "0") then
      .error (appError "Steam returned an invalid item instance identifier." 502)
    else
      addDescriptions (descriptions.insert (groupOf classId (instanceId.getD "0")) description) rest

/-- A page that names an asset again replaces it. -/
def addAssets : List SteamAsset → List SteamAsset → Except ActionError (List SteamAsset)
  | assets, [] => .ok assets
  | assets, asset :: rest =>
    if asset.appId ≠ 753 ∨ asset.contextId ≠ "6" then
      .error (appError "Steam returned an item from an unexpected inventory." 502)
    else if !isId asset.assetId then .error invalidIdentifier
    else
      let assets := assets.upsert (fun asset => asset.assetId) asset.assetId (fun _ => asset) asset
      if maxInventoryItems < assets.length then
        .error (appError "Inventory is too large to validate safely." 409)
      else addAssets assets rest

def addPage (read : InventoryRead) (page : InventoryPage) : Except ActionError InventoryRead :=
  if !page.success then
    .error (appError "Steam inventory is private, unavailable, or the session has expired." 409)
  else if maxInventoryItems < page.totalInventoryCount then
    .error (appError "Steam returned an invalid integer amount." 502)
  else if read.expectedTotal.any (fun total => total != page.totalInventoryCount) then
    .error (appError "Steam inventory changed during pagination. Refresh before selling." 409)
  else if page.assets.isNone && page.totalInventoryCount != 0 then
    .error (appError "Steam returned an incomplete inventory." 502)
  else do
    let descriptions ← addDescriptions read.descriptions page.descriptions
    let assets ← addAssets read.assets (page.assets.getD [])
    return { read with assets, descriptions, expectedTotal := some page.totalInventoryCount }

/-- The loop over the pages, with the number of pages that may still be asked for. -/
def readPages (pages : ℕ → InventoryPage) (read : InventoryRead) :
    ℕ → Except ActionError InventoryRead
  | 0 =>
    .error (appError ("Inventory exceeds the supported pagination limit; no partial inventory is " ++
      "used for sales.") 409)
  | remaining + 1 =>
    let page := pages (maxInventoryPages - (remaining + 1))
    match addPage read page with
    | .error e => .error e
    | .ok read =>
      if !page.moreItems then .ok read
      else if !isId page.lastAssetId then .error invalidIdentifier
      else if page.lastAssetId ∈ read.seenCursors then
        .error (appError "Steam inventory pagination did not advance." 502)
      else readPages pages { read with seenCursors := page.lastAssetId :: read.seenCursors } remaining

/-- One asset with its description. `isKept` tells that a copy of its group was kept before. -/
def loadItem (descriptions : Table String SteamDescription) (isKept : Bool) (asset : SteamAsset)
    (itemInstanceId : String) : Except ActionError LoadedItem :=
  match descriptions.lookup (groupOf asset.classId itemInstanceId) with
  | none =>
    .error (appError "Steam returned an item without its description; refresh before selling." 502)
  | some description =>
    if 1000000 < asset.amount then .error (appError "Steam returned an invalid integer amount." 502)
    else if asset.amount < 1 then
      .error (appError "Steam returned an invalid inventory quantity." 502)
    else .ok {
      assetId := asset.assetId
      variantId := "753:6:" ++ asset.classId ++ ":" ++ itemInstanceId
      name := text description.name "Steam item"
      marketHashName := description.marketHashName.map slice500
      type := text description.type ""
      iconUrl := description.iconUrl
      quantity := asset.amount
      duplicateQuantity := asset.amount - if isKept then 0 else 1
      marketable := description.marketable
      tradable := description.tradable
      gameAppId := description.gameAppId
      gameName := description.gameName
      gameIconUrl := description.gameIconUrl
      group := groupOf asset.classId itemInstanceId
      publisherFee := description.marketFee }

/-- The loop over the assets; the first one of a group keeps a copy. -/
def loadItems (descriptions : Table String SteamDescription) :
    List String → List SteamAsset → Except ActionError (List LoadedItem)
  | _, [] => .ok []
  | kept, asset :: rest =>
    let itemInstanceId := asset.instanceId.getD "0"
    let group := groupOf asset.classId itemInstanceId
    if !isId asset.classId then .error invalidIdentifier
    else if !isInstanceId itemInstanceId then
      .error (appError "Steam returned an invalid item instance identifier." 502)
    else
      match loadItem descriptions (kept.contains group) asset itemInstanceId with
      | .error e => .error e
      | .ok item =>
        match loadItems descriptions (group :: kept) rest with
        | .error e => .error e
        | .ok items => .ok (item :: items)

def loadInventory (pages : ℕ → InventoryPage) : Except ActionError (List LoadedItem) :=
  match readPages pages ⟨[], ∅, [], none⟩ maxInventoryPages with
  | .error e => .error e
  | .ok read =>
    if read.expectedTotal ≠ some read.assets.length then
      .error (appError "Steam returned an incomplete inventory. Refresh before selling." 409)
    else loadItems read.descriptions [] read.assets

def LoadedItem.snapshot (item : LoadedItem) : InventoryItem where
  assetId := item.assetId
  variantId := some item.variantId
  name := item.name
  marketHashName := item.marketHashName
  type := item.type
  iconUrl := item.iconUrl
  quantity := item.quantity
  duplicateQuantity := item.duplicateQuantity
  marketable := item.marketable
  tradable := item.tradable
  gameAppId := item.gameAppId
  gameName := item.gameName
  gameIconUrl := item.gameIconUrl

end SteamBee.Inventory
