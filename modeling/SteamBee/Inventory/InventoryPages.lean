import SteamBee.Data.Outcome
import SteamBee.Inventory.SnapshotCounts
import SteamBee.Inventory.SteamData

/-! `loadInventory` over the responses of Steam as they come, of which nothing is known. Each
inventory that it accepts is one of the snapshot's, read from well-formed pages. -/
namespace SteamBee.Inventory.Responses
open Text SteamData

/-- The outcome of a request: a rejection, or a response. -/
abbrev Outcomes := ℕ → Except ActionError Response

/-- `Array.isArray(value) ? value : []`. -/
def arrayOf : Option Json → List Json
  | some (.arr items) => items
  | _ => []

def isArray : Option Json → Bool
  | some (.arr _) => true
  | _ => false

def textOf : Option Json → Option String
  | some (.str s) => some s
  | _ => none

def isText (value : Option Json) (s : String) : Bool :=
  match value with
  | some (.str t) => t == s
  | _ => false

/-! ## Descriptions -/

def appId : Option Json → Option ℕ
  | some (.num (.integer n)) => if 0 < n ∧ n ≤ 0xffffffff then some n.toNat else none
  | some (.str s) =>
    if isDigits s ∧ 0 < decimal s ∧ decimal s ≤ 0xffffffff then some (decimal s) else none
  | _ => none

/-- The digits of `/^app_\d+$/`. -/
def appTag : Option Json → Option String
  | some (.str s) =>
    let digits := String.ofList (s.toList.drop 4)
    if s.toList.take 4 = "app_".toList ∧ isDigits digits then some digits else none
  | _ => none

structure Metadata where
  gameAppId : Option ℕ
  gameName : Option String
  gameIconUrl : Option String

/-- Classification comes from Steam's internal tags, never from translated item names. -/
def inventoryMetadata (description : Fields) : Metadata :=
  let tags := (arrayOf (get description "tags")).filterMap fun tag => (object (some tag)).toOption
  let game := tags.find? fun tag =>
    isText (get tag "category") "Game" && (appTag (get tag "internal_name")).isSome
  let tagged := game.bind fun tag => (appTag (get tag "internal_name")).bind fun digits =>
    appId (some (.str digits))
  let gameAppId := tagged.or (appId (get description "market_fee_app"))
  { gameAppId
    gameName :=
      match gameAppId, game.bind fun tag => get tag "localized_tag_name" with
      | some _, some (.str name) => some (String.ofList (sliceUnits 256 name.toList))
      | _, _ => none
    gameIconUrl := gameAppId.map fun appId =>
      "https://cdn.cloudflare.steamstatic.com/steam/apps/" ++ toString appId ++ "/header.jpg" }

def isIconSymbol (c : Char) : Bool := c.isAlphanum || c == '_' || c == '/' || c == '-'

def economyIconUrl : Option Json → Option String
  | some (.str icon) =>
    if icon.toList ≠ [] ∧ icon.toList.all isIconSymbol then
      some ("https://community.akamai.steamstatic.com/economy/image/" ++ icon ++ "/96fx96f")
    else none
  | _ => none

def descriptionOf (description : Fields) : SteamDescription :=
  let metadata := inventoryMetadata description
  { name := textOf (get description "name")
    marketHashName := textOf (get description "market_hash_name")
    type := textOf (get description "type")
    iconUrl := economyIconUrl (get description "icon_url")
    marketable := success (get description "marketable")
    tradable := success (get description "tradable")
    gameAppId := metadata.gameAppId
    gameName := metadata.gameName
    gameIconUrl := metadata.gameIconUrl
    marketFee := (orElse (get description "market_fee") none).map fun fee => fee.display.getD "" }

/-! ## The pages -/

structure Scan where
  assets : List (AssetId × Fields)
  descriptions : Table String Fields
  seenCursors : List AssetId
  cursor : Option AssetId
  expectedTotal : Option ℕ

def Scan.start : Scan := ⟨[], ∅, [], none, none⟩

def inventoryPath (steamId : String) (cursor : Option AssetId) : String :=
  "/inventory/" ++ steamId ++ "/753/6?l=english&count=2000" ++
    (cursor.map fun cursor => "&start_assetid=" ++ cursor).getD ""

def group (fields : Fields) : Except ActionError String := do
  let classId ← id (get fields "classid")
  let itemInstanceId ← instanceId (get fields "instanceid")
  return groupOf classId itemInstanceId

def addDescriptions : Table String Fields → List Json → Except ActionError (Table String Fields)
  | descriptions, [] => .ok descriptions
  | descriptions, raw :: rest => do
    let description ← object (some raw)
    let key ← group description
    addDescriptions (descriptions.insert key description) rest

/-- Steam's own inventory holds the community items in context 6. -/
def isCommunityItem (asset : Fields) : Except ActionError Bool := do
  let appId ← integer (get asset "appid") maxAmount
  if appId ≠ 753 then return false
  else do
    let contextId ← stringOf (get asset "contextid")
    return contextId == "6"

def assetIdOf (asset : Fields) : Except ActionError AssetId := do
  let inside ← isCommunityItem asset
  if !inside then throw (appError "Steam returned an item from an unexpected inventory." 502)
  else id (get asset "assetid")

/-- A page that names an asset again replaces it. -/
def addAssets : List (AssetId × Fields) → List Json →
    Except ActionError (List (AssetId × Fields))
  | assets, [] => .ok assets
  | assets, raw :: rest => do
    let asset ← object (some raw)
    let assetId ← assetIdOf asset
    let assets := assets.upsert Prod.fst assetId (fun _ => (assetId, asset)) (assetId, asset)
    if maxInventoryItems < assets.length then
      throw (appError "Inventory is too large to validate safely." 409)
    else addAssets assets rest

def addPage (scan : Scan) (data : Fields) : Except ActionError Scan := do
  if !success (get data "success") then
    throw (appError "Steam inventory is private, unavailable, or the session has expired." 409)
  else do
    let total ← integer (get data "total_inventory_count") maxInventoryItems
    if scan.expectedTotal.any (fun expected => expected != total) then
      throw (appError "Steam inventory changed during pagination. Refresh before selling." 409)
    else if !isArray (get data "assets") && total != 0 then
      throw (appError "Steam returned an incomplete inventory." 502)
    else do
      let descriptions ← addDescriptions scan.descriptions (arrayOf (get data "descriptions"))
      let assets ← addAssets scan.assets (arrayOf (get data "assets"))
      return { scan with assets, descriptions, expectedTotal := some total }

/-- The cursor that a page leaves, which no earlier one has left. -/
def advance (scan : Scan) (data : Fields) : Except ActionError Scan := do
  let cursor ← id (get data "last_assetid")
  if cursor ∈ scan.seenCursors then
    throw (appError "Steam inventory pagination did not advance." 502)
  else return { scan with cursor := some cursor, seenCursors := cursor :: scan.seenCursors }

def fetch (outcome : Except ActionError Response) : Except ActionError Fields := do
  let response ← outcome
  responseJson response

/-- The loop over the pages, with the number of pages that may still be asked for; with its result
the paths that it has asked for. -/
def readPages (steamId : String) (outcomes : Outcomes) (scan : Scan) :
    ℕ → List String × Except ActionError Scan
  | 0 =>
    ([], .error (appError ("Inventory exceeds the supported pagination limit; no partial " ++
      "inventory is used for sales.") 409))
  | remaining + 1 =>
    let path := inventoryPath steamId scan.cursor
    match fetch (outcomes (maxInventoryPages - (remaining + 1))) with
    | .error e => ([path], .error e)
    | .ok data =>
      match addPage scan data with
      | .error e => ([path], .error e)
      | .ok scan =>
        if !success (get data "more_items") then ([path], .ok scan)
        else
          match advance scan data with
          | .error e => ([path], .error e)
          | .ok scan =>
            let (paths, result) := readPages steamId outcomes scan remaining
            (path :: paths, result)

/-! ## The items -/

/-- One asset with its description. `isKept` tells that a copy of its group was kept before. -/
def loadItem (isKept : Bool) (assetId : AssetId) (asset : Fields) (classId itemInstanceId : String)
    (description : Fields) : Except ActionError LoadedItem := do
  let quantity ← integer (get asset "amount") 1000000
  if quantity < 1 then throw (appError "Steam returned an invalid inventory quantity." 502)
  else
    let shown := descriptionOf description
    return {
      assetId
      variantId := "753:6:" ++ classId ++ ":" ++ itemInstanceId
      name := SteamData.text (get description "name") "Steam item"
      marketHashName := shown.marketHashName.map slice500
      type := SteamData.text (get description "type") ""
      iconUrl := shown.iconUrl
      quantity
      duplicateQuantity := quantity - if isKept then 0 else 1
      marketable := shown.marketable
      tradable := shown.tradable
      gameAppId := shown.gameAppId
      gameName := shown.gameName
      gameIconUrl := shown.gameIconUrl
      group := groupOf classId itemInstanceId
      publisherFee := shown.marketFee }

/-- The loop over the assets; the first one of a group keeps a copy. -/
def loadItems (descriptions : Table String Fields) :
    List String → List (AssetId × Fields) → Except ActionError (List LoadedItem)
  | _, [] => .ok []
  | kept, (assetId, asset) :: rest => do
    let classId ← id (get asset "classid")
    let itemInstanceId ← instanceId (get asset "instanceid")
    let group := groupOf classId itemInstanceId
    match descriptions.lookup group with
    | none =>
      throw (appError "Steam returned an item without its description; refresh before selling." 502)
    | some description => do
      let item ← loadItem (kept.contains group) assetId asset classId itemInstanceId description
      let items ← loadItems descriptions (group :: kept) rest
      return item :: items

def finish (scan : Scan) : Except ActionError (List LoadedItem) :=
  if scan.expectedTotal ≠ some scan.assets.length then
    .error (appError "Steam returned an incomplete inventory. Refresh before selling." 409)
  else loadItems scan.descriptions [] scan.assets

/-- The paths that are asked for, and what comes of it. `steamId` is what the session says. -/
def loadInventory (steamId : Except ActionError Json) (outcomes : Outcomes) :
    List String × Except ActionError (List LoadedItem) :=
  match steamId >>= fun steamId => id (some steamId) with
  | .error e => ([], .error e)
  | .ok steamId =>
    let (paths, result) := readPages steamId outcomes Scan.start maxInventoryPages
    (paths, result >>= finish)

end SteamBee.Inventory.Responses
