import SteamBee.Inventory.Batch
import SteamBee.Inventory.Ledger

/-! The market service. Its operations on one account run one at a time, in the order
of their calls, and are cut at every `await`; what they read is chosen by Steam and the
database. -/
namespace SteamBee.Inventory

/-- `shouldContinue`: no stop or shutdown since the call, or the batch job goes on. -/
inductive Guard where
  | current (accountId : AccountId) (epoch shutdownEpoch : ℕ)
  | job (jobId : Uuid)
  deriving DecidableEq, Repr

inductive BatchInput where
  | sale (items : List (AssetId × ℕ))
  | cancel (listingIds : List ListingId)
  deriving DecidableEq, Repr

/-- A call that waits for the account's earlier operations. -/
inductive Call where
  | previewSale (actor : Actor) (assetId : AssetId) (quantity : ℕ)
  | confirmSale (actor : Actor) (token : Uuid)
  | previewCancellation (actor : Actor) (listingId : ListingId)
  | confirmCancellation (actor : Actor) (token : Uuid)
  | previewBatch (actor : Actor) (input : BatchInput)
  | row (jobId : Uuid) (index : ℕ) (intent : Intent)
  | saveSettings (settings : MarketPriceSettings)
  deriving DecidableEq, Repr

inductive PreviewPoint where
  | inventory (since : Steam)
  | wallet (item : Item)
  | listings (item : Item) (wallet : Wallet)
  | settings (item : Item) (wallet : Wallet)
  | quote (item : Item) (wallet : Wallet) (settings : MarketPriceSettings)
  deriving DecidableEq

/-- `turn` waits for the account's turn in `mutate`, `recheck` for the settings there. -/
inductive SalePoint where
  | inventory (since : Steam)
  | wallet (item : Item)
  | settings (item : Item) (wallet : Wallet)
  | listings (item : Item) (wallet : Wallet)
  | quote (item : Item) (wallet : Wallet)
  | turn (item : Item)
  | recheck (item : Item)
  | post (accepted : Bool)
  deriving DecidableEq

inductive CancelPoint where
  | wallet
  | listings
  | turn
  | post
  | walletAfter
  | listingsAfter
  deriving DecidableEq, Repr

structure BatchPlan where
  wallet : Wallet
  settings : MarketPriceSettings
  listings : List MarketListing
  inventory : List Item
  planned : Table String ℕ
  quotes : Table String (Except ActionError Quote)
  commands : List (BatchCommand Intent)

inductive BatchPoint where
  | wallet
  | settings (wallet : Wallet)
  | listings (wallet : Wallet) (settings : MarketPriceSettings)
  | inventory (since : Steam) (wallet : Wallet) (settings : MarketPriceSettings)
      (listings : List MarketListing)
  | quote (plan : BatchPlan) (item : Item) (quantity : ℕ) (rest : List (AssetId × ℕ))

inductive SettingsPoint where
  | wallet
  | turn
  | write
  deriving DecidableEq, Repr

inductive Running where
  | previewSale (actor : Actor) (assetId : AssetId) (quantity : ℕ) (point : PreviewPoint)
  | executeSale (intent : Sale) (origin : Origin) (takenAt : ℕ) (point : SalePoint)
  | previewCancellation (actor : Actor) (listingId : ListingId) (wallet : Option Wallet)
  | executeCancellation (intent : Cancellation) (origin : Origin) (takenAt : ℕ)
      (point : CancelPoint)
  | previewBatch (actor : Actor) (input : BatchInput) (point : BatchPoint)
  | saveSettings (settings : MarketPriceSettings) (point : SettingsPoint)

inductive Stage where
  | queued (call : Call)
  | running (r : Running)

structure Op where
  accountId : AccountId
  guard : Guard
  stage : Stage

structure Load where
  accountId : AccountId
  since : Steam

inductive MarketRead where
  | inventory (items : List Item)
  | wallet (wallet : Wallet)
  | settings (settings : MarketPriceSettings)
  | listings (listings : List MarketListing)
  | quote (quote : Quote)
  | entered
  | confirmed (settings : MarketPriceSettings) (accepted : Bool)
  | answered (answer : Answer)
  | removed
  | refused (statusCode : ℕ)
  | wrote
  | failed (error : ActionError)

inductive MarketReply where
  | failed (error : ActionError)
  | salePreview (preview : MarketSalePreview)
  | cancelPreview (preview : MarketCancelPreview)
  | result (result : MarketActionResult)
  | batchPreview (preview : MarketBatchPreview)
  | saved

structure Market where
  batches : MarketBatchQueue Intent
  intents : Table Uuid Intent
  ledger : Ledger
  accountEpoch : Table AccountId ℕ
  shutdownEpoch : ℕ
  settingsWrites : List AccountId
  stored : Table AccountId MarketPriceSettings
  ops : Table OpId Op
  loads : Table OpId Load
  rowReplies : Table Uuid (Except ActionError MarketActionResult)
  replies : Table OpId MarketReply
  drawn : ℕ

/-- The next thing an operation does: wait again, after drawing some identifiers, or
act and return. -/
inductive Progress where
  | awaits (r : Running) (draws : ℕ)
  | returns (reply : MarketReply)
  | issues (intent : Intent) (reply : MarketReply)
  | creates (kind : MarketKind) (currency : MarketCurrency)
      (commands : List (BatchCommand Intent)) (delaySeconds draws : ℕ)
  | saves (settings : MarketPriceSettings)
  | posts (item : Item) (accepted : Bool)
  | answers (answer : Answer)
  | removes

namespace Market

def empty (steam : Table AccountId Steam) : Market :=
  ⟨.empty, ∅, .empty steam, ∅, 0, [], ∅, ∅, ∅, ∅, ∅, 0⟩

def now (m : Market) : ℕ := m.batches.now

def submittedOf (m : Market) (accountId : AccountId) : Table AssetId Submission :=
  m.ledger.submittedOf accountId

def steamOf (m : Market) (accountId : AccountId) : Steam := m.ledger.steamOf accountId

def captureGuard (m : Market) (accountId : AccountId) : Guard :=
  .current accountId ((m.accountEpoch.lookup accountId).getD 0) m.shutdownEpoch

def continues (m : Market) : Guard → Bool
  | .current accountId epoch shutdownEpoch =>
    (m.accountEpoch.lookup accountId).getD 0 == epoch && m.shutdownEpoch == shutdownEpoch
  | .job jobId => (m.batches.jobs.lookup jobId).any fun job => job.shouldContinue m.now

def Fails (error : ActionError) : Progress := .returns (.failed error)

/-- Go on unless the guard says that the operation was stopped. -/
def whenCurrent (m : Market) (op : Op) (k : Progress) : Progress :=
  if m.continues op.guard then k else Fails stoppedBeforeSubmission

def previewSale (m : Market) (op : Op) (actor : Actor) (assetId : AssetId) (quantity : ℕ) :
    PreviewPoint → MarketRead → Option Progress
  | .inventory _, .inventory items =>
    match assertSellable (m.submittedOf op.accountId) items assetId quantity with
    | .error e => some (Fails e)
    | .ok item => some (.awaits (.previewSale actor assetId quantity (.wallet item)) 0)
  | .wallet item, .wallet wallet =>
    some (.awaits (.previewSale actor assetId quantity (.listings item wallet)) 0)
  | .listings item wallet, .listings listings =>
    if isListed listings assetId then some (Fails alreadyListed)
    else some (.awaits (.previewSale actor assetId quantity (.settings item wallet)) 0)
  | .settings item wallet, .settings settings =>
    match assertMarketable item with
    | .error e => some (Fails e)
    | .ok () => some (.awaits (.previewSale actor assetId quantity (.quote item wallet settings)) 0)
  | .quote item wallet settings, .quote quote =>
    some <| m.whenCurrent op <|
      match salePreview m.drawn (m.now + previewTtl) item quantity quote wallet.currency with
      | .error e => Fails e
      | .ok preview => .issues (.sale {
          accountId := op.accountId
          actor, preview
          apiPrice := quote.base
          buyerCap := quote.buyerCap
          wallet, settings }) (.salePreview preview)
  | _, .failed error => some (Fails error)
  | _, _ => none

def executeSale (m : Market) (op : Op) (intent : Sale) (origin : Origin) (takenAt : ℕ) :
    SalePoint → MarketRead → Option Progress
  | .inventory _, .inventory items =>
    match assertSellable (m.submittedOf op.accountId) items intent.preview.assetId
        intent.preview.quantity with
    | .error e => some (Fails e)
    | .ok item =>
      some <| m.whenCurrent op <| .awaits (.executeSale intent origin takenAt (.wallet item)) 0
  | .wallet item, .wallet wallet =>
    some <| m.whenCurrent op <|
      .awaits (.executeSale intent origin takenAt (.settings item wallet)) 0
  | .settings item wallet, .settings settings =>
    some <| m.whenCurrent op <|
      if wallet ≠ intent.wallet ∨ settings ≠ intent.settings then
        Fails { appError ("Steam wallet currency or fees changed, or price settings changed. " ++
          "Review a new preview.") 409 with stopBatch := true }
      else .awaits (.executeSale intent origin takenAt (.listings item wallet)) 0
  | .listings item wallet, .listings listings =>
    some <| m.whenCurrent op <|
      if isListed listings intent.preview.assetId then Fails alreadyListed
      else match assertMarketable item with
        | .error e => Fails e
        | .ok () => .awaits (.executeSale intent origin takenAt (.quote item wallet)) 0
  | .quote item wallet, .quote quote =>
    some <| m.whenCurrent op <|
      match pricesChanged intent wallet quote with
      | .error e => Fails e
      | .ok true =>
        Fails (appError "Steam market prices changed. Review a fresh preview before selling." 409)
      | .ok false => .awaits (.executeSale intent origin takenAt (.turn item)) 0
  | .turn item, .entered =>
    some <| m.whenCurrent op <| .awaits (.executeSale intent origin takenAt (.recheck item)) 0
  | .recheck item, .confirmed settings accepted =>
    if settings ≠ intent.settings then
      some <| Fails { appError "Price settings changed. Review a new preview." 409 with
        stopBatch := true }
    else some <| m.whenCurrent op <| .posts item accepted
  | .post _, .answered answer => some (.answers answer)
  | .post _, .failed _ => none
  | _, .failed error => some (Fails error)
  | _, _ => none

def previewCancellation (m : Market) (op : Op) (actor : Actor) (listingId : ListingId) :
    Option Wallet → MarketRead → Option Progress
  | none, .wallet wallet => some (.awaits (.previewCancellation actor listingId (some wallet)) 0)
  | some _, .listings listings =>
    some <| m.whenCurrent op <|
      match listings.find? fun entry => entry.listingId == listingId with
      | none =>
        Fails (appError "This listing no longer belongs to the account or is unavailable." 409)
      | some listing =>
        let preview := {
          token := m.drawn
          expiresAt := m.now + previewTtl
          listingId
          name := listing.name }
        .issues (.cancel ⟨op.accountId, actor, preview⟩) (.cancelPreview preview)
  | _, .failed error => some (Fails error)
  | _, _ => none

/-- `executeCancellation` from its first promise on. A lost removal, and a removal that
the listings do not show, are uncertain. -/
def executeCancellation (m : Market) (op : Op) (intent : Cancellation) (origin : Origin)
    (takenAt : ℕ) : CancelPoint → MarketRead → Option Progress
  | .wallet, .wallet _ => some (.awaits (.executeCancellation intent origin takenAt .listings) 0)
  | .listings, .listings listings =>
    some <| m.whenCurrent op <|
      if listings.any fun entry => entry.listingId == intent.preview.listingId then
        .awaits (.executeCancellation intent origin takenAt .turn) 0
      else
        Fails (appError "This listing no longer belongs to the account or was already removed." 409)
  | .turn, .entered => some <| m.whenCurrent op .removes
  | .post, .removed => some (.awaits (.executeCancellation intent origin takenAt .walletAfter) 0)
  | .post, .refused statusCode =>
    some <| Fails (appError
      "Steam did not accept the cancellation. Refresh the current listings." statusCode)
  | .post, .failed error =>
    some <| Fails (if error.notSubmitted then error else uncertainSubmission)
  | .walletAfter, .wallet _ =>
    some (.awaits (.executeCancellation intent origin takenAt .listingsAfter) 0)
  | .listingsAfter, .listings listings =>
    if listings.any fun entry => entry.listingId == intent.preview.listingId then
      some <| Fails { appError ("Steam has not confirmed that the listing was removed. " ++
        "Refresh the current listings before taking further action.") 409 with stopBatch := true }
    else some <| .returns <| .result {
      ok := true
      listingId := some intent.preview.listingId
      pendingConfirmation := false
      message := "Market listing cancelled. Steam will return the item to the inventory." }
  | .walletAfter, .failed _ | .listingsAfter, .failed _ => some (Fails uncertainSubmission)
  | _, .failed error => some (Fails error)
  | _, _ => none

def unavailable (plan : BatchPlan) (assetId : AssetId) (quantity : ℕ) (error : ActionError) :
    BatchCommand Intent :=
  let source := findItem plan.inventory assetId
  { row := {
      assetId := some assetId
      variantId := source.map Item.variantId
      listingId := none
      name := (source.map Item.name).getD ("Asset " ++ assetId)
      quantity
      buyerPays := none
      sellerReceives := none
      steamFee := none
      publisherFee := none
      status := .unavailable
      message := some <| (error.message.map slice500).getD
        "A current market quote is unavailable for this item." }
    execute := none }

def readyRow (m : Market) (op : Op) (actor : Actor) (plan : BatchPlan) (item : Item) (quantity : ℕ)
    (quote : Quote) (token : Uuid) : BatchCommand Intent :=
  match salePreview token (m.now + previewTtl) item quantity quote plan.wallet.currency with
  | .error e => unavailable plan item.assetId quantity e
  | .ok preview =>
    { row := {
        assetId := some item.assetId
        variantId := some item.variantId
        listingId := none
        name := item.name
        quantity
        buyerPays := some preview.totalBuyerPays
        sellerReceives := some preview.totalSellerReceives
        steamFee := some (preview.steamFeePerItem * quantity)
        publisherFee := some (preview.publisherFeePerItem * quantity)
        status := .ready
        message := none }
      execute := some (.sale {
        accountId := op.accountId
        actor, preview
        apiPrice := quote.base
        buyerCap := quote.buyerCap
        wallet := plan.wallet
        settings := plan.settings }) }

def planRow (m : Market) (op : Op) (plan : BatchPlan) (assetId : AssetId) (quantity : ℕ) :
    Except ActionError Item :=
  let submitted := m.submittedOf op.accountId
  match assertSellable submitted plan.inventory assetId quantity with
  | .error e => .error e
  | .ok item =>
    if isListed plan.listings item.assetId then .error alreadyListed
    else if groupQuantity submitted plan.inventory item.group <
        (plan.planned.lookup item.group).getD 0 + quantity + 1 then
      .error (appError "Keep one copy: this batch would sell the last remaining copy." 409)
    else .ok item

def quoteKey (item : Item) : String :=
  item.marketHashName.getD "null" ++ ":" ++ item.publisherFee.getD "null"

def settleQuote (m : Market) (op : Op) (actor : Actor) (plan : BatchPlan) (item : Item)
    (quantity : ℕ) (outcome : Except ActionError Quote) (token : Uuid) : BatchPlan :=
  let quotes := plan.quotes.insert (quoteKey item) outcome
  match outcome with
  | .error e =>
    { plan with quotes, commands := plan.commands ++ [unavailable plan item.assetId quantity e] }
  | .ok quote =>
    { plan with
      quotes
      planned := plan.planned.insert item.group
        ((plan.planned.lookup item.group).getD 0 + quantity)
      commands := plan.commands ++ [m.readyRow op actor plan item quantity quote token] }

/-- Plan rows up to the next quote that is not known, and create the batch at the end.
Each row draws one identifier from `token` on. -/
def planRows (m : Market) (op : Op) (actor : Actor) (input : BatchInput) (token : Uuid) :
    List (AssetId × ℕ) → BatchPlan → Progress
  | [], plan =>
    m.whenCurrent op <|
      .creates .sale plan.wallet.currency plan.commands plan.settings.delaySeconds (token - m.drawn)
  | (assetId, quantity) :: rest, plan =>
    if !m.continues op.guard then Fails stoppedBeforeSubmission
    else if !isId assetId then Fails (appError "Steam returned an invalid item identifier." 502)
    else match m.planRow op plan assetId quantity with
      | .error e =>
        m.planRows op actor input (token + 1) rest
          { plan with commands := plan.commands ++ [unavailable plan assetId quantity e] }
      | .ok item =>
        match plan.quotes.lookup (quoteKey item), assertMarketable item with
        | some outcome, _ =>
          m.planRows op actor input (token + 1) rest
            (m.settleQuote op actor plan item quantity outcome token)
        | none, .error e =>
          m.planRows op actor input (token + 1) rest
            (m.settleQuote op actor plan item quantity (.error e) token)
        | none, .ok () =>
          .awaits (.previewBatch actor input (.quote plan item quantity rest)) (token - m.drawn)

def cancelRow (m : Market) (op : Op) (actor : Actor) (listings : List MarketListing)
    (listingId : ListingId) (token : Uuid) : BatchCommand Intent :=
  let listing := listings.find? fun entry => entry.listingId == listingId
  let name := (listing.map MarketListing.name).getD ("Listing " ++ listingId)
  { row := {
      assetId := listing.map MarketListing.assetId
      listingId := some listingId
      name
      quantity := (listing.map MarketListing.quantity).getD 1
      buyerPays := listing.map fun listing => listing.buyerPays * listing.quantity
      sellerReceives := listing.map fun listing => listing.sellerReceives * listing.quantity
      steamFee := none
      publisherFee := none
      status := if listing.isSome then .ready else .unavailable
      message :=
        if listing.isSome then none
        else some "This listing no longer belongs to this account or is unavailable." }
    execute := listing.map fun _ => .cancel ⟨op.accountId, actor, {
      token
      expiresAt := m.now + previewTtl
      listingId, name }⟩ }

def cancelRows (m : Market) (op : Op) (actor : Actor) (wallet : Wallet)
    (settings : MarketPriceSettings) (listings : List MarketListing)
    (listingIds : List ListingId) : Progress :=
  if listingIds = [] ∨ 50 < listingIds.length ∨ ¬listingIds.Nodup then
    Fails (appError "Choose between one and 50 distinct market listings." 400)
  else if !listingIds.all isId then
    Fails (appError "Steam returned an invalid item identifier." 502)
  else
    m.whenCurrent op <| .creates .cancel wallet.currency
      (listingIds.zipIdx.map fun e => m.cancelRow op actor listings e.1 (m.drawn + e.2))
      settings.delaySeconds listingIds.length

def previewBatch (m : Market) (op : Op) (actor : Actor) (input : BatchInput) :
    BatchPoint → MarketRead → Option Progress
  | .wallet, .wallet wallet =>
    some <| m.whenCurrent op <| .awaits (.previewBatch actor input (.settings wallet)) 0
  | .settings wallet, .settings settings =>
    some <| m.whenCurrent op <|
      match input, validatePriceSettings wallet settings with
      | .sale _, .error e => Fails e
      | _, _ => .awaits (.previewBatch actor input (.listings wallet settings)) 0
  | .listings wallet settings, .listings listings =>
    some <| m.whenCurrent op <|
      match input with
      | .cancel listingIds => m.cancelRows op actor wallet settings listings listingIds
      | .sale items =>
        if items = [] ∨ 50 < items.length ∨ ¬(items.map Prod.fst).Nodup then
          Fails (appError "Choose between one and 50 distinct inventory assets." 400)
        else .awaits (.previewBatch actor input
          (.inventory (m.steamOf op.accountId) wallet settings listings)) 0
  | .inventory _ wallet settings listings, .inventory inventory =>
    match input with
    | .cancel _ => none
    | .sale items =>
      some <| m.whenCurrent op <| m.planRows op actor input m.drawn items
        ⟨wallet, settings, listings, inventory, ∅, ∅, []⟩
  | .quote plan item quantity rest, .quote quote =>
    some <| m.planRows op actor input (m.drawn + 1) rest
      (m.settleQuote op actor plan item quantity (.ok quote) m.drawn)
  | .quote plan item quantity rest, .failed error =>
    some <| m.planRows op actor input (m.drawn + 1) rest
      (m.settleQuote op actor plan item quantity (.error error) m.drawn)
  | _, .failed error => some (Fails error)
  | _, _ => none

/-- `validateSettings`, then the write inside `mutate`. -/
def saveSettings (m : Market) (op : Op) (settings : MarketPriceSettings) :
    SettingsPoint → MarketRead → Option Progress
  | .wallet, .wallet wallet =>
    some <| match validatePriceSettings wallet settings, m.batches.assertIdle op.accountId with
      | .error e, _ => Fails e
      | .ok (), .error e => Fails (queueError e)
      | .ok (), .ok () => .awaits (.saveSettings settings .turn) 0
  | .turn, .entered =>
    some <| match m.batches.assertIdle op.accountId with
      | .error e => Fails (queueError e)
      | .ok () => .awaits (.saveSettings settings .write) 0
  | .write, .wrote => some (.saves settings)
  | _, .failed error => some (Fails error)
  | _, _ => none

/-- An operation resumes with what it awaited. -/
def resume (m : Market) (op : Op) : Running → MarketRead → Option Progress
  | .previewSale actor assetId quantity point => m.previewSale op actor assetId quantity point
  | .executeSale intent origin takenAt point => m.executeSale op intent origin takenAt point
  | .previewCancellation actor listingId wallet => m.previewCancellation op actor listingId wallet
  | .executeCancellation intent origin takenAt point =>
    m.executeCancellation op intent origin takenAt point
  | .previewBatch actor input point => m.previewBatch op actor input point
  | .saveSettings settings point => m.saveSettings op settings point

/-- What a batch row hands back to the runner of its job. -/
def MarketReply.outcome : MarketReply → Except ActionError MarketActionResult
  | .failed error => .error error
  | .result result => .ok result
  | _ => .error stoppedBeforeSubmission

def Running.row : Running → Option Uuid
  | .executeSale _ (.row jobId _) _ _ | .executeCancellation _ (.row jobId _) _ _ => some jobId
  | _ => none

def Stage.row : Stage → Option Uuid
  | .queued (.row jobId _ _) => some jobId
  | .queued _ => none
  | .running r => Running.row r

def Stage.batchActor : Stage → Actor
  | .running (.previewBatch actor _ _) => actor
  | _ => ""

def Stage.savesSettings : Stage → Bool
  | .queued (.saveSettings _) | .running (.saveSettings _ _) => true
  | _ => false

/-- The operation settles: the next one of the account may run. -/
def finish (m : Market) (id : OpId) (op : Op) (reply : MarketReply) : Market :=
  { m with
    ops := m.ops.erase id
    replies := m.replies.insert id reply
    rowReplies :=
      match Stage.row op.stage with
      | some jobId => m.rowReplies.insert jobId (MarketReply.outcome reply)
      | none => m.rowReplies
    settingsWrites :=
      if Stage.savesSettings op.stage then m.settingsWrites.erase op.accountId
      else m.settingsWrites }

def become (m : Market) (id : OpId) (op : Op) (r : Running) : Market :=
  { m with ops := m.ops.insert id { op with stage := .running r } }

/-- The request that asks Steam to sell. -/
def post (m : Market) (id : OpId) (op : Op) (intent : Sale) (origin : Origin) (takenAt : ℕ)
    (item : Item) (accepted : Bool) : Market :=
  { m with ledger := m.ledger.post id {
      accountId := op.accountId
      actor := intent.actor
      assetId := intent.preview.assetId
      quantity := intent.preview.quantity
      before := item.quantity
      origin, takenAt
      sentAt := m.now } accepted }.become id op (.executeSale intent origin takenAt (.post accepted))

def saleMessage (pendingConfirmation : Bool) : String :=
  if pendingConfirmation then
    "Listing submitted. Confirm it in the Steam mobile app or confirmation email."
  else "Listing submitted to the Steam Community Market."

def Answer.reply : Answer → MarketReply
  | .threw error => .failed (if error.notSubmitted then error else uncertainSubmission)
  | .data true listingId pendingConfirmation =>
    .result ⟨true, listingId, pendingConfirmation, saleMessage pendingConfirmation⟩
  | .data false _ _ =>
    .failed (appError ("Steam rejected the listing. Check market eligibility, trade holds, and " ++
      "Steam Guard in Steam before retrying.") 409)

def answer (m : Market) (id : OpId) (op : Op) (assetId : AssetId) (answer : Answer) : Market :=
  { m with ledger := m.ledger.answer id op.accountId assetId answer }.finish id op
    (Answer.reply answer)

def issue (m : Market) (id : OpId) (op : Op) (intent : Intent) (reply : MarketReply) : Market :=
  let event := .issued intent.token intent.accountId intent.actor intent.kind intent.expiresAt
  { m with
    intents := m.intents.insert intent.token intent
    ledger := m.ledger.record event
    drawn := m.drawn + 1 }.finish id op reply

def remove (m : Market) (id : OpId) (op : Op) (intent : Cancellation) (origin : Origin)
    (takenAt : ℕ) : Market :=
  { m with ledger := m.ledger.record (.removed id {
      accountId := op.accountId
      actor := intent.actor
      listingId := intent.preview.listingId
      origin, takenAt
      sentAt := m.now }) }.become id op (.executeCancellation intent origin takenAt .post)

def perform (m : Market) (id : OpId) (op : Op) : Progress → Market
  | .awaits r draws => { m with drawn := m.drawn + draws }.become id op r
  | .returns reply => m.finish id op reply
  | .issues intent reply => m.issue id op intent reply
  | .creates kind currency commands delaySeconds draws =>
    match m.batches.create op.accountId (Stage.batchActor op.stage) kind (some currency) commands delaySeconds with
    | (.error e, batches) =>
      { m with batches, drawn := m.drawn + draws }.finish id op (.failed (queueError e))
    | (.ok preview, batches) =>
      { m with batches, drawn := m.drawn + draws }.finish id op (.batchPreview preview)
  | .saves settings =>
    { m with stored := m.stored.insert op.accountId settings }.finish id op .saved
  | .posts item accepted =>
    match op.stage with
    | .running (.executeSale intent origin takenAt _) =>
      m.post id op intent origin takenAt item accepted
    | _ => m
  | .answers answer =>
    match op.stage with
    | .running (.executeSale intent _ _ _) => m.answer id op intent.preview.assetId answer
    | _ => m
  | .removes =>
    match op.stage with
    | .running (.executeCancellation intent origin takenAt _) =>
      m.remove id op intent origin takenAt
    | _ => m

/-- A complete inventory lists distinct assets with at least one copy each. -/
def isComplete (items : List Item) : Bool :=
  decide (items.map Item.assetId).Nodup && items.all fun item => decide (0 < item.quantity)

def load (m : Market) (accountId : AccountId) (items : List Item) : Market :=
  { m with ledger := m.ledger.load accountId items }

/-- A promise of operation `id` settles; an inventory releases settled submissions first. -/
def reads (m : Market) (id : OpId) (read : MarketRead) : Option Market :=
  match m.ops.lookup id with
  | some op@⟨accountId, _, .running r⟩ =>
    match read with
    | .inventory items =>
      if isComplete items then
        ((m.load accountId items).resume op r read).map ((m.load accountId items).perform id op)
      else none
    | read => (m.resume op r read).map (m.perform id op)
  | _ => none

/-- Drop expired intents; too many pending ones refuse another preview. -/
def pruneIntents (m : Market) : Except ActionError Unit × Market :=
  let m := { m with intents := m.intents.retain fun _ intent => decide (m.now < intent.expiresAt) }
  if 1000 ≤ m.intents.size then
    (.error (appError "Too many pending market previews. Wait a minute and try again." 429), m)
  else (.ok (), m)

def takeIntent (m : Market) (accountId : AccountId) (actor : Actor) (token : Uuid)
    (kind : MarketKind) : Except ActionError Intent × Market :=
  match m.intents.lookup token with
  | none =>
    (.error (appError "Market preview is invalid. Create a new preview." 409), m)
  | some intent =>
    if intent.accountId ≠ accountId ∨ intent.actor ≠ actor ∨ intent.kind ≠ kind then
      (.error (appError "Market preview is invalid. Create a new preview." 409), m)
    else
      let m := { m with intents := m.intents.erase token }
      if intent.expiresAt ≤ m.now then
        (.error (appError "Market preview expired. Review a fresh price before confirming." 409), m)
      else (.ok intent, m)

/-- Execute a confirmed intent up to its first promise. -/
def execute (m : Market) (op : Op) (origin : Origin) : Intent → Progress
  | .sale intent =>
    m.whenCurrent op <| .awaits
      (.executeSale intent origin m.now (.inventory (m.steamOf op.accountId))) 0
  | .cancel intent =>
    m.whenCurrent op <| .awaits (.executeCancellation intent origin m.now .wallet) 0

/-- Take the intent of a confirmed preview and execute it. -/
def confirm (m : Market) (op : Op) (actor : Actor) (token : Uuid) (kind : MarketKind) :
    Progress × Market :=
  if !m.continues op.guard then (Fails stoppedBeforeSubmission, m)
  else match m.takeIntent op.accountId actor token kind with
    | (.error e, m) => (Fails e, m)
    | (.ok intent, m) => (m.execute op (.confirmed actor kind token) intent, m)

/-- The start of a preview: prune, then the first promise. -/
def preview (m : Market) (op : Op) (r : Running) : Progress × Market :=
  if !m.continues op.guard then (Fails stoppedBeforeSubmission, m)
  else match m.pruneIntents with
    | (.error e, m) => (Fails e, m)
    | (.ok (), m) => (.awaits r 0, m)

def begin (m : Market) (op : Op) : Call → Progress × Market
  | .previewSale actor assetId quantity =>
    m.preview op (.previewSale actor assetId quantity (.inventory (m.steamOf op.accountId)))
  | .confirmSale actor token => m.confirm op actor token .sale
  | .previewCancellation actor listingId =>
    m.preview op (.previewCancellation actor listingId none)
  | .confirmCancellation actor token => m.confirm op actor token .cancel
  | .previewBatch actor input =>
    match m.batches.assertIdle op.accountId with
    | .error e => (Fails (queueError e), m)
    | .ok () => (.awaits (.previewBatch actor input .wallet) 0, m)
  | .row jobId index intent => (m.execute op (.row jobId index) intent, m)
  | .saveSettings settings =>
    match m.batches.assertIdle op.accountId with
    | .error e => (Fails (queueError e), m)
    | .ok () => (.awaits (.saveSettings settings .wallet) 0, m)

/-- Every earlier operation of the account has settled. -/
def isNext (m : Market) (id : OpId) (accountId : AccountId) : Bool :=
  m.ops.entries.all fun e => decide (id ≤ e.1) || e.2.accountId != accountId

def run (m : Market) (id : OpId) : Option Market :=
  match m.ops.lookup id with
  | some op@⟨accountId, _, .queued call⟩ =>
    if m.isNext id accountId then
      let (progress, m) := m.begin op call
      some (m.perform id op progress)
    else none
  | _ => none

def enqueue (m : Market) (accountId : AccountId) (guard : Guard) (call : Call) : Market :=
  { m with
    ops := m.ops.insert m.drawn ⟨accountId, guard, .queued call⟩
    drawn := m.drawn + 1 }

def refuse (m : Market) (error : ActionError) : Market :=
  { m with replies := m.replies.insert m.drawn (.failed error), drawn := m.drawn + 1 }

def callIdle (m : Market) (accountId : AccountId) (call : Call) : Market :=
  match m.batches.assertIdle accountId with
  | .error e => m.refuse (queueError e)
  | .ok () => m.enqueue accountId (m.captureGuard accountId) call

def callSaveSettings (m : Market) (accountId : AccountId) (settings : MarketPriceSettings) :
    Market :=
  if accountId ∈ m.settingsWrites then
    m.refuse (appError "Price settings are already being saved for this account." 409)
  else
    { m with settingsWrites := accountId :: m.settingsWrites }.enqueue accountId
      (m.captureGuard accountId) (.saveSettings settings)

def callRow (m : Market) (jobId : Uuid) : Market :=
  match m.batches.jobs.lookup jobId with
  | none => m
  | some job =>
    match job.suspension with
    | .executing index =>
      match (job.commands[index]?).bind BatchCommand.execute with
      | some intent => m.enqueue intent.accountId (.job jobId) (.row jobId index intent)
      | none => m
    | _ => m

def confirmBatch (m : Market) (accountId : AccountId) (actor : Actor) (token : Uuid) : Market :=
  if accountId ∈ m.settingsWrites then
    m.refuse (appError "Price settings are being saved. Wait before confirming this batch." 409)
  else
    match m.batches.confirm accountId actor token with
    | (.error e, batches) => { m with batches }.refuse (queueError e)
    | (.ok job, batches) => { m with batches }.callRow job.id

def stopAccountBatches (m : Market) (accountId : AccountId) : Market :=
  { m with
    accountEpoch := m.accountEpoch.insert accountId ((m.accountEpoch.lookup accountId).getD 0 + 1)
    intents := m.intents.retain fun _ intent => intent.accountId != accountId
    batches := m.batches.stopAccount accountId }

def shutdownBatches (m : Market) : Market :=
  { m with
    shutdownEpoch := m.shutdownEpoch + 1
    intents := ∅
    batches := m.batches.shutdown }

/-- The promise of a row's `execute` resumes the runner. -/
def rowReturns (m : Market) (jobId : Uuid) : Option Market := do
  let outcome ← m.rowReplies.lookup jobId
  let batches ← m.batches.executed jobId outcome
  some ({ m with batches, rowReplies := m.rowReplies.erase jobId }.callRow jobId)

def rowWaited (m : Market) (jobId : Uuid) (resolved : Bool) : Option Market := do
  let batches ← m.batches.waited jobId resolved
  some ({ m with batches }.callRow jobId)

/-- `inventory()` is called: its load is not serialised. -/
def inventory (m : Market) (accountId : AccountId) : Market :=
  { m with
    loads := m.loads.insert m.drawn ⟨accountId, m.steamOf accountId⟩
    drawn := m.drawn + 1 }

def inventoryLoads (m : Market) (id : OpId) (items : List Item) : Option Market := do
  let pending ← m.loads.lookup id
  if isComplete items then
    some ({ m with loads := m.loads.erase id }.load pending.accountId items)
  else none

def inventoryFails (m : Market) (id : OpId) : Market := { m with loads := m.loads.erase id }

/-- Copies accepted for sale leave Steam's inventory report. -/
def disappear (m : Market) (accountId : AccountId) (assetId : AssetId) (count : ℕ) :
    Option Market :=
  (m.ledger.disappear accountId assetId count).map fun ledger => { m with ledger }

end Market

/-- The calls of the service, its turns and promises, Steam's report and the clock. -/
inductive MarketAction where
  | previewSale (accountId : AccountId) (actor : Actor) (assetId : AssetId) (quantity : ℕ)
  | confirmSale (accountId : AccountId) (actor : Actor) (token : Uuid)
  | previewCancellation (accountId : AccountId) (actor : Actor) (listingId : ListingId)
  | confirmCancellation (accountId : AccountId) (actor : Actor) (token : Uuid)
  | previewBatch (accountId : AccountId) (actor : Actor) (input : BatchInput)
  | confirmBatch (accountId : AccountId) (actor : Actor) (token : Uuid)
  | stopBatch (accountId : AccountId) (actor : Actor) (jobId : Uuid)
  | stopAccountBatches (accountId : AccountId)
  | shutdownBatches
  | saveSettings (accountId : AccountId) (settings : MarketPriceSettings)
  | inventory (accountId : AccountId)
  | inventoryLoads (id : OpId) (items : List Item)
  | inventoryFails (id : OpId)
  | run (id : OpId)
  | reads (id : OpId) (read : MarketRead)
  | rowReturns (jobId : Uuid)
  | rowWaited (jobId : Uuid) (resolved : Bool)
  | disappear (accountId : AccountId) (assetId : AssetId) (count : ℕ)
  | tick (elapsed : ℕ)

/-- The service under every interleaving at network and lock waits. -/
def marketMachine : Transition.Machine Market MarketAction where
  Starts m := ∃ steam, IsFresh steam ∧ m = .empty steam
  next m
    | .previewSale accountId actor assetId quantity =>
      some (m.callIdle accountId (.previewSale actor assetId quantity))
    | .confirmSale accountId actor token => some (m.callIdle accountId (.confirmSale actor token))
    | .previewCancellation accountId actor listingId =>
      some (m.callIdle accountId (.previewCancellation actor listingId))
    | .confirmCancellation accountId actor token =>
      some (m.callIdle accountId (.confirmCancellation actor token))
    | .previewBatch accountId actor input => some (m.callIdle accountId (.previewBatch actor input))
    | .confirmBatch accountId actor token => some (m.confirmBatch accountId actor token)
    | .stopBatch accountId actor jobId =>
      some { m with batches := (m.batches.stop accountId actor jobId).2 }
    | .stopAccountBatches accountId => some (m.stopAccountBatches accountId)
    | .shutdownBatches => some m.shutdownBatches
    | .saveSettings accountId settings => some (m.callSaveSettings accountId settings)
    | .inventory accountId => some (m.inventory accountId)
    | .inventoryLoads id items => m.inventoryLoads id items
    | .inventoryFails id => some (m.inventoryFails id)
    | .run id => m.run id
    | .reads id read => m.reads id read
    | .rowReturns jobId => m.rowReturns jobId
    | .rowWaited jobId resolved => m.rowWaited jobId resolved
    | .disappear accountId assetId count => m.disappear accountId assetId count
    | .tick elapsed => some { m with batches := { m.batches with now := m.batches.now + elapsed } }

end SteamBee.Inventory
