import SteamBee.Inventory.Market

/-! What one step of the market service does to its ledger and to its operations. -/
namespace SteamBee.Inventory

namespace Running

/-- Steam's stacks when the inventory that the operation waits for was requested. -/
def since : Running → Option Steam
  | .previewSale _ _ _ (.inventory since) => some since
  | .executeSale _ _ _ (.inventory since) => some since
  | .previewBatch _ _ (.inventory since _ _ _) => some since
  | _ => none

/-- The sale whose asset has passed `assertSellable` and has not been posted. -/
def checked : Running → Option (Sale × Item)
  | .executeSale intent _ _ point =>
    match point with
    | .wallet item | .settings item _ | .listings item _ | .quote item _ | .turn item
    | .recheck item => some (intent, item)
    | .inventory _ | .post _ => none
  | _ => none

/-- The sale whose request is in flight, and whether Steam accepts it. -/
def posting : Running → Option (Sale × Bool)
  | .executeSale intent _ _ (.post accepted) => some (intent, accepted)
  | _ => none

def intent : Running → Option (Intent × Origin × ℕ)
  | .executeSale intent origin takenAt _ => some (.sale intent, origin, takenAt)
  | .executeCancellation intent origin takenAt _ => some (.cancel intent, origin, takenAt)
  | _ => none

inductive Task where
  | previewSale (actor : Actor) (assetId : AssetId) (quantity : ℕ)
  | execute (intent : Intent) (origin : Origin) (takenAt : ℕ)
  | previewCancellation (actor : Actor) (listingId : ListingId)
  | previewBatch (actor : Actor) (input : BatchInput)
  | saveSettings (settings : MarketPriceSettings)

def task : Running → Task
  | .previewSale actor assetId quantity _ => .previewSale actor assetId quantity
  | .executeSale intent origin takenAt _ => .execute (.sale intent) origin takenAt
  | .previewCancellation actor listingId _ => .previewCancellation actor listingId
  | .executeCancellation intent origin takenAt _ => .execute (.cancel intent) origin takenAt
  | .previewBatch actor input _ => .previewBatch actor input
  | .saveSettings settings _ => .saveSettings settings

/-- An intent is executed whose request has not been sent. -/
def unsent : Running → Bool
  | .executeSale _ _ _ point =>
    match point with
    | .post _ => false
    | _ => true
  | .executeCancellation _ _ _ point =>
    match point with
    | .wallet | .listings | .turn => true
    | .post | .walletAfter | .listingsAfter => false
  | _ => false

def sends : Running → MarketRead → Bool
  | .executeSale _ _ _ (.recheck _), .confirmed _ _ => true
  | .executeCancellation _ _ _ .turn, .entered => true
  | _, _ => false

end Running

def MarketRead.isInventory : MarketRead → Bool
  | .inventory _ => true
  | _ => false

def Call.isRow : Call → Bool
  | .row _ _ _ => true
  | _ => false

def MarketAction.resumesRunner : MarketAction → Bool
  | .confirmBatch _ _ _ | .rowReturns _ | .rowWaited _ _ => true
  | _ => false

/-- The reads at which a sale is requested or its request settles. -/
def MarketRead.isRequest : MarketRead → Bool
  | .confirmed _ _ | .answered _ => true
  | _ => false

structure Running.Resumes (m : Market) (op : Op) (r : Running) (read : MarketRead) (r' : Running) :
    Prop where
  task : r'.task = r.task
  waits : read.isRequest = false
  since : ∀ s, r'.since = some s → s = m.steamOf op.accountId
  checked : ∀ intent item, r'.checked = some (intent, item) → r.checked = some (intent, item) ∨
    ∃ origin takenAt s items, r = .executeSale intent origin takenAt (.inventory s) ∧
      read = .inventory items ∧ assertSellable (m.submittedOf op.accountId) items
        intent.preview.assetId intent.preview.quantity = .ok item
  posting : r'.posting = none
  intent : ∀ x, r'.intent = some x → r.intent = some x
  unsent : r'.unsent = true → r.unsent = true ∧ r.sends read = false

def Progress.Follows (m : Market) (op : Op) (r : Running) (read : MarketRead) : Progress → Prop
  | .awaits r' _ => r.Resumes m op read r'
  | .returns _ => r.posting = none
  | .creates _ _ _ _ _ => r.posting = none
  | .saves settings => r = .saveSettings settings .write ∧ read.isInventory = false
  | .issues intent _ => r.posting = none ∧ read.isInventory = false ∧ intent.token = m.drawn ∧
    intent.accountId = op.accountId
  | .posts item accepted => ∃ intent origin takenAt settings,
    r = .executeSale intent origin takenAt (.recheck item) ∧ read = .confirmed settings accepted
  | .answers answer => ∃ intent origin takenAt accepted,
    r = .executeSale intent origin takenAt (.post accepted) ∧ read = .answered answer
  | .removes =>
    read = .entered ∧ ∃ intent origin takenAt, r = .executeCancellation intent origin takenAt .turn

namespace Market
variable {m : Market} {op : Op} {r : Running} {read : MarketRead} {p : Progress}

theorem follows_whenCurrent (h : p.Follows m op r read) (hr : r.posting = none) :
    (m.whenCurrent op p).Follows m op r read := by
  unfold whenCurrent
  split_ifs
  · exact h
  · exact hr

theorem previewSale_follows {actor : Actor} {assetId : AssetId} {quantity : ℕ}
    {point : PreviewPoint} (h : m.previewSale op actor assetId quantity point read = some p) :
    p.Follows m op (.previewSale actor assetId quantity point) read := by
  have hawaits (point' : PreviewPoint) (hread : read.isRequest = false)
      (hp : ∀ s, point' ≠ .inventory s) :
      Running.Resumes m op (.previewSale actor assetId quantity point) read
        (.previewSale actor assetId quantity point') := by
    refine ⟨rfl, hread, fun s hs => ?_, ?_, rfl, ?_, ?_⟩
    · cases point' with
      | inventory s' => exact absurd rfl (hp s')
      | _ => cases hs
    · intro _ _ hc
      cases hc
    · intro _ hi
      cases hi
    · intro hu
      cases hu
  unfold previewSale at h
  split at h
  next =>
    split at h
    next => obtain rfl := Option.some.inj h; rfl
    next => obtain rfl := Option.some.inj h; exact hawaits _ rfl (by simp)
  next => obtain rfl := Option.some.inj h; exact hawaits _ rfl (by simp)
  next =>
    split_ifs at h
    · obtain rfl := Option.some.inj h; rfl
    · obtain rfl := Option.some.inj h; exact hawaits _ rfl (by simp)
  next =>
    split at h
    next => obtain rfl := Option.some.inj h; rfl
    next => obtain rfl := Option.some.inj h; exact hawaits _ rfl (by simp)
  next =>
    obtain rfl := Option.some.inj h
    refine follows_whenCurrent ?_ rfl
    split
    next => rfl
    next preview hp =>
      refine ⟨rfl, rfl, ?_, rfl⟩
      simp only [salePreview, bind, Except.bind] at hp
      split at hp <;> [cases hp; skip]
      split at hp <;> [cases hp; skip]
      split at hp <;> [cases hp; skip]
      split at hp <;> [cases hp; skip]
      split at hp <;> [cases hp; skip]
      split at hp <;> [cases hp; skip]
      obtain rfl := Except.ok.inj hp
      rfl
  next => obtain rfl := Option.some.inj h; rfl
  next => cases h

theorem executeSale_follows {intent : Sale} {origin : Origin} {takenAt : ℕ} {point : SalePoint}
    (h : m.executeSale op intent origin takenAt point read = some p) :
    p.Follows m op (.executeSale intent origin takenAt point) read := by
  have hawaits (point' : SalePoint) (hread : read.isRequest = false)
      (hp : ∀ s, point' ≠ .inventory s) (hp' : ∀ b, point' ≠ .post b)
      (hu : (Running.executeSale intent origin takenAt point).unsent = true ∧
        (Running.executeSale intent origin takenAt point).sends read = false)
      (hc : ∀ item, (Running.executeSale intent origin takenAt point').checked =
        some (intent, item) →
        (Running.executeSale intent origin takenAt point).checked = some (intent, item) ∨
        ∃ s items, point = .inventory s ∧ read = .inventory items ∧
          assertSellable (m.submittedOf op.accountId) items intent.preview.assetId
            intent.preview.quantity = .ok item) :
      Running.Resumes m op (.executeSale intent origin takenAt point) read
        (.executeSale intent origin takenAt point') := by
    refine ⟨rfl, hread, fun s hs => ?_, fun intent' item hi => ?_, ?_, fun _ hs => hs, fun _ => hu⟩
    · cases point' with
      | inventory s' => exact absurd rfl (hp s')
      | _ => cases hs
    · obtain rfl : intent = intent' := by
        cases point' with
        | inventory | post => cases hi
        | _ => exact (Prod.ext_iff.mp (Option.some.inj hi)).1
      rcases hc item hi with hc | ⟨s, items, rfl, rfl, hsell⟩
      · exact .inl hc
      · exact .inr ⟨origin, takenAt, s, items, rfl, rfl, hsell⟩
    · cases point' with
      | post b => exact absurd rfl (hp' b)
      | _ => rfl
  unfold executeSale at h
  split at h
  next s items =>
    split at h
    next => obtain rfl := Option.some.inj h; rfl
    next item hsell =>
      obtain rfl := Option.some.inj h
      refine follows_whenCurrent (hawaits _ rfl (by simp) (by simp) ⟨rfl, rfl⟩ fun item' hi => ?_) rfl
      obtain rfl : item = item' := (Prod.ext_iff.mp (Option.some.inj hi)).2
      exact .inr ⟨s, items, rfl, rfl, hsell⟩
  next =>
    obtain rfl := Option.some.inj h
    exact follows_whenCurrent (hawaits _ rfl (by simp) (by simp) ⟨rfl, rfl⟩ fun _ hi => .inl hi) rfl
  next =>
    obtain rfl := Option.some.inj h
    refine follows_whenCurrent ?_ rfl
    split_ifs
    · rfl
    · exact hawaits _ rfl (by simp) (by simp) ⟨rfl, rfl⟩ fun _ hi => .inl hi
  next =>
    obtain rfl := Option.some.inj h
    refine follows_whenCurrent ?_ rfl
    split_ifs
    · rfl
    · split
      next => rfl
      next => exact hawaits _ rfl (by simp) (by simp) ⟨rfl, rfl⟩ fun _ hi => .inl hi
  next =>
    obtain rfl := Option.some.inj h
    refine follows_whenCurrent ?_ rfl
    split
    next => rfl
    next => rfl
    next => exact hawaits _ rfl (by simp) (by simp) ⟨rfl, rfl⟩ fun _ hi => .inl hi
  next =>
    obtain rfl := Option.some.inj h
    exact follows_whenCurrent (hawaits _ rfl (by simp) (by simp) ⟨rfl, rfl⟩ fun _ hi => .inl hi) rfl
  next settings accepted =>
    split_ifs at h
    · obtain rfl := Option.some.inj h; rfl
    · obtain rfl := Option.some.inj h
      exact follows_whenCurrent ⟨intent, origin, takenAt, settings, rfl, rfl⟩ rfl
  next accepted answer =>
    obtain rfl := Option.some.inj h
    exact ⟨intent, origin, takenAt, accepted, rfl, rfl⟩
  next => cases h
  next hp =>
    obtain rfl := Option.some.inj h
    cases point with
    | post b => exact absurd rfl (hp b)
    | _ => rfl
  next => cases h

theorem previewCancellation_follows {actor : Actor} {listingId : ListingId}
    {wallet : Option Wallet} (h : m.previewCancellation op actor listingId wallet read = some p) :
    p.Follows m op (.previewCancellation actor listingId wallet) read := by
  unfold previewCancellation at h
  split at h
  next =>
    obtain rfl := Option.some.inj h
    exact ⟨rfl, rfl, by simp [Running.since], by simp [Running.checked], rfl,
      by simp [Running.intent], by simp [Running.unsent]⟩
  next =>
    obtain rfl := Option.some.inj h
    refine follows_whenCurrent ?_ rfl
    split
    next => rfl
    next => exact ⟨rfl, rfl, rfl, rfl⟩
  next => obtain rfl := Option.some.inj h; rfl
  next => cases h

theorem executeCancellation_follows {intent : Cancellation} {origin : Origin} {takenAt : ℕ}
    {point : CancelPoint} (h : m.executeCancellation op intent origin takenAt point read = some p) :
    p.Follows m op (.executeCancellation intent origin takenAt point) read := by
  have hawaits (point' : CancelPoint) (hread : read.isRequest = false)
      (hu : (Running.executeCancellation intent origin takenAt point').unsent = true →
        (Running.executeCancellation intent origin takenAt point).unsent = true ∧
          (Running.executeCancellation intent origin takenAt point).sends read = false) :
      Running.Resumes m op (.executeCancellation intent origin takenAt point) read
        (.executeCancellation intent origin takenAt point') :=
    ⟨rfl, hread, by simp [Running.since], by simp [Running.checked], rfl, fun _ hi => hi, hu⟩
  unfold executeCancellation at h
  split at h
  next => obtain rfl := Option.some.inj h; exact hawaits _ rfl (by simp [Running.unsent, Running.sends])
  next =>
    obtain rfl := Option.some.inj h
    refine follows_whenCurrent ?_ rfl
    split_ifs
    · exact hawaits _ rfl (by simp [Running.unsent, Running.sends])
    · rfl
  next =>
    obtain rfl := Option.some.inj h
    exact follows_whenCurrent ⟨rfl, intent, origin, takenAt, rfl⟩ rfl
  next => obtain rfl := Option.some.inj h; exact hawaits _ rfl (by simp [Running.unsent, Running.sends])
  next => obtain rfl := Option.some.inj h; rfl
  next => obtain rfl := Option.some.inj h; rfl
  next => obtain rfl := Option.some.inj h; exact hawaits _ rfl (by simp [Running.unsent, Running.sends])
  next => split_ifs at h <;> (obtain rfl := Option.some.inj h; rfl)
  next => obtain rfl := Option.some.inj h; rfl
  next => obtain rfl := Option.some.inj h; rfl
  next => obtain rfl := Option.some.inj h; rfl
  next => cases h

theorem resumes_previewBatch {actor : Actor} {input : BatchInput} {point : BatchPoint}
    (hr : r.task = .previewBatch actor input) (hread : read.isRequest = false)
    (hs : ∀ s, (Running.previewBatch actor input point).since = some s →
      s = m.steamOf op.accountId) : r.Resumes m op read (.previewBatch actor input point) :=
  ⟨hr.symm, hread, hs, by simp [Running.checked], rfl, by simp [Running.intent],
    by simp [Running.unsent]⟩

/-- By induction on the rows. -/
theorem planRows_follows {actor : Actor} {input : BatchInput} (hr : r.posting = none)
    (ht : r.task = .previewBatch actor input) (hread : read.isRequest = false)
    (rows : List (AssetId × ℕ)) (token : Uuid) (plan : BatchPlan) :
    (m.planRows op actor input token rows plan).Follows m op r read := by
  induction rows generalizing token plan with
  | nil => exact follows_whenCurrent hr hr
  | cons row rows ih =>
    obtain ⟨assetId, quantity⟩ := row
    unfold planRows
    split_ifs
    · exact hr
    · exact hr
    · split
      next => exact ih _ _
      next =>
        split
        next => exact ih _ _
        next => exact ih _ _
        next => exact resumes_previewBatch ht hread (by simp [Running.since])

theorem previewBatch_follows {actor : Actor} {input : BatchInput} {point : BatchPoint}
    (h : m.previewBatch op actor input point read = some p) :
    p.Follows m op (.previewBatch actor input point) read := by
  unfold previewBatch at h
  split at h
  next =>
    obtain rfl := Option.some.inj h
    exact follows_whenCurrent (resumes_previewBatch rfl rfl (by simp [Running.since])) rfl
  next =>
    obtain rfl := Option.some.inj h
    refine follows_whenCurrent ?_ rfl
    split
    next => rfl
    next => exact resumes_previewBatch rfl rfl (by simp [Running.since])
  next =>
    obtain rfl := Option.some.inj h
    refine follows_whenCurrent ?_ rfl
    split
    next =>
      unfold cancelRows
      split_ifs
      · rfl
      · rfl
      · exact follows_whenCurrent rfl rfl
    next =>
      split_ifs
      · rfl
      · exact resumes_previewBatch rfl rfl (by simp [Running.since])
  next =>
    split at h
    next => cases h
    next =>
      obtain rfl := Option.some.inj h
      exact follows_whenCurrent (planRows_follows rfl rfl rfl _ _ _) rfl
  next => obtain rfl := Option.some.inj h; exact planRows_follows rfl rfl rfl _ _ _
  next => obtain rfl := Option.some.inj h; exact planRows_follows rfl rfl rfl _ _ _
  next => obtain rfl := Option.some.inj h; rfl
  next => cases h

theorem saveSettings_follows {settings : MarketPriceSettings} {point : SettingsPoint}
    (h : m.saveSettings op settings point read = some p) :
    p.Follows m op (.saveSettings settings point) read := by
  have hawaits (point' : SettingsPoint) (hread : read.isRequest = false) :
      Running.Resumes m op (.saveSettings settings point) read (.saveSettings settings point') :=
    ⟨rfl, hread, by simp [Running.since], by simp [Running.checked], rfl, by simp [Running.intent],
      by simp [Running.unsent]⟩
  unfold saveSettings at h
  split at h
  next =>
    obtain rfl := Option.some.inj h
    split
    next => rfl
    next => rfl
    next => exact hawaits _ rfl
  next =>
    obtain rfl := Option.some.inj h
    split
    next => rfl
    next => exact hawaits _ rfl
  next => obtain rfl := Option.some.inj h; exact ⟨rfl, rfl⟩
  next => obtain rfl := Option.some.inj h; rfl
  next => cases h

theorem resume_follows (h : m.resume op r read = some p) : p.Follows m op r read := by
  cases r with
  | previewSale => exact previewSale_follows h
  | executeSale => exact executeSale_follows h
  | previewCancellation => exact previewCancellation_follows h
  | executeCancellation => exact executeCancellation_follows h
  | previewBatch => exact previewBatch_follows h
  | saveSettings => exact saveSettings_follows h

/-- Only an operation that waits for an inventory takes one. -/
theorem since_of_resume {items : List Item} (h : m.resume op r (.inventory items) = some p) :
    ∃ s, r.since = some s := by
  cases r with
  | previewSale _ _ _ point =>
    cases point with
    | inventory s => exact ⟨s, rfl⟩
    | _ => cases h
  | executeSale _ _ _ point =>
    cases point with
    | inventory s => exact ⟨s, rfl⟩
    | _ => cases h
  | previewCancellation _ _ wallet => cases wallet <;> cases h
  | executeCancellation _ _ _ point => cases point <;> cases h
  | previewBatch _ _ point =>
    cases point with
    | inventory s => exact ⟨s, rfl⟩
    | _ => cases h
  | saveSettings _ point => cases point <;> cases h

/-- What an operation starts with, at its turn; `m'` is the market afterwards. -/
structure Begins (m m' : Market) (op : Op) (call : Call) (r : Running) : Prop where
  since : ∀ s, r.since = some s → s = m.steamOf op.accountId
  checked : r.checked = none
  posting : r.posting = none
  intent : ∀ i origin takenAt, r.intent = some (i, origin, takenAt) → takenAt = m.now ∧
    ((∃ token, origin = .confirmed i.actor i.kind token ∧ m.intents.lookup token = some i ∧
      i.accountId = op.accountId ∧ m.now < i.expiresAt ∧ m'.intents.lookup token = none) ∨
    ∃ jobId index, call = .row jobId index i ∧ origin = .row jobId index)
  saves : ∀ settings, r.task = .saveSettings settings →
    r = .saveSettings settings .wallet ∧ call = .saveSettings settings

/-- The market an operation resumes in: an inventory releases settled submissions first. -/
def receives (m : Market) (op : Op) : MarketRead → Market
  | .inventory items => m.load op.accountId items
  | _ => m

inductive OpStep (m : Market) (a : MarketAction) (m' : Market) (k : OpId) (op' : Op) : Prop where
  | same (h : m.ops.lookup k = some op') (ha : ∀ read, a ≠ .reads k read)
  | called (call : Call) (hk : k = m.drawn) (hlt : k < m'.drawn) (hop : op'.stage = .queued call)
      (hrow : call.isRow = true → a.resumesRunner = true)
  | begins (op : Op) (call : Call) (r : Running) (h : m.ops.lookup k = some op)
      (hstage : op.stage = .queued call) (ha : a = .run k) (hnext : m.isNext k op.accountId = true)
      (hop : op' = { op with stage := .running r }) (hr : m.Begins m' op call r)
  | resumes (op : Op) (r r' : Running) (read : MarketRead) (h : m.ops.lookup k = some op)
      (hstage : op.stage = .running r) (ha : a = .reads k read)
      (hop : op' = { op with stage := .running r' }) (hr : r.Resumes (m.receives op read) op read r')
      (draws : ℕ) (hresume : (m.receives op read).resume op r read = some (.awaits r' draws))
  | posts (op : Op) (intent : Sale) (origin : Origin) (takenAt : ℕ) (item : Item)
      (settings : MarketPriceSettings) (accepted : Bool) (h : m.ops.lookup k = some op)
      (hstage : op.stage = .running (.executeSale intent origin takenAt (.recheck item)))
      (ha : a = .reads k (.confirmed settings accepted))
      (hop : op' = { op with
        stage := .running (.executeSale intent origin takenAt (.post accepted)) })
  | removes (op : Op) (intent : Cancellation) (origin : Origin) (takenAt : ℕ)
      (h : m.ops.lookup k = some op)
      (hstage : op.stage = .running (.executeCancellation intent origin takenAt .turn))
      (ha : a = .reads k .entered)
      (hop : op' = { op with
        stage := .running (.executeCancellation intent origin takenAt .post) })

inductive LedgerStep (m : Market) (drawn : ℕ) : MarketAction → Ledger → Prop where
  | same (a : MarketAction) (ha : ∀ k items, a ≠ .reads k (.inventory items)) :
      LedgerStep m drawn a m.ledger
  | loads {id : OpId} {pending : Load} {items : List Item} (h : m.loads.lookup id = some pending)
      (hc : isComplete items = true) :
      LedgerStep m drawn (.inventoryLoads id items) (m.ledger.load pending.accountId items)
  | reads {id : OpId} {op : Op} {r : Running} {s : Steam} {items : List Item}
      (h : m.ops.lookup id = some op) (hstage : op.stage = .running r) (hs : r.since = some s)
      (hc : isComplete items = true) :
      LedgerStep m drawn (.reads id (.inventory items)) (m.ledger.load op.accountId items)
  | posts {id : OpId} {op : Op} {intent : Sale} {origin : Origin} {takenAt : ℕ} {item : Item}
      {settings : MarketPriceSettings} {accepted : Bool} (h : m.ops.lookup id = some op)
      (hstage : op.stage = .running (.executeSale intent origin takenAt (.recheck item))) :
      LedgerStep m drawn (.reads id (.confirmed settings accepted)) (m.ledger.post id {
        accountId := op.accountId
        actor := intent.actor
        assetId := intent.preview.assetId
        quantity := intent.preview.quantity
        before := item.quantity
        origin, takenAt
        sentAt := m.now } accepted)
  | answers {id : OpId} {op : Op} {intent : Sale} {origin : Origin} {takenAt : ℕ} {accepted : Bool}
      {answer : Answer} (h : m.ops.lookup id = some op)
      (hstage : op.stage = .running (.executeSale intent origin takenAt (.post accepted))) :
      LedgerStep m drawn (.reads id (.answered answer))
        (m.ledger.answer id op.accountId intent.preview.assetId answer)
  | issues {id : OpId} {read : MarketRead} {intent : Intent} (ht : intent.token = m.drawn)
      (hlt : intent.token < drawn) (hread : read.isInventory = false) :
      LedgerStep m drawn (.reads id read) (m.ledger.record (.issued intent.token intent.accountId
        intent.actor intent.kind intent.expiresAt))
  | removes {id : OpId} {op : Op} {intent : Cancellation} {origin : Origin} {takenAt : ℕ}
      (h : m.ops.lookup id = some op)
      (hstage : op.stage = .running (.executeCancellation intent origin takenAt .turn)) :
      LedgerStep m drawn (.reads id .entered) (m.ledger.record (.removed id {
        accountId := op.accountId
        actor := intent.actor
        listingId := intent.preview.listingId
        origin, takenAt
        sentAt := m.now }))
  | disappears {accountId : AccountId} {assetId : AssetId} {count : ℕ} {l : Ledger}
      (h : m.ledger.disappear accountId assetId count = some l) :
      LedgerStep m drawn (.disappear accountId assetId count) l

structure Steps (m : Market) (a : MarketAction) (m' : Market) : Prop where
  ledger : LedgerStep m m'.drawn a m'.ledger
  ops : ∀ k op', m'.ops.lookup k = some op' → OpStep m a m' k op'
  drawn : m.drawn ≤ m'.drawn
  intents : ∀ token intent, m'.intents.lookup token = some intent →
    m.intents.lookup token = some intent ∨ token = m.drawn ∧ token < m'.drawn ∧
      intent.token = token ∧ .issued token intent.accountId intent.actor intent.kind
        intent.expiresAt ∈ m'.ledger.history
  loads : ∀ k l, m'.loads.lookup k = some l →
    m.loads.lookup k = some l ∨ l.since = m.steamOf l.accountId

variable {m' : Market} {id : OpId} {a : MarketAction}

@[simp] theorem finish_ledger (reply : MarketReply) : (m.finish id op reply).ledger = m.ledger := rfl

@[simp] theorem finish_drawn (reply : MarketReply) : (m.finish id op reply).drawn = m.drawn := rfl

@[simp] theorem finish_intents (reply : MarketReply) :
    (m.finish id op reply).intents = m.intents := rfl

@[simp] theorem finish_loads (reply : MarketReply) : (m.finish id op reply).loads = m.loads := rfl

@[simp] theorem finish_batches (reply : MarketReply) :
    (m.finish id op reply).batches = m.batches := rfl

theorem lookup_finish (reply : MarketReply) (k : OpId) :
    (m.finish id op reply).ops.lookup k = if k = id then none else m.ops.lookup k :=
  Table.lookup_erase_eq _ _ _

theorem lookup_become (k : OpId) : (m.become id op r).ops.lookup k =
    if k = id then some { op with stage := .running r } else m.ops.lookup k :=
  Table.lookup_insert_eq _ _ _ _

/-- The operation settles at a read. -/
theorem opStep_finish {n : Market} (reply : MarketReply) (hops : n.ops = m.ops) (k : OpId)
    (op' : Op) (hk : (n.finish id op reply).ops.lookup k = some op') :
    OpStep m (.reads id read) m' k op' := by
  rw [lookup_finish, hops] at hk
  split_ifs at hk with hne
  exact .same hk fun read' ha => hne (MarketAction.reads.inj ha).1.symm

theorem opStep_become {n : Market} {r' : Running} (hops : n.ops = m.ops)
    (hid : OpStep m (.reads id read) m' id { op with stage := .running r' }) (k : OpId) (op' : Op)
    (hk : (n.become id op r').ops.lookup k = some op') : OpStep m (.reads id read) m' k op' := by
  rw [lookup_become, hops] at hk
  split_ifs at hk with hne
  · obtain rfl := Option.some.inj hk
    exact hne ▸ hid
  · exact .same hk fun read' ha => hne (MarketAction.reads.inj ha).1.symm

theorem receives_ops : (m.receives op read).ops = m.ops := by cases read <;> rfl

theorem receives_drawn : (m.receives op read).drawn = m.drawn := by cases read <;> rfl

theorem receives_intents : (m.receives op read).intents = m.intents := by cases read <;> rfl

theorem receives_loads : (m.receives op read).loads = m.loads := by cases read <;> rfl

theorem receives_of_not_inventory (h : read.isInventory = false) : m.receives op read = m := by
  cases read with
  | inventory => cases h
  | _ => rfl

/-- What a resumed operation does. -/
theorem steps_perform (ho : m.ops.lookup id = some op) (hstage : op.stage = .running r)
    (hledger : ∀ drawn, LedgerStep m drawn (.reads id read) (m.receives op read).ledger)
    (hresume : (m.receives op read).resume op r read = some p) :
    Steps m (.reads id read) ((m.receives op read).perform id op p) := by
  have hp : p.Follows (m.receives op read) op r read := resume_follows hresume
  have hkeep (token : Uuid) (intent : Intent)
      (ht : (m.receives op read).intents.lookup token = some intent) :
      m.intents.lookup token = some intent := by
    rwa [receives_intents] at ht
  have hloads (k : OpId) (l : Load) (hk : (m.receives op read).loads.lookup k = some l) :
      m.loads.lookup k = some l := by
    rwa [receives_loads] at hk
  have hdrawn : (m.receives op read).drawn = m.drawn := receives_drawn
  cases p with
  | awaits r' draws =>
    refine ⟨hledger _, opStep_become receives_ops
      (.resumes op r r' read ho hstage rfl rfl hp draws hresume),
      ?_, fun _ _ ht => .inl (hkeep _ _ ht), fun _ _ hk => .inl (hloads _ _ hk)⟩
    exact hdrawn.symm.le.trans (Nat.le_add_right _ _)
  | returns reply =>
    exact ⟨hledger _, opStep_finish reply receives_ops, hdrawn.symm.le,
      fun _ _ ht => .inl (hkeep _ _ ht), fun _ _ hk => .inl (hloads _ _ hk)⟩
  | issues intent reply =>
    obtain ⟨-, hread, htoken, -⟩ := hp
    rw [receives_of_not_inventory hread] at htoken ⊢
    refine ⟨.issues htoken (htoken ▸ Nat.lt_succ_self _) hread, opStep_finish reply rfl, Nat.le_succ _, fun token i ht => ?_,
      fun _ _ hk => .inl hk⟩
    have ht : (m.intents.insert intent.token intent).lookup token = some i := ht
    rw [Table.lookup_insert_eq] at ht
    split_ifs at ht with heq
    · obtain rfl := Option.some.inj ht
      refine .inr ⟨heq.trans htoken, ?_, heq.symm, ?_⟩
      · rw [heq, htoken]
        exact Nat.lt_succ_self _
      · rw [heq]
        exact List.mem_cons_self
    · exact .inl ht
  | creates kind currency commands delaySeconds draws =>
    unfold perform
    dsimp only
    split
    · exact ⟨hledger _, opStep_finish _ receives_ops, hdrawn.symm.le.trans (Nat.le_add_right _ _),
        fun _ _ ht => .inl (hkeep _ _ ht), fun _ _ hk => .inl (hloads _ _ hk)⟩
    · exact ⟨hledger _, opStep_finish _ receives_ops, hdrawn.symm.le.trans (Nat.le_add_right _ _),
        fun _ _ ht => .inl (hkeep _ _ ht), fun _ _ hk => .inl (hloads _ _ hk)⟩
  | saves settings =>
    exact ⟨hledger _, opStep_finish _ receives_ops, hdrawn.symm.le,
      fun _ _ ht => .inl (hkeep _ _ ht), fun _ _ hk => .inl (hloads _ _ hk)⟩
  | posts item accepted =>
    obtain ⟨intent, origin, takenAt, settings, rfl, rfl⟩ := hp
    unfold perform
    simp only [hstage]
    exact ⟨.posts ho hstage, opStep_become rfl (.posts op intent origin takenAt item settings
      accepted ho hstage rfl rfl), le_rfl, fun _ _ ht => .inl ht, fun _ _ hk => .inl hk⟩
  | answers answer =>
    obtain ⟨intent, origin, takenAt, accepted, rfl, rfl⟩ := hp
    unfold perform
    simp only [hstage]
    exact ⟨.answers ho hstage, opStep_finish _ rfl, le_rfl, fun _ _ ht => .inl ht,
      fun _ _ hk => .inl hk⟩
  | removes =>
    obtain ⟨rfl, intent, origin, takenAt, rfl⟩ := hp
    unfold perform
    simp only [hstage]
    exact ⟨.removes ho hstage,
      opStep_become rfl (.removes op intent origin takenAt ho hstage rfl rfl), le_rfl,
      fun _ _ ht => .inl ht, fun _ _ hk => .inl hk⟩

/-- A promise that settles resumes the operation that awaits it. -/
theorem reads_spec (h : m.reads id read = some m') : ∃ op r p, m.ops.lookup id = some op ∧
    op.stage = .running r ∧ (∀ items, read = .inventory items → isComplete items = true) ∧
    (m.receives op read).resume op r read = some p ∧ m' = (m.receives op read).perform id op p := by
  unfold reads at h
  split at h
  next op accountId guard r ho =>
    split at h
    next items =>
      split_ifs at h with hc
      obtain ⟨p, hp, rfl⟩ := Option.map_eq_some_iff.mp h
      refine ⟨⟨accountId, guard, .running r⟩, r, p, ho, rfl, fun items' he => ?_, hp, rfl⟩
      exact MarketRead.inventory.inj he ▸ hc
    next hread =>
      obtain ⟨p, hp, rfl⟩ := Option.map_eq_some_iff.mp h
      have hsame : m.receives ⟨accountId, guard, .running r⟩ read = m := by
        cases read with
        | inventory items => exact absurd rfl (hread items)
        | _ => rfl
      refine ⟨⟨accountId, guard, .running r⟩, r, p, ho, rfl, fun items he => ?_, ?_, ?_⟩
      · exact absurd he (hread items)
      · rw [hsame]
        exact hp
      · rw [hsame]
  next => cases h

theorem steps_reads (h : m.reads id read = some m') : Steps m (.reads id read) m' := by
  obtain ⟨op, r, p, ho, hstage, hcomplete, hp, rfl⟩ := reads_spec h
  refine steps_perform ho hstage (fun drawn => ?_) hp
  cases read with
  | inventory items =>
    obtain ⟨s, hs⟩ := since_of_resume hp
    exact .reads ho hstage hs (hcomplete items rfl)
  | _ => exact .same _ fun k items ha => by cases ha

/-- What an operation does at its turn: it returns, or waits with nothing checked. -/
def Progress.Starts (m m' : Market) (op : Op) (call : Call) : Progress → Prop
  | .awaits r _ => m.Begins m' op call r
  | .returns _ => True
  | _ => False

theorem execute_starts {origin : Origin} {intent : Intent} {call : Call} {n : Market}
    (hn : n.ledger = m.ledger) (hnow : n.now = m.now)
    (hintent : (∃ token, origin = .confirmed intent.actor intent.kind token ∧
        m.intents.lookup token = some intent ∧ intent.accountId = op.accountId ∧
        m.now < intent.expiresAt ∧ n.intents.lookup token = none) ∨
      ∃ jobId index, call = .row jobId index intent ∧ origin = .row jobId index) :
    Progress.Starts m n op call (n.execute op origin intent) := by
  unfold execute
  cases intent with
  | sale s =>
    dsimp only
    unfold whenCurrent
    split_ifs
    · refine ⟨fun s' hs' => ?_, rfl, rfl, fun i o takenAt hi => ?_, by simp [Running.task]⟩
      · rw [← Option.some.inj hs', steamOf, hn]
        rfl
      · obtain ⟨rfl, rfl, rfl⟩ : .sale s = i ∧ origin = o ∧ n.now = takenAt := by
          simpa [Running.intent] using hi
        exact ⟨hnow, hintent⟩
    · trivial
  | cancel c =>
    dsimp only
    unfold whenCurrent
    split_ifs
    · refine ⟨by simp [Running.since], rfl, rfl, fun i o takenAt hi => ?_, by simp [Running.task]⟩
      obtain ⟨rfl, rfl, rfl⟩ : .cancel c = i ∧ origin = o ∧ n.now = takenAt := by
        simpa [Running.intent] using hi
      exact ⟨hnow, hintent⟩
    · trivial

theorem takeIntent_frame {accountId : AccountId} {actor : Actor} {token : Uuid}
    {kind : MarketKind} {result : Except ActionError Intent}
    (h : m.takeIntent accountId actor token kind = (result, m')) :
    ∃ intents, m' = { m with intents } ∧
      (∀ t i, intents.lookup t = some i → m.intents.lookup t = some i) ∧
      ∀ intent, result = .ok intent → m.intents.lookup token = some intent ∧
        intent.accountId = accountId ∧ intent.actor = actor ∧ intent.kind = kind ∧
        m.now < intent.expiresAt ∧ intents.lookup token = none := by
  unfold takeIntent at h
  split at h
  next =>
    obtain ⟨rfl, rfl⟩ := Prod.ext_iff.mp h
    exact ⟨m.intents, rfl, fun _ _ hi => hi, fun _ he => by cases he⟩
  next intent hi =>
    have herase (t : Uuid) (i : Intent) (hk : (m.intents.erase token).lookup t = some i) :
        m.intents.lookup t = some i := by
      rw [Table.lookup_erase_eq] at hk
      split_ifs at hk
      exact hk
    dsimp only at h
    split_ifs at h with hmatch hexp
    · obtain ⟨rfl, rfl⟩ := Prod.ext_iff.mp h
      exact ⟨m.intents, rfl, fun _ _ hi => hi, fun _ he => by cases he⟩
    · obtain ⟨rfl, rfl⟩ := Prod.ext_iff.mp h
      exact ⟨_, rfl, herase, fun _ he => by cases he⟩
    · obtain ⟨rfl, rfl⟩ := Prod.ext_iff.mp h
      refine ⟨_, rfl, herase, fun intent' he => ?_⟩
      obtain rfl := Except.ok.inj he
      push Not at hmatch hexp
      refine ⟨hi, hmatch.1, hmatch.2.1, hmatch.2.2, hexp, ?_⟩
      rw [Table.lookup_erase_eq, if_pos rfl]

/-- The first part of an operation touches nothing but the intents. -/
structure Opens (m : Market) (op : Op) (call : Call) (p : Progress) (m' : Market) : Prop where
  frame : ∃ intents, m' = { m with intents }
  intents : ∀ t i, m'.intents.lookup t = some i → m.intents.lookup t = some i
  starts : Progress.Starts m m' op call p

theorem preview_opens {call : Call} {r : Running} (hr : m.Begins m op call r)
    (hintent : r.intent = none) (h : m.preview op r = (p, m')) : m.Opens op call p m' := by
  have hprune : ∃ intents, m.pruneIntents.2 = { m with intents } ∧
      ∀ t i, intents.lookup t = some i → m.intents.lookup t = some i := by
    refine ⟨m.intents.retain fun _ intent => decide (m.now < intent.expiresAt), ?_,
      fun t i hi => (Table.lookup_of_retain hi).1⟩
    unfold pruneIntents
    dsimp only
    split_ifs <;> rfl
  unfold preview at h
  split_ifs at h
  · obtain ⟨rfl, rfl⟩ := Prod.ext_iff.mp h
    exact ⟨⟨m.intents, rfl⟩, fun _ _ hi => hi, trivial⟩
  · obtain ⟨intents, hp, hkeep⟩ := hprune
    split at h
    next n hpr =>
      obtain ⟨rfl, rfl⟩ := Prod.ext_iff.mp h
      obtain rfl : n = { m with intents } := by rw [← hp, hpr]
      exact ⟨⟨intents, rfl⟩, hkeep, trivial⟩
    next n hpr =>
      obtain ⟨rfl, rfl⟩ := Prod.ext_iff.mp h
      obtain rfl : n = { m with intents } := by rw [← hp, hpr]
      exact ⟨⟨intents, rfl⟩, hkeep, hr.since, hr.checked, hr.posting, by simp [hintent],
        hr.saves⟩

theorem confirm_opens {call : Call} {actor : Actor} {token : Uuid} {kind : MarketKind}
    (h : m.confirm op actor token kind = (p, m')) : m.Opens op call p m' := by
  unfold confirm at h
  split_ifs at h
  · obtain ⟨rfl, rfl⟩ := Prod.ext_iff.mp h
    exact ⟨⟨m.intents, rfl⟩, fun _ _ hi => hi, trivial⟩
  · split at h
    next e n ht =>
      obtain ⟨rfl, rfl⟩ := Prod.ext_iff.mp h
      obtain ⟨intents, rfl, hkeep, -⟩ := takeIntent_frame ht
      exact ⟨⟨intents, rfl⟩, hkeep, trivial⟩
    next intent n ht =>
      obtain ⟨rfl, rfl⟩ := Prod.ext_iff.mp h
      obtain ⟨intents, rfl, hkeep, hok⟩ := takeIntent_frame ht
      obtain ⟨hi, hacc, rfl, rfl, hexp, hnone⟩ := hok intent rfl
      refine ⟨⟨intents, rfl⟩, hkeep, execute_starts rfl rfl ?_⟩
      exact .inl ⟨token, rfl, hi, hacc, hexp, hnone⟩

theorem begin_opens {call : Call} (h : m.begin op call = (p, m')) : m.Opens op call p m' := by
  have hhere (p' : Progress) (hp : Progress.Starts m m op call p') : m.Opens op call p' m :=
    ⟨⟨m.intents, rfl⟩, fun _ _ hi => hi, hp⟩
  cases call with
  | previewSale =>
    exact preview_opens ⟨by simp [Running.since], rfl, rfl, by simp [Running.intent],
      by simp [Running.task]⟩ rfl h
  | confirmSale => exact confirm_opens h
  | previewCancellation =>
    exact preview_opens ⟨by simp [Running.since], rfl, rfl, by simp [Running.intent],
      by simp [Running.task]⟩ rfl h
  | confirmCancellation => exact confirm_opens h
  | previewBatch =>
    unfold begin at h
    dsimp only at h
    split at h
    · obtain ⟨rfl, rfl⟩ := Prod.ext_iff.mp h
      exact hhere _ trivial
    · obtain ⟨rfl, rfl⟩ := Prod.ext_iff.mp h
      exact hhere _ ⟨by simp [Running.since], rfl, rfl, by simp [Running.intent],
        by simp [Running.task]⟩
  | row jobId index intent =>
    obtain ⟨rfl, rfl⟩ := Prod.ext_iff.mp h
    exact hhere _ (execute_starts rfl rfl (.inr ⟨jobId, index, rfl, rfl⟩))
  | saveSettings =>
    unfold begin at h
    dsimp only at h
    split at h
    · obtain ⟨rfl, rfl⟩ := Prod.ext_iff.mp h
      exact hhere _ trivial
    · obtain ⟨rfl, rfl⟩ := Prod.ext_iff.mp h
      exact hhere _ ⟨by simp [Running.since], rfl, rfl, by simp [Running.intent],
        fun settings' ht => by
          obtain rfl := Running.Task.saveSettings.inj ht
          exact ⟨rfl, rfl⟩⟩

theorem steps_run (h : m.run id = some m') : Steps m (.run id) m' := by
  unfold run at h
  split at h
  next op accountId guard call ho =>
    split_ifs at h with hnext
    dsimp only at h
    obtain rfl := Option.some.inj h
    obtain ⟨p, n, hbegin⟩ : ∃ p n, m.begin ⟨accountId, guard, .queued call⟩ call = (p, n) :=
      ⟨_, _, rfl⟩
    rw [hbegin]
    obtain ⟨⟨intents, rfl⟩, hkeep, hstarts⟩ := begin_opens hbegin
    have hledger (drawn : ℕ) : LedgerStep m drawn (.run id) m.ledger :=
      .same _ fun k items ha => by cases ha
    cases p with
    | awaits r draws =>
      refine ⟨hledger _, fun k op' hk => ?_, Nat.le_add_right _ _, fun t i hi => .inl (hkeep t i hi),
        fun _ _ hk => .inl hk⟩
      have hk : (m.become id ⟨accountId, guard, .queued call⟩ r).ops.lookup k = some op' := hk
      rw [lookup_become] at hk
      split_ifs at hk with hne
      · obtain rfl := Option.some.inj hk
        subst hne
        exact .begins _ call r ho rfl rfl hnext rfl
          ⟨hstarts.since, hstarts.checked, hstarts.posting, hstarts.intent, hstarts.saves⟩
      · exact .same hk fun read ha => by cases ha
    | returns reply =>
      refine ⟨hledger _, fun k op' hk => ?_, le_rfl, fun t i hi => .inl (hkeep t i hi),
        fun _ _ hk => .inl hk⟩
      have hk : (m.finish id ⟨accountId, guard, .queued call⟩ reply).ops.lookup k = some op' := hk
      rw [lookup_finish] at hk
      split_ifs at hk
      exact .same hk fun read ha => by cases ha
    | _ => exact hstarts.elim
  next => cases h

/-- Steps that touch neither the ledger nor the operations that are there. -/
theorem steps_calls (ha : ∀ k read, a ≠ .reads k read) (hledger : m'.ledger = m.ledger)
    (hdrawn : m.drawn ≤ m'.drawn)
    (hops : ∀ k op', m'.ops.lookup k = some op' → m.ops.lookup k = some op' ∨
      k = m.drawn ∧ k < m'.drawn ∧ ∃ call, op'.stage = .queued call ∧
        (call.isRow = true → a.resumesRunner = true))
    (hintents : ∀ t i, m'.intents.lookup t = some i → m.intents.lookup t = some i)
    (hloads : ∀ k l, m'.loads.lookup k = some l →
      m.loads.lookup k = some l ∨ l.since = m.steamOf l.accountId) : Steps m a m' := by
  refine ⟨hledger ▸ .same a fun k items => ha k _, fun k op' hk => ?_, hdrawn,
    fun t i hi => .inl (hintents t i hi), hloads⟩
  rcases hops k op' hk with hk | ⟨heq, hlt, call, hop, hrow⟩
  · exact .same hk fun read => ha k read
  · exact .called call heq hlt hop hrow

theorem steps_still {n : Market} (ha : ∀ k read, a ≠ .reads k read)
    (hledger : n.ledger = m.ledger) (hdrawn : m.drawn ≤ n.drawn) (hops : n.ops = m.ops)
    (hintents : ∀ t i, n.intents.lookup t = some i → m.intents.lookup t = some i)
    (hloads : n.loads = m.loads) : Steps m a n :=
  steps_calls ha hledger hdrawn (fun _ _ hk => .inl (hops ▸ hk)) hintents
    fun _ _ hk => .inl (hloads ▸ hk)

section
variable (batches : MarketBatchQueue Intent) (settingsWrites : List AccountId)
  (rowReplies : Table Uuid (Except ActionError MarketActionResult))

/-- An operation is queued, perhaps after changes to the batches. -/
theorem steps_enqueue (ha : ∀ k read, a ≠ .reads k read) (accountId : AccountId) (guard : Guard)
    {call : Call} (hrow : call.isRow = true → a.resumesRunner = true) :
    Steps m a ({ m with batches, settingsWrites, rowReplies }.enqueue accountId guard call) := by
  refine steps_calls ha rfl (Nat.le_succ _) (fun k op' hk => ?_) (fun t i hi => hi)
    fun k l hk => .inl hk
  have hk : (m.ops.insert m.drawn ⟨accountId, guard, .queued call⟩).lookup k = some op' := hk
  rw [Table.lookup_insert_eq] at hk
  split_ifs at hk with heq
  · obtain rfl := Option.some.inj hk
    exact .inr ⟨heq, heq ▸ Nat.lt_succ_self _, call, rfl, hrow⟩
  · exact .inl hk

theorem steps_refuse (ha : ∀ k read, a ≠ .reads k read) (error : ActionError) :
    Steps m a ({ m with batches, settingsWrites, rowReplies }.refuse error) :=
  steps_still ha rfl (Nat.le_succ _) rfl (fun _ _ hi => hi) rfl

theorem steps_callRow (ha : ∀ k read, a ≠ .reads k read) (hrow : a.resumesRunner = true)
    (jobId : Uuid) :
    Steps m a ({ m with batches, settingsWrites, rowReplies }.callRow jobId) := by
  have hstill : Steps m a { m with batches, settingsWrites, rowReplies } :=
    steps_still ha rfl le_rfl rfl (fun _ _ hi => hi) rfl
  unfold callRow
  split
  next => exact hstill
  next =>
    split
    next =>
      split
      next => exact steps_enqueue batches settingsWrites rowReplies ha _ _ fun _ => hrow
      next => exact hstill
    next => exact hstill

end

theorem steps_callIdle (ha : ∀ k read, a ≠ .reads k read) (accountId : AccountId) {call : Call}
    (hrow : call.isRow = true → a.resumesRunner = true) :
    Steps m a (m.callIdle accountId call) := by
  unfold callIdle
  split
  next => exact steps_refuse m.batches m.settingsWrites m.rowReplies ha _
  next => exact steps_enqueue m.batches m.settingsWrites m.rowReplies ha _ _ hrow

/-- Every step of the service. -/
theorem steps_of_next (h : marketMachine.next m a = some m') : Steps m a m' := by
  cases a with
  | previewSale => obtain rfl := Option.some.inj h; exact steps_callIdle (by simp) _ fun hr => by cases hr
  | confirmSale => obtain rfl := Option.some.inj h; exact steps_callIdle (by simp) _ fun hr => by cases hr
  | previewCancellation => obtain rfl := Option.some.inj h; exact steps_callIdle (by simp) _ fun hr => by cases hr
  | confirmCancellation => obtain rfl := Option.some.inj h; exact steps_callIdle (by simp) _ fun hr => by cases hr
  | previewBatch => obtain rfl := Option.some.inj h; exact steps_callIdle (by simp) _ fun hr => by cases hr
  | confirmBatch accountId actor token =>
    have ha (k : OpId) (read : MarketRead) :
        MarketAction.confirmBatch accountId actor token ≠ .reads k read := by simp
    obtain rfl := Option.some.inj h
    unfold confirmBatch
    split_ifs
    · exact steps_refuse m.batches m.settingsWrites m.rowReplies ha _
    · split
      next => exact steps_refuse _ _ _ ha _
      next => exact steps_callRow _ _ _ ha rfl _
  | stopBatch =>
    obtain rfl := Option.some.inj h
    exact steps_still (by simp) rfl le_rfl rfl (fun _ _ hi => hi) rfl
  | stopAccountBatches =>
    obtain rfl := Option.some.inj h
    exact steps_still (by simp) rfl le_rfl rfl (fun _ _ hi => (Table.lookup_of_retain hi).1) rfl
  | shutdownBatches =>
    obtain rfl := Option.some.inj h
    exact steps_still (by simp) rfl le_rfl rfl (fun _ _ hi => by cases hi) rfl
  | saveSettings accountId settings =>
    have ha (k : OpId) (read : MarketRead) :
        MarketAction.saveSettings accountId settings ≠ .reads k read := by simp
    obtain rfl := Option.some.inj h
    unfold callSaveSettings
    split_ifs
    · exact steps_refuse m.batches m.settingsWrites m.rowReplies ha _
    · exact steps_enqueue _ _ _ ha _ _ fun hr => by cases hr
  | inventory accountId =>
    obtain rfl := Option.some.inj h
    refine steps_calls (by simp) rfl (Nat.le_succ _) (fun _ _ hk => .inl hk) (fun _ _ hi => hi)
      fun k l hk => ?_
    have hk : (m.loads.insert m.drawn ⟨accountId, m.steamOf accountId⟩).lookup k = some l := hk
    rw [Table.lookup_insert_eq] at hk
    split_ifs at hk
    · obtain rfl := Option.some.inj hk
      exact .inr rfl
    · exact .inl hk
  | inventoryLoads id items =>
    have h : m.inventoryLoads id items = some m' := h
    obtain ⟨pending, hp, h⟩ := Option.bind_eq_some_iff.mp h
    split_ifs at h with hc
    obtain rfl := Option.some.inj h
    refine ⟨.loads hp hc, fun k op' hk => .same hk (by simp), le_rfl, fun _ _ hi => .inl hi,
      fun k l hk => ?_⟩
    have hk : (m.loads.erase id).lookup k = some l := hk
    rw [Table.lookup_erase_eq] at hk
    split_ifs at hk
    exact .inl hk
  | inventoryFails id =>
    obtain rfl := Option.some.inj h
    refine steps_calls (by simp) rfl le_rfl (fun _ _ hk => .inl hk) (fun _ _ hi => hi)
      fun k l hk => ?_
    have hk : (m.loads.erase id).lookup k = some l := hk
    rw [Table.lookup_erase_eq] at hk
    split_ifs at hk
    exact .inl hk
  | run => exact steps_run h
  | reads => exact steps_reads h
  | rowReturns jobId =>
    have ha (k : OpId) (read : MarketRead) : MarketAction.rowReturns jobId ≠ .reads k read := by
      simp
    obtain ⟨outcome, -, h⟩ := Option.bind_eq_some_iff.mp h
    obtain ⟨batches, -, h⟩ := Option.bind_eq_some_iff.mp h
    obtain rfl := Option.some.inj h
    exact steps_callRow _ _ _ ha rfl _
  | rowWaited jobId resolved =>
    have ha (k : OpId) (read : MarketRead) :
        MarketAction.rowWaited jobId resolved ≠ .reads k read := by simp
    obtain ⟨batches, -, h⟩ := Option.bind_eq_some_iff.mp h
    obtain rfl := Option.some.inj h
    exact steps_callRow _ _ _ ha rfl _
  | disappear accountId assetId count =>
    obtain ⟨l, hl, rfl⟩ := Option.map_eq_some_iff.mp h
    exact ⟨.disappears hl, fun k op' hk => .same hk (by simp), le_rfl, fun _ _ hi => .inl hi,
      fun _ _ hk => .inl hk⟩
  | tick =>
    obtain rfl := Option.some.inj h
    exact steps_still (by simp) rfl le_rfl rfl (fun _ _ hi => hi) rfl

end Market
end SteamBee.Inventory
