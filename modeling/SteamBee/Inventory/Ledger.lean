import SteamBee.Inventory.Sale

/-! What is known of the sales of every account: the copies Steam holds and has accepted
for sale, the submissions the service reserves, and the record of the run. -/
namespace SteamBee.Inventory

abbrev OpId := ℕ

/-- A stack of the account at Steam: the copies it had, those accepted for sale, and
those of them that the inventory report no longer shows. -/
structure Stack where
  group : String
  held : ℕ
  accepted : ℕ
  gone : ℕ
  deriving DecidableEq, Repr

namespace Stack

def report (s : Stack) : ℕ := s.held - s.gone

def stock (s : Stack) : ℕ := s.held - s.accepted

end Stack

abbrev Steam := Table AssetId Stack

def IsFresh (steam : Table AccountId Steam) : Prop :=
  ∀ accountId inventory, steam.lookup accountId = some inventory →
    ∀ assetId s, inventory.lookup assetId = some s → s.accepted = 0 ∧ s.gone = 0

/-- What makes a sale or a cancellation run: the call that confirms a preview, or a
batch row. -/
inductive Origin where
  | confirmed (actor : Actor) (kind : MarketKind) (token : Uuid)
  | row (jobId : Uuid) (index : ℕ)
  deriving DecidableEq, Repr

def Origin.source : Origin → Uuid ⊕ Uuid × ℕ
  | .confirmed _ _ token => .inl token
  | .row jobId index => .inr (jobId, index)

/-- A `sellitem` request; `takenAt` is when its intent was taken. -/
structure Post where
  accountId : AccountId
  actor : Actor
  assetId : AssetId
  quantity : ℕ
  before : ℕ
  origin : Origin
  takenAt : ℕ
  sentAt : ℕ
  deriving DecidableEq, Repr

def Post.submission (p : Post) : Submission := ⟨p.quantity, p.before⟩

structure Removal where
  accountId : AccountId
  actor : Actor
  listingId : ListingId
  origin : Origin
  takenAt : ℕ
  sentAt : ℕ
  deriving DecidableEq, Repr

/-- How the `sellitem` request settles: Steam's data, or an error. -/
inductive Answer where
  | data (success : Bool) (listingId : Option ListingId) (pendingConfirmation : Bool)
  | threw (error : ActionError)
  deriving DecidableEq, Repr

namespace Answer

/-- A definite rejection, or a request that was not submitted. -/
def isDefiniteFailure : Answer → Bool
  | .data success _ _ => !success
  | .threw error => error.notSubmitted

/-- Steam may have created a listing, but did not say so. -/
def isUncertain : Answer → Bool
  | .data _ _ _ => false
  | .threw error => !error.notSubmitted

end Answer

inductive MarketEvent where
  | issued (token : Uuid) (accountId : AccountId) (actor : Actor) (kind : MarketKind)
      (expiresAt : ℕ)
  | posted (id : OpId) (post : Post)
  | answered (id : OpId) (answer : Answer)
  | removed (id : OpId) (removal : Removal)
  | loaded (accountId : AccountId) (items : List Item)
  deriving DecidableEq, Repr

/-- An inventory released a submission of an asset, of which it showed so many copies. -/
structure Release where
  accountId : AccountId
  assetId : AssetId
  shown : ℕ
  deriving DecidableEq, Repr

/-- `submitted` is the map of the service. The rest is what Steam does and what happened:
the releases, the inventory first loaded, and the events, newest first. -/
structure Ledger where
  submitted : Table AccountId (Table AssetId Submission)
  steam : Table AccountId Steam
  released : List Release
  firstLoaded : Table AccountId (List Item)
  history : List MarketEvent
  deriving DecidableEq

namespace Ledger

def empty (steam : Table AccountId Steam) : Ledger := ⟨∅, steam, [], ∅, []⟩

def submittedOf (l : Ledger) (accountId : AccountId) : Table AssetId Submission :=
  (l.submitted.lookup accountId).getD ∅

def steamOf (l : Ledger) (accountId : AccountId) : Steam := (l.steam.lookup accountId).getD ∅

def record (l : Ledger) (event : MarketEvent) : Ledger :=
  { l with history := event :: l.history }

def shown (items : List Item) (assetId : AssetId) : ℕ :=
  ((findItem items assetId).map Item.quantity).getD 0

def releases (accountId : AccountId) (items : List Item) (submitted : Table AssetId Submission) :
    List Release :=
  (submitted.retain fun assetId entry => entry.settledBy items assetId).entries.map fun e =>
    ⟨accountId, e.1, shown items e.1⟩

/-- The end of `loadInventory`: settled submissions are released. -/
def load (l : Ledger) (accountId : AccountId) (items : List Item) : Ledger :=
  { l with
    submitted := l.submitted.modify accountId fun submitted =>
      releaseSettledSubmissions submitted items
    released := releases accountId items (l.submittedOf accountId) ++ l.released
    firstLoaded :=
      if (l.firstLoaded.lookup accountId).isSome then l.firstLoaded
      else l.firstLoaded.insert accountId items }.record (.loaded accountId items)

def changeStack (l : Ledger) (accountId : AccountId) (assetId : AssetId) (f : Stack → Stack) :
    Ledger :=
  { l with steam := l.steam.insert accountId ((l.steamOf accountId).modify assetId f) }

def accept (l : Ledger) (accountId : AccountId) (assetId : AssetId) (quantity : ℕ) : Ledger :=
  l.changeStack accountId assetId fun s => { s with accepted := s.accepted + quantity }

/-- Reserve before calling Steam: an interrupted response must never cause a blind retry. -/
def reserve (l : Ledger) (accountId : AccountId) (assetId : AssetId) (entry : Submission) :
    Ledger :=
  { l with submitted :=
      l.submitted.insert accountId ((l.submittedOf accountId).insert assetId entry) }

def unreserve (l : Ledger) (accountId : AccountId) (assetId : AssetId) : Ledger :=
  { l with submitted := l.submitted.insert accountId ((l.submittedOf accountId).erase assetId) }

/-- The request that asks Steam to sell; Steam accepts it or not. -/
def post (l : Ledger) (id : OpId) (p : Post) (accepted : Bool) : Ledger :=
  let l := (l.reserve p.accountId p.assetId p.submission).record (.posted id p)
  if accepted then l.accept p.accountId p.assetId p.quantity else l

/-- Only a definite failure takes the reservation back. -/
def answer (l : Ledger) (id : OpId) (accountId : AccountId) (assetId : AssetId)
    (answer : Answer) : Ledger :=
  let l := l.record (.answered id answer)
  if answer.isDefiniteFailure then l.unreserve accountId assetId else l

/-- Copies accepted for sale leave Steam's inventory report. -/
def disappear (l : Ledger) (accountId : AccountId) (assetId : AssetId) (count : ℕ) :
    Option Ledger := do
  let s ← (l.steamOf accountId).lookup assetId
  if s.gone + count ≤ s.accepted then
    some (l.changeStack accountId assetId fun s => { s with gone := s.gone + count })
  else none

variable {l l' : Ledger} {id : OpId} {p : Post} {accepted : Bool} {accountId other : AccountId}
  {assetId asset : AssetId} {items : List Item} {count : ℕ}

@[simp] theorem submittedOf_record (event : MarketEvent) :
    (l.record event).submittedOf other = l.submittedOf other := rfl

@[simp] theorem steamOf_record (event : MarketEvent) :
    (l.record event).steamOf other = l.steamOf other := rfl

@[simp] theorem steamOf_load : (l.load accountId items).steamOf other = l.steamOf other := rfl

theorem steamOf_changeStack (f : Stack → Stack) :
    (l.changeStack accountId assetId f).steamOf other =
      if other = accountId then (l.steamOf accountId).modify assetId f else l.steamOf other := by
  simp only [changeStack, steamOf, Table.lookup_insert_eq]
  split_ifs <;> rfl

@[simp] theorem steamOf_answer {answer : Answer} :
    (l.answer id accountId assetId answer).steamOf other = l.steamOf other := by
  unfold Ledger.answer
  dsimp only
  split_ifs <;> rfl

theorem steamOf_post : (l.post id p accepted).steamOf other =
    if accepted = true ∧ other = p.accountId then (l.steamOf p.accountId).modify p.assetId fun s =>
      { s with accepted := s.accepted + p.quantity }
    else l.steamOf other := by
  unfold post
  cases accepted with
  | true =>
    simp only [if_true, true_and]
    exact steamOf_changeStack _
  | false => rfl

theorem submittedOf_load : ((l.load accountId items).submittedOf other).lookup asset =
    if other = accountId then
      ((l.submittedOf other).lookup asset).filter fun entry => !entry.settledBy items asset
    else (l.submittedOf other).lookup asset := by
  simp only [load, submittedOf_record]
  simp only [submittedOf, Table.lookup_modify]
  split_ifs with heq
  · subst heq
    cases l.submitted.lookup other with
    | none => simp
    | some submitted =>
      simp only [Option.map_some, Option.getD_some]
      exact Table.lookup_retain _ _ _
  · rfl

@[simp] theorem submittedOf_accept (quantity : ℕ) :
    (l.accept accountId assetId quantity).submittedOf other = l.submittedOf other := rfl

theorem submittedOf_reserve (entry : Submission) :
    ((l.reserve accountId assetId entry).submittedOf other).lookup asset =
      if other = accountId ∧ asset = assetId then some entry
      else (l.submittedOf other).lookup asset := by
  simp only [reserve, submittedOf, Table.lookup_insert_eq]
  by_cases hacc : other = accountId
  · subst hacc
    simp [Table.lookup_insert_eq]
  · simp [hacc]

theorem submittedOf_unreserve : ((l.unreserve accountId assetId).submittedOf other).lookup asset =
    if other = accountId ∧ asset = assetId then none else (l.submittedOf other).lookup asset := by
  simp only [unreserve, submittedOf, Table.lookup_insert_eq]
  by_cases hacc : other = accountId
  · subst hacc
    simp [Table.lookup_erase_eq]
  · simp [hacc]

theorem submittedOf_post : ((l.post id p accepted).submittedOf other).lookup asset =
    if other = p.accountId ∧ asset = p.assetId then some p.submission
    else (l.submittedOf other).lookup asset := by
  unfold post
  cases accepted with
  | true => exact submittedOf_reserve p.submission
  | false => exact submittedOf_reserve p.submission

theorem submittedOf_answer {answer : Answer} :
    ((l.answer id accountId assetId answer).submittedOf other).lookup asset =
      if answer.isDefiniteFailure = true ∧ other = accountId ∧ asset = assetId then none
      else (l.submittedOf other).lookup asset := by
  unfold Ledger.answer
  by_cases hdef : answer.isDefiniteFailure = true
  · simp only [hdef, if_true, true_and]
    exact submittedOf_unreserve
  · simp [hdef]

@[simp] theorem history_load :
    (l.load accountId items).history = .loaded accountId items :: l.history := rfl

@[simp] theorem history_post : (l.post id p accepted).history = .posted id p :: l.history := by
  unfold post
  cases accepted <;> rfl

@[simp] theorem history_answer {answer : Answer} :
    (l.answer id accountId assetId answer).history = .answered id answer :: l.history := by
  unfold Ledger.answer
  dsimp only
  split_ifs <;> rfl

theorem disappear_frame (h : l.disappear accountId assetId count = some l') :
    l'.submitted = l.submitted ∧ l'.released = l.released ∧ l'.firstLoaded = l.firstLoaded ∧
      l'.history = l.history := by
  obtain ⟨s, -, h⟩ := Option.bind_eq_some_iff.mp h
  split_ifs at h
  obtain rfl := Option.some.inj h
  exact ⟨rfl, rfl, rfl, rfl⟩

end Ledger
end SteamBee.Inventory
