import SteamBee.Inventory.SubmitOnce
import SteamBee.Steam.Community

/-! How the request of a sale settles, through the community request, the sale and its
reservation: an asset is reserved when its sale may have been sent, unless the web session could
not be looked up. -/
namespace SteamBee.Inventory
open SteamBee.Steam SteamData

def sellTarget : Url := ⟨communityOrigin, "", "", "/market/sellitem/"⟩

def saleData (data : Fields) : Answer :=
  let listingId :=
    match get data "listingid" with
    | some (.str s) => if isDigits s then some s else none
    | _ => none
  .data (success (get data "success")) listingId
    (success (get data "needs_mobile_confirmation") || success (get data "needs_email_confirmation"))

def saleAnswer (run : CommunityRun) : Answer :=
  match (communityRequest .post sellTarget run).2 with
  | .error e => .threw e
  | .ok response =>
    match responseJson response with
    | .error e => .threw e
    | .ok data => saleData data

/-- A `sellitem` request may have left the process. -/
def mayHaveLeft (run : CommunityRun) : Bool := (communityRequest .post sellTarget run).1

/-- Steam has answered that it created no listing. -/
def isRejected (run : CommunityRun) : Bool :=
  match (communityRequest .post sellTarget run).2 with
  | .error _ => false
  | .ok response =>
    match responseJson response with
    | .error _ => false
    | .ok data => !success (get data "success")

/-- The sale may have been sent, and was not definitely rejected. -/
def maySell (run : CommunityRun) : Bool := mayHaveLeft run && !isRejected run

variable {run : CommunityRun}

theorem unmarked_responseText (response : Response) : Unmarked (responseText response) := by
  unfold responseText
  split_ifs
  · rintro _ ⟨⟩; rfl
  · rintro _ ⟨⟩; rfl
  · split
    next => rintro _ ⟨⟩; rfl
    next =>
      split_ifs
      · rintro _ ⟨⟩; rfl
      · rintro _ ⟨⟩

theorem unmarked_responseJson (response : Response) : Unmarked (responseJson response) := by
  unfold responseJson
  cases htext : responseText response with
  | error e =>
    rintro _ ⟨⟩
    exact unmarked_responseText response e htext
  | ok body =>
    intro e he
    simp only [bind, Except.bind] at he
    split at he
    next => cases he
    next =>
      obtain rfl := Except.error.inj he
      rfl

/-- The answer takes the reservation back unless the sale may have been sent, or the lookup of
the session rejects. -/
theorem isDefiniteFailure_saleAnswer :
    (saleAnswer run).isDefiniteFailure = (!maySell run && !run.lookupRejects) := by
  have hunmarked := unmarked_iff_sent .post sellTarget run
  have hrejects : mayHaveLeft run = true → run.lookupRejects = false := by
    intro hleft
    unfold mayHaveLeft communityRequest at hleft
    unfold CommunityRun.lookupRejects
    split at hleft
    next => cases hleft
    next => rfl
  unfold saleAnswer maySell isRejected
  rw [← mayHaveLeft] at hunmarked
  cases hrequest : (communityRequest .post sellTarget run).2 with
  | error e =>
    rw [hrequest] at hunmarked
    have hiff : e.notSubmitted = false ↔ mayHaveLeft run = true ∨ run.lookupRejects = true := by
      rw [← hunmarked]
      constructor
      · rintro h _ ⟨⟩
        exact h
      · intro h
        exact h e rfl
    simp only [Answer.isDefiniteFailure, Bool.not_false, Bool.and_true]
    cases hmarked : e.notSubmitted with
    | false =>
      rcases hiff.mp hmarked with h | h
      · simp [h]
      · simp [h]
    | true =>
      have hnot := mt hiff.mpr (by simp [hmarked])
      push Not at hnot
      simp only [Bool.not_eq_true] at hnot
      simp [hnot]
  | ok response =>
    rw [hrequest] at hunmarked
    have hsent : mayHaveLeft run = true := by
      rcases hunmarked.mp (by rintro _ ⟨⟩) with h | h
      · exact h
      · unfold CommunityRun.lookupRejects at h
        unfold communityRequest at hrequest
        split at hrequest
        next => cases hrequest
        next heq =>
          rw [heq] at h
          cases h
    dsimp only
    cases hjson : responseJson response with
    | error e =>
      simp [Answer.isDefiniteFailure, hsent, unmarked_responseJson response e hjson]
    | ok data => simp [saleData, Answer.isDefiniteFailure, hsent, hrejects hsent]

namespace Market
variable {m m' : Market} {k : OpId} {op : Op} {intent : Sale} {origin : Origin} {takenAt : ℕ}
  {point : SalePoint} {read : MarketRead}

def isReserved (m : Market) (accountId : AccountId) (assetId : AssetId) : Bool :=
  ((m.submittedOf accountId).lookup assetId).isSome

/-- The answer of a request ends its sale. -/
theorem reserved_of_answer {accepted : Bool} {answer : Answer} (hop : m.ops.lookup k = some op)
    (hstage : op.stage = .running (.executeSale intent origin takenAt (.post accepted)))
    (hn : marketMachine.next m (.reads k (.answered answer)) = some m') :
    m'.isReserved op.accountId intent.preview.assetId =
      (m.isReserved op.accountId intent.preview.assetId && !answer.isDefiniteFailure) := by
  have hn : m.reads k (.answered answer) = some m' := hn
  obtain ⟨op', r, p, hop', hstage', -, hp, rfl⟩ := reads_spec hn
  obtain rfl := Option.some.inj (hop.symm.trans hop')
  obtain rfl : _ = r := Stage.running.inj (hstage.symm.trans hstage')
  obtain rfl : Progress.answers answer = p := Option.some.inj hp
  have hledger : ((m.receives op (.answered answer)).perform k op (.answers answer)).ledger =
      m.ledger.answer k op.accountId intent.preview.assetId answer := by
    simp only [perform, hstage]
    rfl
  simp only [isReserved, submittedOf, hledger, Ledger.submittedOf_answer]
  cases answer.isDefiniteFailure with
  | true => simp
  | false => simp

/-- A sale that ends before its request reserves nothing and has sent nothing. -/
theorem unreserved_of_early (h : marketMachine.Reachable m) (hop : m.ops.lookup k = some op)
    (hstage : op.stage = .running (.executeSale intent origin takenAt point))
    (hpoint : ∀ accepted, point ≠ .post accepted)
    (hn : marketMachine.next m (.reads k read) = some m') (hend : m'.ops.lookup k = none) :
    (∀ e ∈ m'.ledger.history, ∀ r, e.request = some r → r.origin.source ≠ origin.source) ∧
      ∀ assetId, m'.isReserved op.accountId assetId = true →
        m.isReserved op.accountId assetId = true := by
  have hunsent (e : MarketEvent) (he : e ∈ m.ledger.history) (r : Request)
      (hr : e.request = some r) : r.origin.source ≠ origin.source := by
    refine (submitting_of_reachable h).sourced.unsent k op _ hop ?_ ?_ e he r hr
    · simp [Op.source, hstage, Running.intent]
    · cases point with
      | post accepted => exact absurd rfl (hpoint accepted)
      | _ => simp [Op.isUnsent, hstage, Running.unsent]
  have hn : m.reads k read = some m' := hn
  obtain ⟨op', r, p, hop', hstage', -, hp, rfl⟩ := reads_spec hn
  obtain rfl := Option.some.inj (hop.symm.trans hop')
  obtain rfl : _ = r := Stage.running.inj (hstage.symm.trans hstage')
  have hfollows := resume_follows hp
  -- what the step reads adds no request, and an inventory only releases
  have hreceives : (∀ e ∈ (m.receives op read).ledger.history, ∀ r, e.request = some r →
      r.origin.source ≠ origin.source) ∧ ∀ assetId,
        (m.receives op read).isReserved op.accountId assetId = true →
          m.isReserved op.accountId assetId = true := by
    cases read with
    | inventory items =>
      constructor
      · intro e he r hr
        rcases List.mem_cons.mp he with rfl | he
        · cases hr
        · exact hunsent e he r hr
      · intro assetId hres
        simp only [isReserved, submittedOf, receives, load, Ledger.submittedOf_load, ↓reduceIte,
          Option.isSome_iff_exists, Option.filter_eq_some_iff] at hres ⊢
        obtain ⟨entry, hentry, -⟩ := hres
        exact ⟨entry, hentry⟩
    | _ => exact ⟨hunsent, fun _ hres => hres⟩
  cases p with
  | awaits r' draws =>
    have hlook : ((m.receives op read).perform k op (.awaits r' draws)).ops.lookup k =
        some { op with stage := .running r' } := (lookup_become k).trans (if_pos rfl)
    exact absurd (hend.symm.trans hlook) (by simp)
  | returns reply => exact hreceives
  | issues issued reply =>
    constructor
    · intro e he r hr
      rcases List.mem_cons.mp he with rfl | he
      · cases hr
      · exact hreceives.1 e he r hr
    · exact hreceives.2
  | creates kind currency commands delaySeconds draws =>
    unfold perform
    dsimp only
    split
    · exact hreceives
    · exact hreceives
  | saves settings => cases hfollows.1
  | posts item accepted =>
    have hlook : ((m.receives op read).post k op intent origin takenAt item accepted).ops.lookup k =
        some { op with stage := .running (.executeSale intent origin takenAt (.post accepted)) } :=
      (lookup_become k).trans (if_pos rfl)
    have hpost : (m.receives op read).perform k op (.posts item accepted) =
        (m.receives op read).post k op intent origin takenAt item accepted := by
      simp only [perform, hstage]
    rw [hpost] at hend
    exact absurd (hend.symm.trans hlook) (by simp)
  | answers answer =>
    obtain ⟨intent', origin', takenAt', accepted, he, -⟩ := hfollows
    cases he
    exact absurd rfl (hpoint accepted)
  | removes =>
    obtain ⟨-, intent', origin', takenAt', he⟩ := hfollows
    cases he

end Market

/-- The session of the request has been looked up, unless the asset was released anyhow; and no
inventory has released the asset of a sale that may have been sent. -/
def KeepsReservation (run : CommunityRun) (reserved : Bool) : Prop :=
  (run.lookupRejects = true → reserved = false) ∧ (maySell run = true → reserved = true)

/-- When a sale settles. Before its request it reserves nothing and has sent nothing. With its
request, the asset is reserved if and only if the sale may have been sent, exactly when the
session was looked up and no inventory has released the asset meanwhile. -/
theorem reserved_iff_sent {m m' : Market} (h : marketMachine.Reachable m) {k : OpId} {op : Op}
    (hop : m.ops.lookup k = some op) {intent : Sale} {origin : Origin} {takenAt : ℕ}
    {point : SalePoint} (hstage : op.stage = .running (.executeSale intent origin takenAt point))
    {read : MarketRead} (hn : marketMachine.next m (.reads k read) = some m')
    (hend : m'.ops.lookup k = none) :
    ((∀ accepted, point ≠ .post accepted) →
      (∀ e ∈ m'.ledger.history, ∀ r, e.request = some r → r.origin.source ≠ origin.source) ∧
        ∀ assetId, m'.isReserved op.accountId assetId = true →
          m.isReserved op.accountId assetId = true) ∧
    ∀ accepted run, point = .post accepted → read = .answered (saleAnswer run) →
      ((m'.isReserved op.accountId intent.preview.assetId = true ↔ maySell run = true) ↔
        KeepsReservation run (m.isReserved op.accountId intent.preview.assetId)) := by
  refine ⟨fun hpoint => Market.unreserved_of_early h hop hstage hpoint hn hend, ?_⟩
  rintro accepted run rfl rfl
  rw [Market.reserved_of_answer hop hstage hn, isDefiniteFailure_saleAnswer]
  unfold KeepsReservation
  have hrejects : run.lookupRejects = true → maySell run = false := by
    unfold CommunityRun.lookupRejects maySell mayHaveLeft communityRequest
    cases run.session with
    | error e => simp
    | ok => simp
  cases hlookup : run.lookupRejects with
  | true => simp [hrejects hlookup]
  | false => cases maySell run <;> simp

/-- A sale whose asset is reserved, and whose request is to be sent. -/
def reservedSale : Market :=
  (marketMachine.exec (.empty cardSteam)
    (.previewSale "bee" "admin" "7" 1 :: previewRun 0 2 ++
      [.confirmSale "bee" "admin" 1, .run 2] ++ (saleRun 2 2).dropLast)).getD (.empty cardSteam)

def lookupFails : CommunityRun where
  session := .error (appError "Connect the Steam account to obtain a Community session." 409)
  continues := true
  continuesStill := true
  fetches := fun _ => .threw

def fetchFails : CommunityRun := { lookupFails with session := .ok ⟨"session", []⟩ }

set_option maxRecDepth 10000 in
theorem reachable_reservedSale : marketMachine.Reachable reservedSale :=
  Transition.Machine.reachable_exec ⟨cardSteam, isFresh_cardSteam, rfl⟩ (by decide)

def afterAnswer (run : CommunityRun) : Market :=
  (marketMachine.next reservedSale (.reads 2 (.answered (saleAnswer run)))).getD reservedSale

/-- The operation whose request is to be sent. -/
def reservedOp : Op :=
  (reservedSale.ops.lookup 2).getD ⟨"bee", .job 0, .queued (.confirmSale "admin" 1)⟩

def reservedIntent : Sale where
  accountId := "bee"
  actor := "admin"
  preview := {
    token := 1
    expiresAt := previewTtl
    assetId := "7"
    name := "Card"
    quantity := 1
    buyerPaysPerItem := 15
    sellerReceivesPerItem := 13
    steamFeePerItem := 1
    publisherFeePerItem := 1
    totalBuyerPays := 15
    totalSellerReceives := 13
    currency := cardWallet.currency }
  apiPrice := 13
  buyerCap := 15
  wallet := cardWallet
  settings := {}

set_option maxRecDepth 10000 in
theorem lookup_reservedOp : reservedSale.ops.lookup 2 = some reservedOp ∧
    reservedOp.stage =
      .running (.executeSale reservedIntent (.confirmed "admin" .sale 1) 0 (.post true)) :=
  ⟨rfl, rfl⟩

/-- A broken connection leaves the asset reserved, as it should. -/
theorem reserved_iff_sent_fetchFails :
    (afterAnswer fetchFails).isReserved "bee" "7" = true ↔ maySell fetchFails = true := by
  obtain ⟨hop, hstage⟩ := lookup_reservedOp
  have hn : marketMachine.next reservedSale (.reads 2 (.answered (saleAnswer fetchFails))) =
      some (afterAnswer fetchFails) := rfl
  obtain ⟨-, hrequest⟩ := reserved_iff_sent reachable_reservedSale hop hstage hn rfl
  exact (hrequest true fetchFails rfl rfl).mpr ⟨fun h => (by cases h), fun _ => rfl⟩

/-- A sale that was not sent, for which there was no session, leaves the asset reserved. -/
theorem not_reserved_iff_sent_lookupFails :
    ¬∀ (m m' : Market) (k : OpId) (op : Op) (intent : Sale) (origin : Origin) (takenAt : ℕ)
      (accepted : Bool) (run : CommunityRun), marketMachine.Reachable m →
      m.ops.lookup k = some op →
      op.stage = .running (.executeSale intent origin takenAt (.post accepted)) →
      marketMachine.next m (.reads k (.answered (saleAnswer run))) = some m' →
      (m'.isReserved op.accountId intent.preview.assetId = true ↔ maySell run = true) := by
  intro h
  obtain ⟨hop, hstage⟩ := lookup_reservedOp
  have hsold : maySell lookupFails = true :=
    (h reservedSale (afterAnswer lookupFails) 2 reservedOp reservedIntent _ _ true lookupFails
      reachable_reservedSale hop hstage rfl).mp rfl
  cases hsold

end SteamBee.Inventory
