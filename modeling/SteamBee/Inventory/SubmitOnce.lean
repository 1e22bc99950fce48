import SteamBee.Inventory.Sources

/-! Two submissions of an asset are separated by an event that settles the first one, and
previews and rows are not submitted twice. -/
namespace SteamBee.Inventory

/-- The inventory shows the asset gone, or at least the submitted copies. -/
def Post.shownSold (p : Post) (items : List Item) : Bool :=
  (findItem items p.assetId).all fun item => decide (item.quantity + p.quantity ≤ p.before)

/-- After these events the asset of the post `p` of operation `i` may be submitted again. -/
def MarketEvent.closes (i : OpId) (p : Post) : MarketEvent → Bool
  | .answered k answer => k == i && answer.isDefiniteFailure
  | .loaded accountId items => accountId == p.accountId && p.shownSold items
  | _ => false

inductive Pending (i : OpId) (p : Post) : List MarketEvent → Prop
  | posted (older : List MarketEvent) : Pending i p (.posted i p :: older)
  | later (e : MarketEvent) {older : List MarketEvent} (he : e.closes i p = false)
      (h : Pending i p older) : Pending i p (e :: older)

def Separate (e : MarketEvent) (older : List MarketEvent) : Prop :=
  ∀ j q, e = .posted j q → ∀ i p, Pending i p older → p.accountId = q.accountId →
    p.assetId ≠ q.assetId

variable {i : OpId} {p : Post} {items : List Item}

theorem pending_append {between older : List MarketEvent}
    (h : ∀ e ∈ between, e.closes i p = false) : Pending i p (between ++ .posted i p :: older) := by
  induction between with
  | nil => exact .posted older
  | cons e between ih =>
    apply Pending.later e
    · exact h e List.mem_cons_self
    · exact ih fun e' he' => h e' (List.mem_cons_of_mem _ he')

/-- The service releases a submission only when it may. -/
theorem shownSold_of_settledBy (hc : Market.isComplete items = true)
    (h : p.submission.settledBy items p.assetId = true) : p.shownSold items = true := by
  unfold Submission.settledBy at h
  unfold Post.shownSold
  split at h
  next hnone => rw [hnone]; rfl
  next item hitem =>
    rw [hitem]
    have hpos : 0 < item.quantity := by
      have hall := (Bool.and_eq_true_iff.mp hc).2
      exact of_decide_eq_true (List.all_eq_true.mp hall item (List.mem_of_find?_eq_some hitem))
    have hle : item.quantity ≤ p.before - p.quantity := of_decide_eq_true h
    simp only [Option.all_some, decide_eq_true_eq]
    omega

namespace Market
variable {m m' : Market} {a : MarketAction} {k : OpId} {op : Op}

/-- Every pending submission is reserved, and the operation whose request is in flight has
the only one of its asset. -/
structure Reserved (m : Market) : Prop where
  reserved : ∀ i p, Pending i p m.ledger.history →
    (m.submittedOf p.accountId).lookup p.assetId = some p.submission
  mine : ∀ k op intent origin takenAt accepted, m.ops.lookup k = some op →
    op.stage = .running (.executeSale intent origin takenAt (.post accepted)) →
    ∀ i p, Pending i p m.ledger.history → p.accountId = op.accountId →
      p.assetId = intent.preview.assetId → i = k
  separate : History.Each Separate m.ledger.history

theorem reserved_empty (steam : Table AccountId Steam) : (empty steam).Reserved := by
  constructor
  · intro _ _ h
    cases h
  · intro _ _ _ _ _ _ h
    cases h
  · trivial

/-- Nothing is pending for the asset of a sale that is about to be posted. -/
theorem Reserved.not_pending (h : m.Reserved) (hv : m.Vacant) {intent : Sale} {origin : Origin}
    {takenAt : ℕ} {item : Item} (hk : m.ops.lookup k = some op)
    (hstage : op.stage = .running (.executeSale intent origin takenAt (.recheck item)))
    (hp : Pending i p m.ledger.history) (hacc : p.accountId = op.accountId) :
    p.assetId ≠ intent.preview.assetId := by
  intro hasset
  have hsome := h.reserved i p hp
  rw [hacc, hasset, hv k op _ intent item hk hstage rfl] at hsome
  cases hsome

/-- What was pending before a step, or is posted in it. -/
theorem LedgerStep.pending {l : Ledger} {drawn : ℕ} (h : LedgerStep m drawn a l)
    (hp : Pending i p l.history) : Pending i p m.ledger.history ∨
      ∃ op intent origin takenAt item settings accepted, m.ops.lookup i = some op ∧
        op.stage = .running (.executeSale intent origin takenAt (.recheck item)) ∧
        a = .reads i (.confirmed settings accepted) ∧ p.accountId = op.accountId := by
  have hcons {e : MarketEvent} (hne : e ≠ .posted i p) (hl : l.history = e :: m.ledger.history) :
      Pending i p m.ledger.history := by
    rw [hl] at hp
    cases hp with
    | posted => exact absurd rfl hne
    | later _ _ hp => exact hp
  cases h with
  | same => exact .inl hp
  | loads | reads | issues | removes => exact .inl (hcons (by simp) rfl)
  | @posts k op intent origin takenAt item settings accepted hk hstage =>
    rw [Ledger.history_post] at hp
    cases hp with
    | posted => exact .inr ⟨op, intent, origin, takenAt, item, settings, accepted, hk, hstage, rfl, rfl⟩
    | later _ _ hp => exact .inl hp
  | answers => exact .inl (hcons (by simp) Ledger.history_answer)
  | disappears h =>
    rw [(Ledger.disappear_frame h).2.2.2] at hp
    exact .inl hp

/-- A load keeps what it does not show sold. -/
theorem submitted_load {l : Ledger} {accountId : AccountId} (hc : isComplete items = true)
    (hr : (l.submittedOf p.accountId).lookup p.assetId = some p.submission)
    (hclose : (MarketEvent.loaded accountId items).closes i p = false) :
    ((l.load accountId items).submittedOf p.accountId).lookup p.assetId = some p.submission := by
  rw [Ledger.submittedOf_load, hr]
  split_ifs with hacc
  · rw [Option.filter_some_pos]
    simp only [MarketEvent.closes, hacc, beq_self_eq_true, Bool.true_and] at hclose
    cases hsettled : p.submission.settledBy items p.assetId with
    | false => rfl
    | true =>
      rw [shownSold_of_settledBy hc hsettled] at hclose
      cases hclose
  · rfl

theorem Reserved.submitted (h : m.Reserved) (hv : m.Vacant) (hs : Steps m a m')
    (hp : Pending i p m'.ledger.history) :
    (m'.submittedOf p.accountId).lookup p.assetId = some p.submission := by
  unfold submittedOf
  generalize hl : m'.ledger = l at hp ⊢
  have hledger := hs.ledger
  rw [hl] at hledger
  have hold (hp : Pending i p m.ledger.history) :
      (m.ledger.submittedOf p.accountId).lookup p.assetId = some p.submission := h.reserved i p hp
  cases hledger with
  | same => exact hold hp
  | loads hload hc =>
    rw [Ledger.history_load] at hp
    cases hp with
    | later _ he hp => exact submitted_load hc (hold hp) he
  | reads hop hstage hsince hc =>
    rw [Ledger.history_load] at hp
    cases hp with
    | later _ he hp => exact submitted_load hc (hold hp) he
  | posts hop hstage =>
    rw [Ledger.history_post] at hp
    rw [Ledger.submittedOf_post]
    cases hp with
    | posted => rw [if_pos ⟨rfl, rfl⟩]
    | later _ _ hp =>
      rw [if_neg]
      · exact hold hp
      · rintro ⟨hacc, hasset⟩
        exact h.not_pending hv hop hstage hp hacc hasset
  | @answers k op intent origin takenAt accepted answer hop hstage =>
    rw [Ledger.history_answer] at hp
    rw [Ledger.submittedOf_answer]
    cases hp with
    | later _ he hp =>
      rw [if_neg]
      · exact hold hp
      · rintro ⟨hdef, hacc, hasset⟩
        obtain rfl := h.mine k op intent origin takenAt accepted hop hstage i p hp hacc hasset
        simp [MarketEvent.closes, hdef] at he
  | issues =>
    cases hp with
    | later _ _ hp => exact hold hp
  | removes =>
    cases hp with
    | later _ _ hp => exact hold hp
  | disappears hd =>
    obtain ⟨hsub, -, -, hhist⟩ := Ledger.disappear_frame hd
    rw [hhist] at hp
    rw [Ledger.submittedOf, hsub]
    exact hold hp

theorem Reserved.next (h : m.Reserved) (hserial : m.Serial) (hv : m.Vacant) (hs : Steps m a m') :
    m'.Reserved := by
  constructor
  · intro i p hp
    exact h.submitted hv hs hp
  · intro k op' intent origin takenAt accepted hk hstage i p hp hacc hasset
    rcases hs.ledger.pending hp with hold | ⟨opi, _, _, _, _, settings, acc, hi, hri, ha, hacci⟩
    · cases hs.ops k op' hk with
      | same hop => exact h.mine k op' intent origin takenAt accepted hop hstage i p hold hacc hasset
      | called _ _ _ hop => simp [hop] at hstage
      | begins op call r hop _ _ _ heq hr =>
        subst heq
        obtain rfl : r = _ := by simpa using hstage
        cases hr.posting
      | resumes op r r' read hop _ _ heq hr =>
        subst heq
        obtain rfl : r' = _ := by simpa using hstage
        cases hr.posting
      | posts op intent' origin' takenAt' item settings accepted' hop hrun ha heq =>
        subst heq
        obtain ⟨rfl, -⟩ : intent' = intent ∧ _ := by simpa using hstage
        exact absurd hasset (h.not_pending hv hop hrun hold hacc)
      | removes op _ _ _ hop _ _ heq =>
        subst heq
        simp at hstage
    · cases hs.ops k op' hk with
      | same hop => exact hserial.unique hop hstage hi hri (hacci.symm.trans hacc)
      | called _ _ _ hop => simp [hop] at hstage
      | begins _ _ _ _ _ ha' => rw [ha] at ha'; cases ha'
      | resumes _ _ _ _ _ _ ha' => rw [ha] at ha'; exact (MarketAction.reads.inj ha').1
      | posts _ _ _ _ _ _ _ _ _ ha' => rw [ha] at ha'; exact (MarketAction.reads.inj ha').1
      | removes _ _ _ _ _ _ ha' => rw [ha] at ha'; exact (MarketAction.reads.inj ha').1
  · have hcons {e : MarketEvent} (hne : ∀ j q, e ≠ .posted j q)
        (hl : m'.ledger.history = e :: m.ledger.history) :
        History.Each Separate m'.ledger.history := by
      rw [hl]
      exact ⟨fun j q he => absurd he (hne j q), h.separate⟩
    generalize hl : m'.ledger = l at hcons ⊢
    have hledger := hs.ledger
    rw [hl] at hledger
    cases hledger with
    | same => exact h.separate
    | loads | reads | issues | removes => exact hcons (by simp) rfl
    | posts hop hstage =>
      rw [Ledger.history_post]
      refine ⟨fun j q he i p hp hacc => ?_, h.separate⟩
      obtain ⟨-, rfl⟩ := MarketEvent.posted.inj he
      exact h.not_pending hv hop hstage hp hacc
    | answers => exact hcons (by simp) Ledger.history_answer
    | disappears hd =>
      rw [(Ledger.disappear_frame hd).2.2.2]
      exact h.separate

/-- The request of a sale is answered once, and the sale ends with the answer. -/
structure Answered (m : Market) : Prop where
  gone : ∀ k answer, .answered k answer ∈ m.ledger.history →
    k < m.drawn ∧ m.ops.lookup k = none
  unique : ∀ k answer answer', .answered k answer ∈ m.ledger.history →
    .answered k answer' ∈ m.ledger.history → answer = answer'

theorem answered_empty (steam : Table AccountId Steam) : (empty steam).Answered := by
  constructor
  · intro _ _ h
    cases h
  · intro _ _ _ h
    cases h

theorem LedgerStep.answered {l : Ledger} {drawn : ℕ} (h : LedgerStep m drawn a l) {answer : Answer}
    (ha : .answered k answer ∈ l.history) : .answered k answer ∈ m.ledger.history ∨
      a = .reads k (.answered answer) ∧ ∃ op, m.ops.lookup k = some op := by
  have hcons {e : MarketEvent} (hl : l.history = e :: m.ledger.history)
      (hne : ∀ k answer, e ≠ .answered k answer) : .answered k answer ∈ m.ledger.history := by
    rw [hl, List.mem_cons] at ha
    exact ha.resolve_left (hne k answer).symm
  cases h with
  | same => exact .inl ha
  | loads | reads | issues | removes => exact .inl (hcons rfl (by simp))
  | posts => exact .inl (hcons Ledger.history_post (by simp))
  | answers hop =>
    rw [Ledger.history_answer, List.mem_cons] at ha
    rcases ha with ha | ha
    · obtain ⟨rfl, rfl⟩ := MarketEvent.answered.inj ha
      exact .inr ⟨rfl, _, hop⟩
    · exact .inl ha
  | disappears hd =>
    rw [(Ledger.disappear_frame hd).2.2.2] at ha
    exact .inl ha

/-- An operation is gone after the answer to its request. -/
theorem Steps.gone_of_answered (hs : Steps m a m') {answer : Answer}
    (ha : a = .reads k (.answered answer)) (hlt : k < m.drawn) : m'.ops.lookup k = none := by
  subst ha
  rw [Option.eq_none_iff_forall_ne_some]
  intro op' hk
  cases hs.ops k op' hk with
  | same _ hne => exact hne _ rfl
  | called _ heq => exact absurd hlt heq.not_lt
  | begins _ _ _ _ _ ha => cases ha
  | resumes _ _ _ _ _ _ ha _ hr =>
    obtain ⟨-, rfl⟩ := MarketAction.reads.inj ha
    cases hr.waits
  | posts _ _ _ _ _ _ _ _ _ ha => cases (MarketAction.reads.inj ha).2
  | removes _ _ _ _ _ _ ha => cases (MarketAction.reads.inj ha).2

theorem Answered.next (h : m.Answered) (hserial : m.Serial) (hs : Steps m a m') :
    m'.Answered := by
  constructor
  · intro k answer hk
    rcases hs.ledger.answered hk with hold | ⟨ha, op, hop⟩
    · obtain ⟨hlt, hnone⟩ := h.gone k answer hold
      refine ⟨hlt.trans_le hs.drawn, ?_⟩
      rw [Option.eq_none_iff_forall_ne_some]
      intro op' hop'
      rcases (hs.ops k op' hop').past with ⟨op, hop, -⟩ | ⟨hle, -⟩
      · rw [hnone] at hop
        cases hop
      · exact absurd hlt hle.not_gt
    · have hlt := hserial.fresh k op hop
      exact ⟨hlt.trans_le hs.drawn, hs.gone_of_answered ha hlt⟩
  · intro k answer answer' hk hk'
    rcases hs.ledger.answered hk with hold | ⟨ha, op, hop⟩
    · rcases hs.ledger.answered hk' with hold' | ⟨-, op, hop⟩
      · exact h.unique k answer answer' hold hold'
      · rw [(h.gone k answer hold).2] at hop
        cases hop
    · rcases hs.ledger.answered hk' with hold' | ⟨ha', -⟩
      · rw [(h.gone k answer' hold').2] at hop
        cases hop
      · rw [ha] at ha'
        exact MarketRead.answered.inj (MarketAction.reads.inj ha').2

structure Submitting (m : Market) : Prop where
  sound : m.batches.Sound
  serial : m.Serial
  vacant : m.Vacant
  previews : m.Previews
  sourced : m.Sourced
  confirmed : m.Confirmed
  rightful : History.Each Rightful m.ledger.history
  reserved : m.Reserved
  answered : m.Answered

theorem submitting_empty (steam : Table AccountId Steam) : (empty steam).Submitting where
  sound := MarketBatchQueue.sound_empty
  serial := serial_empty steam
  vacant _ _ _ _ _ hk := by cases hk
  previews := previews_empty steam
  sourced := sourced_empty steam
  confirmed _ _ _ _ _ _ _ _ hk := by cases hk
  rightful := trivial
  reserved := reserved_empty steam
  answered := answered_empty steam

theorem Submitting.next (h : m.Submitting) (hn : marketMachine.next m a = some m') :
    m'.Submitting := by
  have hs := steps_of_next hn
  constructor
  case sound =>
    rcases batches_of_next hn with heq | ⟨b, -, hb⟩
    · rw [heq]
      exact h.sound
    · exact (MarketBatchQueue.next_spec h.sound hb).1
  case serial => exact h.serial.next hs
  case vacant => exact h.vacant.next h.serial hs
  case previews => exact h.previews.next hs
  case sourced => exact h.sourced.next h.sound h.previews hn
  case confirmed => exact h.confirmed.next h.previews hs
  case rightful => exact rightful_next h.confirmed h.rightful hs
  case reserved => exact h.reserved.next h.serial h.vacant hs
  case answered => exact h.answered.next h.serial hs

theorem submitting_of_reachable (h : marketMachine.Reachable m) : m.Submitting := by
  refine h.invariant ?_ fun s a t hs _ hn => hs.next hn
  rintro s ⟨steam, -, rfl⟩
  exact submitting_empty steam

end Market

/-- The record of a run in which nothing is submitted twice. -/
structure SubmitsOnce (history : List MarketEvent) : Prop where
  separated : ∀ newer j q between i p older,
    history = newer ++ .posted j q :: (between ++ .posted i p :: older) →
    p.accountId = q.accountId → p.assetId = q.assetId → ∃ e ∈ between, e.closes i p = true
  uncertain : ∀ newer j q between i p older answer,
    history = newer ++ .posted j q :: (between ++ .posted i p :: older) →
    p.accountId = q.accountId → p.assetId = q.assetId → .answered i answer ∈ history →
    answer.isUncertain = true →
    ∃ items, .loaded p.accountId items ∈ between ∧ p.shownSold items = true
  once : history.Pairwise fun e e' =>
    ∀ r r', e.request = some r → e'.request = some r' → r.origin.source ≠ r'.origin.source
  rightful : ∀ newer e older r actor kind token, history = newer ++ e :: older →
    e.request = some r → r.origin = .confirmed actor kind token → r.kind = kind ∧
      ∃ expiresAt, .issued token r.accountId actor kind expiresAt ∈ older ∧ r.takenAt < expiresAt
  issued_once : ∀ token accountId actor kind expiresAt accountId' actor' kind' expiresAt',
    .issued token accountId actor kind expiresAt ∈ history →
    .issued token accountId' actor' kind' expiresAt' ∈ history →
    accountId = accountId' ∧ actor = actor' ∧ kind = kind' ∧ expiresAt = expiresAt'

theorem exists_closes {history newer between older : List MarketEvent} {j i : OpId} {q p : Post}
    (h : History.Each Separate history)
    (heq : history = newer ++ .posted j q :: (between ++ .posted i p :: older))
    (hacc : p.accountId = q.accountId) (hasset : p.assetId = q.assetId) :
    ∃ e ∈ between, e.closes i p = true := by
  by_contra hnone
  have hsep : Separate (.posted j q) (between ++ .posted i p :: older) := by
    apply History.Each.of_split
    exact heq ▸ h
  refine hsep j q rfl i p (pending_append fun e he => ?_) hacc hasset
  rw [← Bool.not_eq_true]
  intro hc
  exact hnone ⟨e, he, hc⟩

/-- In every run nothing is submitted twice. -/
theorem submits_once {m : Market} (h : marketMachine.Reachable m) :
    SubmitsOnce m.ledger.history := by
  have hm := Market.submitting_of_reachable h
  constructor
  case separated =>
    intro newer j q between i p older heq hacc hasset
    exact exists_closes hm.reserved.separate heq hacc hasset
  case uncertain =>
    intro newer j q between i p older answer heq hacc hasset hans hun
    obtain ⟨e, he, hc⟩ := exists_closes hm.reserved.separate heq hacc hasset
    cases e with
    | answered k answer' =>
      obtain ⟨hk, hdef⟩ : k = i ∧ answer'.isDefiniteFailure = true := by
        simpa [MarketEvent.closes] using hc
      have hmem : .answered i answer' ∈ m.ledger.history := by
        rw [heq, ← hk]
        simp [he]
      obtain rfl := hm.answered.unique i answer answer' hans hmem
      cases answer with
      | data => cases hun
      | threw error =>
        simp only [Answer.isUncertain, Answer.isDefiniteFailure] at hun hdef
        rw [hdef] at hun
        cases hun
    | loaded accountId items =>
      obtain ⟨rfl, hshown⟩ : accountId = p.accountId ∧ p.shownSold items = true := by
        simpa [MarketEvent.closes] using hc
      exact ⟨items, he, hshown⟩
    | _ => cases hc
  case once => exact hm.sourced.once
  case rightful =>
    intro newer e older r actor kind token heq
    have hright : Market.Rightful e older := by
      apply History.Each.of_split
      exact heq ▸ hm.rightful
    exact hright r actor kind token
  case issued_once => exact hm.previews.unique

def card (quantity : ℕ) : Item where
  assetId := "7"
  variantId := "753:6:7:0"
  name := "Card"
  marketHashName := some "Card"
  quantity
  marketable := true
  group := "7_0"
  publisherFee := none

def cardWallet : Wallet where
  currency := { id := 1, code := "USD", minorUnit := 2 }
  country := "US"
  minimum := 1
  increment := 1
  steamRate := ⟨5, 100⟩
  publisherRate := ⟨1, 10⟩
  steamBase := 0

def cardQuote : Quote where
  base := 13
  steamFee := 1
  publisherFee := 1
  buyerPays := 15
  buyerCap := 15

def cardSteam : Table AccountId Steam :=
  AList.insert "bee" (AList.insert "7" ⟨"7_0", 2, 0, 0⟩ ∅) ∅

theorem isFresh_cardSteam : IsFresh cardSteam := by
  intro accountId inventory hacc assetId s hs
  rw [cardSteam, Table.lookup_insert_eq] at hacc
  split_ifs at hacc
  · obtain rfl := Option.some.inj hacc
    rw [Table.lookup_insert_eq] at hs
    split_ifs at hs
    · obtain rfl := Option.some.inj hs
      exact ⟨rfl, rfl⟩
    · cases hs
  · cases hacc

def previewRun (id : OpId) (quantity : ℕ) : List MarketAction :=
  [.run id, .reads id (.inventory [card quantity]), .reads id (.wallet cardWallet),
    .reads id (.listings []), .reads id (.settings {}), .reads id (.quote cardQuote)]

def saleRun (id : OpId) (quantity : ℕ) : List MarketAction :=
  [.reads id (.inventory [card quantity]), .reads id (.wallet cardWallet),
    .reads id (.settings {}), .reads id (.listings []), .reads id (.quote cardQuote),
    .reads id .entered, .reads id (.confirmed {} true),
    .reads id (.answered (.data true none false))]

def lateSale : Market :=
  (marketMachine.exec (.empty cardSteam)
    (.previewSale "bee" "admin" "7" 1 :: previewRun 0 2 ++
      [.confirmSale "bee" "admin" 1, .run 2, .tick previewTtl] ++ saleRun 2 2)).getD
    (.empty cardSteam)

set_option maxRecDepth 10000 in
theorem reachable_lateSale : marketMachine.Reachable lateSale :=
  Transition.Machine.reachable_exec ⟨cardSteam, isFresh_cardSteam, rfl⟩ (by decide)

set_option maxRecDepth 10000 in
theorem submits_once_lateSale : SubmitsOnce lateSale.ledger.history ∧
    lateSale.ledger.history.length = 5 :=
  ⟨submits_once reachable_lateSale, by decide⟩

/-- Every request of a preview was sent before the preview expired. -/
def SentInTime (history : List MarketEvent) : Prop :=
  ∀ e ∈ history, ∀ r token accountId actor kind expiresAt, e.request = some r →
    r.origin.source = .inl token → .issued token accountId actor kind expiresAt ∈ history →
    r.sentAt < expiresAt

set_option maxRecDepth 10000 in
/-- Only the confirmation has to be in time. -/
theorem late_sale_is_posted :
    ¬∀ m, marketMachine.Reachable m → SentInTime m.ledger.history := by
  intro h
  have hissued : .issued 1 "bee" "admin" .sale previewTtl ∈ lateSale.ledger.history := by decide
  have hsent : .posted 2 {
      accountId := "bee"
      actor := "admin"
      assetId := "7"
      quantity := 1
      before := 2
      origin := .confirmed "admin" .sale 1
      takenAt := 0
      sentAt := previewTtl } ∈ lateSale.ledger.history := by decide
  exact lt_irrefl _ (h lateSale reachable_lateSale _ hsent _ 1 _ _ _ _ rfl rfl hissued)

end SteamBee.Inventory
