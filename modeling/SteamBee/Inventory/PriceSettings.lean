import SteamBee.Inventory.SettingsStep
import SteamBee.Inventory.SubmitOnce

/-! Price settings and batches exclude each other: settings are not written while a batch of
the account is active, no batch starts while a write is pending, and a sale is posted under
the settings and the wallet of its preview. -/
namespace SteamBee.Inventory

namespace Running

/-- The wallet loaded for a sale, which from the comparison on is that of its preview. -/
def loaded : Running → Option Wallet
  | .executeSale intent _ _ point =>
    match point with
    | .settings _ wallet => some wallet
    | .listings _ _ | .quote _ _ | .turn _ | .recheck _ | .post _ => some intent.wallet
    | .inventory _ | .wallet _ => none
  | _ => none

def agreed : Running → Option MarketPriceSettings
  | .executeSale intent _ _ point =>
    match point with
    | .listings _ _ | .quote _ _ | .turn _ | .recheck _ | .post _ => some intent.settings
    | .inventory _ | .wallet _ | .settings _ _ => none
  | _ => none

/-- Before the assets of a sale are checked nothing else is. -/
theorem loaded_of_unchecked {r : Running} (hc : r.checked = none) (hp : r.posting = none) :
    r.loaded = none ∧ r.agreed = none := by
  cases r with
  | executeSale intent origin takenAt point =>
    cases point with
    | inventory => exact ⟨rfl, rfl⟩
    | post => cases hp
    | _ => cases hc
  | _ => exact ⟨rfl, rfl⟩

end Running

namespace Market
variable {m m' : Market} {a : MarketAction} {k : OpId} {op op' : Op} {r r' : Running}
  {read : MarketRead} {p : Progress} {draws : ℕ}

theorem savesSettings_of_writing {stage : Stage} (h : Stage.writing stage ≠ none) :
    Stage.savesSettings stage = true := by
  unfold Stage.writing at h
  split at h
  next => rfl
  next => exact absurd rfl h

structure Marked (m : Market) : Prop where
  pending : ∀ k op, m.ops.lookup k = some op → Stage.savesSettings op.stage = true →
    op.accountId ∈ m.settingsWrites
  unique : ∀ k op k' op', m.ops.lookup k = some op → m.ops.lookup k' = some op' →
    Stage.savesSettings op.stage = true → Stage.savesSettings op'.stage = true →
    op.accountId = op'.accountId → k = k'

theorem marked_empty (steam : Table AccountId Steam) : (empty steam).Marked :=
  ⟨fun _ _ hk => (by cases hk), fun _ _ _ _ hk => (by cases hk)⟩

theorem Marked.next (h : m.Marked) (hs : SettingsStep m m') : m'.Marked := by
  cases hs with
  | still hstored hwrites hops =>
    refine ⟨fun k op' hk hs => ?_, fun k op₁ k' op₂ hk hk' hs hs' hacc => ?_⟩
    · obtain ⟨op, hop, hacc, hsaves, -⟩ := hops k op' hk hs
      rw [hwrites, ← hacc]
      exact h.pending k op hop hsaves
    · obtain ⟨old, hold, haccold, hsaves, -⟩ := hops k op₁ hk hs
      obtain ⟨old', hold', haccold', hsaves', -⟩ := hops k' op₂ hk' hs'
      apply h.unique k old k' old' hold hold' hsaves hsaves'
      rw [haccold, haccold', hacc]
  | called accountId hfree hstored hwrites hops =>
    -- an operation that was there saves settings of another account
    have hother (j : OpId) (op' : Op) (hj : m.ops.lookup j = some op')
        (hs : Stage.savesSettings op'.stage = true) : op'.accountId ≠ accountId := by
      intro hacc
      apply hfree
      rw [← hacc]
      exact h.pending j op' hj hs
    refine ⟨fun k op' hk hs => ?_, fun k op₁ k' op₂ hk hk' hs hs' hacc => ?_⟩
    · rw [hwrites]
      rcases hops k op' hk with hsame | ⟨-, hacc, -⟩
      · exact List.mem_cons_of_mem _ (h.pending k op' hsame hs)
      · rw [hacc]
        exact List.mem_cons_self
    · rcases hops k op₁ hk with hsame | ⟨hnew, haccnew, -⟩
      · rcases hops k' op₂ hk' with hsame' | ⟨-, haccnew', -⟩
        · exact h.unique k op₁ k' op₂ hsame hsame' hs hs' hacc
        · exact absurd (hacc.trans haccnew') (hother k op₁ hsame hs)
      · rcases hops k' op₂ hk' with hsame' | ⟨hnew', -, -⟩
        · exact absurd (hacc.symm.trans haccnew) (hother k' op₂ hsame' hs')
        · rw [hnew, hnew']
  | settled id op hop hsaves hops hwrites hstored =>
    have hleft (j : OpId) (op' : Op) (hj : m'.ops.lookup j = some op') :
        j ≠ id ∧ m.ops.lookup j = some op' := by
      rw [hops, Table.lookup_erase_eq] at hj
      split_ifs at hj with hne
      exact ⟨hne, hj⟩
    refine ⟨fun k op' hk hs => ?_, fun k op₁ k' op₂ hk hk' hs hs' hacc => ?_⟩
    · obtain ⟨hne, hk⟩ := hleft k op' hk
      rw [hwrites, List.mem_erase_of_ne]
      · exact h.pending k op' hk hs
      · intro hacc
        exact hne (h.unique k op' id op hk hop hs hsaves hacc)
    · exact h.unique k op₁ k' op₂ (hleft k op₁ hk).2 (hleft k' op₂ hk').2 hs hs' hacc

/-- A marked account gets no active batch. -/
theorem stays_idle (hs : m.batches.Sound) (hn : marketMachine.next m a = some m')
    {accountId : AccountId} (hmarked : accountId ∈ m.settingsWrites)
    (hidle : m.batches.active.lookup accountId = none) :
    m'.batches.active.lookup accountId = none := by
  rcases batches_of_next hn with heq | ⟨b, hconfirms, hb⟩
  · rw [heq]
    exact hidle
  · rw [Option.eq_none_iff_forall_ne_some]
    intro id hid
    rcases MarketBatchQueue.active_of_next hs hb hid with hold | ⟨actor, token, hconfirm⟩
    · rw [hidle] at hold
      cases hold
    · exact absurd hmarked (hconfirms accountId actor token hconfirm).2

/-- Settings are written while no batch of the account is active. -/
def WritesIdle (m : Market) : Prop :=
  ∀ k op, m.ops.lookup k = some op → Stage.writing op.stage ≠ none →
    m.batches.active.lookup op.accountId = none

theorem WritesIdle.next (h : m.WritesIdle) (hmarked : m.Marked) (hsound : m.batches.Sound)
    (hn : marketMachine.next m a = some m') : m'.WritesIdle := by
  have hkeep (k : OpId) (op : Op) (hop : m.ops.lookup k = some op)
      (hsaves : Stage.savesSettings op.stage = true)
      (hidle : m.batches.active.lookup op.accountId = none) :
      m'.batches.active.lookup op.accountId = none :=
    stays_idle hsound hn (hmarked.pending k op hop hsaves) hidle
  intro k op' hk hw
  cases settingsStep_of_next hn with
  | still hstored hwrites hops =>
    obtain ⟨op, hop, hacc, hsaves, hbegins⟩ := hops k op' hk (savesSettings_of_writing hw)
    rw [← hacc]
    apply hkeep k op hop hsaves
    rcases hbegins hw with rfl | hidle
    · exact h k op hop hw
    · exact hidle
  | called accountId hfree hstored hwrites hops =>
    rcases hops k op' hk with hsame | ⟨-, -, hnone⟩
    · exact hkeep k op' hsame (savesSettings_of_writing hw) (h k op' hsame hw)
    · exact absurd hnone hw
  | settled id op hop hsaves hops hwrites hstored =>
    rw [hops, Table.lookup_erase_eq] at hk
    split_ifs at hk
    exact hkeep k op' hk (savesSettings_of_writing hw) (h k op' hk hw)

structure Settling (m : Market) : Prop where
  submitting : m.Submitting
  marked : m.Marked
  writesIdle : m.WritesIdle

theorem settling_of_reachable (h : marketMachine.Reachable m) : m.Settling := by
  refine h.invariant ?_ fun s a t hs _ hn => ?_
  · rintro s ⟨steam, -, rfl⟩
    exact ⟨submitting_empty steam, marked_empty steam, fun _ _ hk => by cases hk⟩
  · constructor
    case submitting => exact hs.submitting.next hn
    case marked => exact hs.marked.next (settingsStep_of_next hn)
    case writesIdle => exact hs.writesIdle.next hs.marked hs.submitting.sound hn

def settingsOf (m : Market) (accountId : AccountId) : MarketPriceSettings :=
  (m.stored.lookup accountId).getD {}

/-- The database gives the settings that were written last. -/
def readsStored (m : Market) : MarketAction → Bool
  | .reads id (.settings settings) | .reads id (.confirmed settings _) =>
    (m.ops.lookup id).all fun op => decide (settings = m.settingsOf op.accountId)
  | _ => true

def noteWallet (wallets : Table AccountId Wallet) (m : Market) :
    MarketAction → Table AccountId Wallet
  | .reads id (.wallet wallet) =>
    match m.ops.lookup id with
    | some op => wallets.insert op.accountId wallet
    | none => wallets
  | _ => wallets

inductive SaleStep (intent : Sale) : SalePoint → MarketRead → SalePoint → Prop where
  | inventory {since : Steam} {items : List Item} {item : Item} :
      SaleStep intent (.inventory since) (.inventory items) (.wallet item)
  | wallet {item : Item} {wallet : Wallet} :
      SaleStep intent (.wallet item) (.wallet wallet) (.settings item wallet)
  | settings {item : Item} :
      SaleStep intent (.settings item intent.wallet) (.settings intent.settings)
        (.listings item intent.wallet)
  | listings {item : Item} {wallet : Wallet} {listings : List MarketListing} :
      SaleStep intent (.listings item wallet) (.listings listings) (.quote item wallet)
  | quote {item : Item} {wallet : Wallet} {quote : Quote} :
      SaleStep intent (.quote item wallet) (.quote quote) (.turn item)
  | turn {item : Item} : SaleStep intent (.turn item) .entered (.recheck item)

theorem awaits_of_whenCurrent (h : m.whenCurrent op p = .awaits r draws) : p = .awaits r draws := by
  unfold whenCurrent at h
  split_ifs at h
  · exact h
  · cases h

theorem executeSale_awaits {intent : Sale} {origin : Origin} {takenAt : ℕ} {point : SalePoint}
    (h : m.executeSale op intent origin takenAt point read = some (.awaits r' draws)) :
    ∃ point', r' = .executeSale intent origin takenAt point' ∧ SaleStep intent point read point' := by
  unfold executeSale at h
  split at h
  next =>
    split at h
    next => cases h
    next =>
      cases awaits_of_whenCurrent (Option.some.inj h)
      exact ⟨_, rfl, .inventory⟩
  next =>
    cases awaits_of_whenCurrent (Option.some.inj h)
    exact ⟨_, rfl, .wallet⟩
  next =>
    have h := awaits_of_whenCurrent (Option.some.inj h)
    split_ifs at h with hne
    · cases h
    · cases h
      push Not at hne
      obtain ⟨rfl, rfl⟩ := hne
      exact ⟨_, rfl, .settings⟩
  next =>
    have h := awaits_of_whenCurrent (Option.some.inj h)
    split_ifs at h
    · cases h
    · split at h
      next => cases h
      next =>
        cases h
        exact ⟨_, rfl, .listings⟩
  next =>
    have h := awaits_of_whenCurrent (Option.some.inj h)
    split at h
    next => cases h
    next => cases h
    next =>
      cases h
      exact ⟨_, rfl, .quote⟩
  next =>
    cases awaits_of_whenCurrent (Option.some.inj h)
    exact ⟨_, rfl, .turn⟩
  next =>
    split_ifs at h
    · cases h
    · cases awaits_of_whenCurrent (Option.some.inj h)
  next => cases h
  next => cases h
  next => cases h
  next => cases h

/-- A sale that goes on after a read. -/
theorem resume_executeSale {intent : Sale} {origin : Origin} {takenAt : ℕ} {point' : SalePoint}
    (h : m.resume op r read = some (.awaits (.executeSale intent origin takenAt point') draws)) :
    ∃ point, r = .executeSale intent origin takenAt point ∧ SaleStep intent point read point' := by
  have htask := Running.Resumes.task (resume_follows h)
  cases r with
  | executeSale intent' origin' takenAt' point =>
    obtain ⟨point'', he, hstep⟩ := executeSale_awaits h
    cases he
    exact ⟨point, rfl, hstep⟩
  | _ => cases htask

/-- A promise that settles is one that an operation awaits. -/
theorem running_of_reads {id : OpId} (hn : marketMachine.next m (.reads id read) = some m') :
    ∃ op r, m.ops.lookup id = some op ∧ op.stage = .running r := by
  obtain ⟨op, r, -, hop, hstage, -⟩ := reads_spec hn
  exact ⟨op, r, hop, hstage⟩

/-- A running operation is alone in loading wallets of its account. -/
theorem wallet_noted {wallets : Table AccountId Wallet} (hserial : m.Serial)
    (hn : marketMachine.next m a = some m') (hk : m.ops.lookup k = some op)
    (hr : op.stage = .running r) (ha : ∀ wallet, a ≠ .reads k (.wallet wallet)) :
    (noteWallet wallets m a).lookup op.accountId = wallets.lookup op.accountId := by
  unfold noteWallet
  split
  next id wallet =>
    split
    next op₁ hid =>
      rw [Table.lookup_insert_eq, if_neg]
      intro hacc
      obtain ⟨op₂, r₂, hop₂, hr₂⟩ := running_of_reads hn
      obtain rfl := Option.some.inj (hid.symm.trans hop₂)
      obtain rfl := hserial.unique hk hr hid hr₂ hacc.symm
      exact ha wallet rfl
    next => rfl
  next => rfl

/-- Nor does another operation write settings of its account. -/
theorem settings_kept (hserial : m.Serial) (hn : marketMachine.next m a = some m')
    (hk : m.ops.lookup k = some op) (hr : op.stage = .running r)
    (hk' : m'.ops.lookup k = some op') : m'.settingsOf op.accountId = m.settingsOf op.accountId := by
  unfold settingsOf
  cases settingsStep_of_next hn with
  | still hstored => rw [hstored]
  | called _ _ hstored => rw [hstored]
  | settled id op₁ hop hsaves hops hwrites hstored =>
    rcases hstored with hsame | ⟨settings, hwriting, hstored⟩
    · rw [hsame]
    · rw [hstored, Table.lookup_insert_eq, if_neg]
      intro hacc
      obtain ⟨r₁, hr₁⟩ : ∃ r₁, op₁.stage = .running r₁ := by
        unfold Stage.writing at hwriting
        split at hwriting
        next heq => exact ⟨_, heq⟩
        next => cases hwriting
      obtain rfl := hserial.unique hk hr hop hr₁ hacc.symm
      rw [hops, Table.lookup_erase_eq, if_pos rfl] at hk'
      cases hk'

/-- A sale goes on under the wallet loaded last and the settings stored. -/
def Quoted (m : Market) (wallets : Table AccountId Wallet) : Prop :=
  ∀ k op r, m.ops.lookup k = some op → op.stage = .running r →
    (∀ wallet, r.loaded = some wallet → wallets.lookup op.accountId = some wallet) ∧
    ∀ settings, r.agreed = some settings → m.settingsOf op.accountId = settings

theorem Quoted.next {wallets : Table AccountId Wallet} (h : m.Quoted wallets)
    (hserial : m.Serial) (hn : marketMachine.next m a = some m') (hstored : m.readsStored a = true) :
    m'.Quoted (noteWallet wallets m a) := by
  intro k op' r' hk' hr'
  -- what the operation knew before, it still knows
  have hkeep (op : Op) (r : Running) (hk : m.ops.lookup k = some op) (hr : op.stage = .running r)
      (hacc : op.accountId = op'.accountId) (ha : ∀ wallet, a ≠ .reads k (.wallet wallet))
      (hloaded : r'.loaded = r.loaded)
      (hagreed : ∀ settings, r'.agreed = some settings →
        r.agreed = some settings ∨ m.settingsOf op.accountId = settings) :
      (∀ wallet, r'.loaded = some wallet →
        (noteWallet wallets m a).lookup op'.accountId = some wallet) ∧
      ∀ settings, r'.agreed = some settings → m'.settingsOf op'.accountId = settings := by
    obtain ⟨hwallet, hsettings⟩ := h k op r hk hr
    rw [← hacc, wallet_noted hserial hn hk hr ha, settings_kept hserial hn hk hr hk', hloaded]
    refine ⟨hwallet, fun settings hs => ?_⟩
    rcases hagreed settings hs with hold | hnew
    · exact hsettings settings hold
    · exact hnew
  cases (steps_of_next hn).ops k op' hk' with
  | same hk ha => exact hkeep op' r' hk hr' rfl (fun _ => ha _) rfl fun _ hs => .inl hs
  | called call _ _ hop => rw [hop] at hr'; cases hr'
  | begins op call r hk hstage ha hnext hop hbegin =>
    subst hop
    obtain rfl : r = r' := Stage.running.inj hr'
    obtain ⟨hl, hg⟩ := Running.loaded_of_unchecked hbegin.checked hbegin.posting
    rw [hl, hg]
    exact ⟨fun _ hw => (by cases hw), fun _ hs => (by cases hs)⟩
  | posts op intent origin takenAt item settings accepted hk hstage ha hop =>
    subst hop ha
    obtain rfl := Stage.running.inj hr'
    exact hkeep op _ hk hstage rfl (by simp) rfl fun _ hs => .inl hs
  | removes op intent origin takenAt hk hstage ha hop =>
    subst hop
    obtain rfl := Stage.running.inj hr'
    exact ⟨fun _ hw => (by cases hw), fun _ hs => (by cases hs)⟩
  | resumes op r r₁ read hk hstage ha hop hres draws hresume =>
    subst hop ha
    obtain rfl : r₁ = r' := Stage.running.inj hr'
    cases r₁ with
    | executeSale intent origin takenAt point' =>
      obtain ⟨point, rfl, hstep⟩ := resume_executeSale hresume
      have hgoes := hkeep op (.executeSale intent origin takenAt point) hk hstage rfl
      cases hstep with
      | inventory => exact ⟨fun _ hw => (by cases hw), fun _ hs => (by cases hs)⟩
      | @wallet item wallet =>
        refine ⟨fun w hw => ?_, fun _ hs => by cases hs⟩
        obtain rfl : wallet = w := Option.some.inj hw
        simp [noteWallet, hk]
      | settings =>
        refine hgoes (by simp) rfl fun settings hs => .inr ?_
        obtain rfl : intent.settings = settings := Option.some.inj hs
        simpa [readsStored, hk, eq_comm] using hstored
      | listings => exact hgoes (by simp) rfl fun _ hs => .inl hs
      | quote => exact hgoes (by simp) rfl fun _ hs => .inl hs
      | turn => exact hgoes (by simp) rfl fun _ hs => .inl hs
    | _ => exact ⟨fun _ hw => (by cases hw), fun _ hs => (by cases hs)⟩

end Market

def walletMachine : Transition.Machine (Market × Table AccountId Wallet) MarketAction :=
  marketMachine.recording ∅ Market.noteWallet

/-- The runs in which the database gives the settings that were written last. -/
def ReachableStored (s : Market × Table AccountId Wallet) : Prop :=
  walletMachine.ReachableWhen (fun s a => s.1.readsStored a = true) s

/-- Price settings and batches exclude each other; `wallets` are the ones loaded last. -/
structure SettingsExclude (m : Market) (wallets : Table AccountId Wallet) : Prop where
  written : ∀ a m', marketMachine.next m a = some m' → ∀ accountId,
    m'.stored.lookup accountId ≠ m.stored.lookup accountId →
      m.batches.active.lookup accountId = none ∧ m'.batches.active.lookup accountId = none
  writing : ∀ k op settings, m.ops.lookup k = some op →
    op.stage = .running (.saveSettings settings .write) →
      m.batches.active.lookup op.accountId = none
  activated : ∀ a m', marketMachine.next m a = some m' → ∀ accountId,
    m.batches.active.lookup accountId = none → m'.batches.active.lookup accountId ≠ none →
      ∀ k op, m.ops.lookup k = some op → Market.Stage.savesSettings op.stage = true →
        op.accountId ≠ accountId
  posted : ∀ k op intent origin takenAt accepted, m.ops.lookup k = some op →
    op.stage = .running (.executeSale intent origin takenAt (.post accepted)) →
      m.settingsOf op.accountId = intent.settings ∧
      wallets.lookup op.accountId = some intent.wallet

/-- A recorded run is a run of the service. -/
theorem reachable_of_stored {s : Market × Table AccountId Wallet} (h : ReachableStored s) :
    marketMachine.Reachable s.1 := by
  have hrun : marketMachine.ReachableWhen (fun m a => m.readsStored a = true) s.1 :=
    Transition.Machine.ReachableWhen.of_recording h
  exact hrun.reachable

theorem quoted_of_stored {s : Market × Table AccountId Wallet} (h : ReachableStored s) :
    s.1.Quoted s.2 := by
  refine h.invariant_of (I := fun s => s.1.Quoted s.2) ?_ fun s a t hr hq hc hn => ?_
  · rintro s ⟨⟨steam, -, hs⟩, -⟩ k op r hk
    rw [hs] at hk
    cases hk
  · have hs := Market.submitting_of_reachable (reachable_of_stored hr)
    obtain ⟨hn, hnote⟩ := Transition.Machine.recording_next hn
    rw [hnote]
    exact hq.next hs.serial hn hc

/-- In every run price settings and batches exclude each other. -/
theorem settings_exclude_batches {s : Market × Table AccountId Wallet} (h : ReachableStored s) :
    SettingsExclude s.1 s.2 := by
  have hm := Market.settling_of_reachable (reachable_of_stored h)
  have hwriting (k : OpId) (op : Op) (settings : MarketPriceSettings)
      (hk : s.1.ops.lookup k = some op) (hw : Stage.writing op.stage = some settings) :
      s.1.batches.active.lookup op.accountId = none := by
    apply hm.writesIdle k op hk
    rw [hw]
    exact Option.some_ne_none settings
  constructor
  case written =>
    intro a m' hn accountId hne
    cases Market.settingsStep_of_next hn with
    | still hstored => exact absurd (congrArg (AList.lookup accountId) hstored) hne
    | called _ _ hstored => exact absurd (congrArg (AList.lookup accountId) hstored) hne
    | settled id op hop hsaves hops hwrites hstored =>
      rcases hstored with hsame | ⟨settings, hw, hstored⟩
      · exact absurd (congrArg (AList.lookup accountId) hsame) hne
      · obtain rfl : accountId = op.accountId := by
          by_contra hother
          rw [hstored, Table.lookup_insert_eq, if_neg hother] at hne
          exact hne rfl
        have hidle := hwriting id op settings hop hw
        have hmarked := hm.marked.pending id op hop hsaves
        exact ⟨hidle, Market.stays_idle hm.submitting.sound hn hmarked hidle⟩
  case writing =>
    intro k op settings hk hstage
    apply hwriting k op settings hk
    rw [hstage]
    rfl
  case activated =>
    intro a m' hn accountId hidle hactive k op hk hsaves hacc
    apply hactive
    apply Market.stays_idle hm.submitting.sound hn _ hidle
    rw [← hacc]
    exact hm.marked.pending k op hk hsaves
  case posted =>
    intro k op intent origin takenAt accepted hk hstage
    obtain ⟨hwallet, hsettings⟩ := quoted_of_stored h k op _ hk hstage
    exact ⟨hsettings _ rfl, hwallet _ rfl⟩

/-- A sale whose request has been sent while other settings wait to be saved. -/
def postedSale : Market × Table AccountId Wallet :=
  (walletMachine.execWhen (fun s a => s.1.readsStored a) (.empty cardSteam, ∅)
    (.previewSale "bee" "admin" "7" 1 :: previewRun 0 2 ++
      [.confirmSale "bee" "admin" 1, .run 2, .saveSettings "bee" { delaySeconds := 20 }] ++
      (saleRun 2 2).take 7)).getD (.empty cardSteam, ∅)

set_option maxRecDepth 10000 in
theorem reachableStored_postedSale : ReachableStored postedSale :=
  Transition.Machine.reachable_execWhen (fun _ _ h => h)
    ⟨⟨cardSteam, isFresh_cardSteam, rfl⟩, rfl⟩ (by decide)

set_option maxRecDepth 10000 in
theorem settings_exclude_batches_postedSale : SettingsExclude postedSale.1 postedSale.2 ∧
    postedSale.1.settingsWrites = ["bee"] ∧ postedSale.2.lookup "bee" = some cardWallet :=
  ⟨settings_exclude_batches reachableStored_postedSale, by decide, by decide⟩

end SteamBee.Inventory
