import SteamBee.Inventory.MarketStep

/-! The lock of the market service: the operations of an account run one at a time, so
that a checked asset is not submitted by another one. -/
namespace SteamBee.Inventory
namespace Market
variable {m m' : Market} {a : MarketAction} {k k' : OpId} {op op' : Op}

structure Serial (m : Market) : Prop where
  fresh : ∀ k op, m.ops.lookup k = some op → k < m.drawn
  first : ∀ k op r k' op', m.ops.lookup k = some op → op.stage = .running r →
    m.ops.lookup k' = some op' → k' < k → op'.accountId ≠ op.accountId

/-- Two operations of one account do not run at the same time. -/
theorem Serial.unique (h : m.Serial) {r r' : Running} (hk : m.ops.lookup k = some op)
    (hr : op.stage = .running r) (hk' : m.ops.lookup k' = some op') (hr' : op'.stage = .running r')
    (hacc : op'.accountId = op.accountId) : k' = k := by
  rcases Nat.lt_trichotomy k' k with hlt | heq | hlt
  · exact absurd hacc (h.first k op r k' op' hk hr hk' hlt)
  · exact heq
  · exact absurd hacc.symm (h.first k' op' r' k op hk' hr' hk hlt)

/-- An operation is there before a step unless it is called in it. -/
theorem OpStep.past (h : OpStep m a m' k op') :
    (∃ op, m.ops.lookup k = some op ∧ op.accountId = op'.accountId) ∨
      m.drawn ≤ k ∧ ∃ call, op'.stage = .queued call := by
  cases h with
  | same h => exact .inl ⟨op', h, rfl⟩
  | called call heq _ hop => exact .inr ⟨heq.ge, call, hop⟩
  | begins op _ _ h _ _ _ hop => exact .inl ⟨op, h, hop ▸ rfl⟩
  | resumes op _ _ _ h _ _ hop => exact .inl ⟨op, h, hop ▸ rfl⟩
  | posts op _ _ _ _ _ _ h _ _ hop => exact .inl ⟨op, h, hop ▸ rfl⟩
  | removes op _ _ _ h _ _ hop => exact .inl ⟨op, h, hop ▸ rfl⟩

/-- An operation runs after a step when it ran before, or had its turn. -/
theorem OpStep.ran (h : OpStep m a m' k op') {r' : Running} (hr : op'.stage = .running r') :
    ∃ op, m.ops.lookup k = some op ∧ op.accountId = op'.accountId ∧
      ((∃ r, op.stage = .running r) ∨ m.isNext k op.accountId = true) := by
  cases h with
  | same h => exact ⟨op', h, rfl, .inl ⟨r', hr⟩⟩
  | called call _ _ hop => simp [hop] at hr
  | begins op _ _ h _ _ hnext hop => exact ⟨op, h, hop ▸ rfl, .inr hnext⟩
  | resumes op r _ _ h hstage _ hop => exact ⟨op, h, hop ▸ rfl, .inl ⟨r, hstage⟩⟩
  | posts op _ _ _ _ _ _ h hstage _ hop => exact ⟨op, h, hop ▸ rfl, .inl ⟨_, hstage⟩⟩
  | removes op _ _ _ h hstage _ hop => exact ⟨op, h, hop ▸ rfl, .inl ⟨_, hstage⟩⟩

theorem lt_of_isNext {accountId : AccountId} (h : m.isNext k accountId = true)
    (hk' : m.ops.lookup k' = some op') (hlt : k' < k) : op'.accountId ≠ accountId := by
  have hall := List.all_eq_true.mp h ⟨k', op'⟩ (Table.lookup_eq_some_iff.mp hk')
  simp only [Bool.or_eq_true, decide_eq_true_eq, bne_iff_ne] at hall
  rcases hall with hle | hne
  · exact absurd hlt (not_lt.mpr hle)
  · exact hne

theorem Serial.next (h : m.Serial) (hs : Steps m a m') : m'.Serial := by
  refine ⟨fun k op hk => ?_, fun k op r k' op' hk hr hk' hlt => ?_⟩
  · cases hs.ops k op hk with
    | called _ _ hlt => exact hlt
    | same h' => exact (h.fresh k op h').trans_le hs.drawn
    | begins _ _ _ h' | resumes _ _ _ _ h' | posts _ _ _ _ _ _ _ h' | removes _ _ _ _ h' =>
      exact (h.fresh k _ h').trans_le hs.drawn
  · obtain ⟨old, hold, hacc, hran⟩ := (hs.ops k op hk).ran hr
    have hkd := h.fresh k old hold
    rcases (hs.ops k' op' hk').past with ⟨old', hold', hacc'⟩ | ⟨hle, -⟩
    · rw [← hacc, ← hacc']
      rcases hran with ⟨r₀, hr₀⟩ | hnext
      · exact h.first k old r₀ k' old' hold hr₀ hold' hlt
      · exact lt_of_isNext hnext hold' hlt
    · exact absurd (hlt.trans hkd) (not_lt.mpr hle)

theorem serial_empty (steam : Table AccountId Steam) : (empty steam).Serial :=
  ⟨fun _ _ hk => (by cases hk), fun _ _ _ _ _ hk => (by cases hk)⟩

/-- The asset of a checked sale has no submission until the sale is posted. -/
def Vacant (m : Market) : Prop :=
  ∀ k op r intent item, m.ops.lookup k = some op → op.stage = .running r →
    r.checked = some (intent, item) →
      (m.submittedOf op.accountId).lookup intent.preview.assetId = none

def Posts (m : Market) (a : MarketAction) (accountId : AccountId) : Prop :=
  ∃ k op intent origin takenAt item settings accepted, m.ops.lookup k = some op ∧
    op.stage = .running (.executeSale intent origin takenAt (.recheck item)) ∧
    a = .reads k (.confirmed settings accepted) ∧ op.accountId = accountId

/-- Submissions are added by the request of a sale alone. -/
theorem LedgerStep.entry {l : Ledger} {drawn : ℕ} (h : LedgerStep m drawn a l)
    {accountId : AccountId} {assetId : AssetId} {entry : Submission}
    (he : (l.submittedOf accountId).lookup assetId = some entry) :
    (m.submittedOf accountId).lookup assetId = some entry ∨ m.Posts a accountId := by
  cases h with
  | same => exact .inl he
  | loads | reads =>
    rw [Ledger.submittedOf_load] at he
    split_ifs at he
    · exact .inl (Option.filter_eq_some_iff.mp he).1
    · exact .inl he
  | @posts id op intent origin takenAt item settings accepted h hstage =>
    by_cases hacc : op.accountId = accountId
    · exact .inr ⟨id, op, intent, origin, takenAt, item, settings, accepted, h, hstage, rfl, hacc⟩
    · rw [Ledger.submittedOf_post, if_neg] at he
      · exact .inl he
      · exact fun heq => hacc heq.1.symm
  | answers =>
    rw [Ledger.submittedOf_answer] at he
    split_ifs at he
    exact .inl he
  | issues => exact .inl he
  | removes => exact .inl he
  | disappears h =>
    rw [Ledger.submittedOf, (Ledger.disappear_frame h).1] at he
    exact .inl he

/-- After an inventory the ledger of the step is the one the operation resumes with. -/
theorem Steps.receives (hs : Steps m a m') {items : List Item} (hop : m.ops.lookup k = some op)
    (ha : a = .reads k (.inventory items)) :
    m'.ledger = (m.receives op (.inventory items)).ledger := by
  subst ha
  generalize hl : m'.ledger = l
  have hledger := hs.ledger
  rw [hl] at hledger
  cases hledger with
  | same _ hne => exact absurd rfl (hne k items)
  | reads h =>
    obtain rfl := Option.some.inj (hop.symm.trans h)
    rfl
  | issues _ _ hread => cases hread

theorem Vacant.next (h : m.Vacant) (hserial : m.Serial) (hs : Steps m a m') : m'.Vacant := by
  intro k op' r' intent item hk hr' hc
  -- an operation of the same account that posts is this one, and is no longer checked
  have hkeep (op : Op) (r : Running) (hop : m.ops.lookup k = some op) (hr : op.stage = .running r)
      (hcr : r.checked = some (intent, item)) (hacc : op.accountId = op'.accountId)
      (hne : ∀ settings accepted, a ≠ .reads k (.confirmed settings accepted)) :
      (m'.submittedOf op'.accountId).lookup intent.preview.assetId = none := by
    have hv := h k op r intent item hop hr hcr
    rw [hacc] at hv
    rw [Option.eq_none_iff_forall_ne_some]
    intro entry he
    rcases hs.ledger.entry he with hold | ⟨j, opj, _, _, _, _, settings, accepted, hj, hrj, ha, haccj⟩
    · rw [hv] at hold
      cases hold
    · obtain rfl : j = k := hserial.unique hop hr hj hrj (haccj.trans hacc.symm)
      exact absurd ha (hne settings accepted)
  cases hs.ops k op' hk with
  | same hop hne => exact hkeep op' r' hop hr' hc rfl fun _ _ => hne _
  | called _ _ _ hop => simp [hop] at hr'
  | begins op call r hop hstage ha hnext heq hbegin =>
    subst heq
    obtain rfl : r = r' := by simpa using hr'
    simp [hbegin.checked] at hc
  | resumes op r r₁ read hop hstage ha heq hres =>
    subst heq
    obtain rfl : r₁ = r' := by simpa using hr'
    rcases hres.checked intent item hc with hcr | ⟨origin, takenAt, s, items, rfl, rfl, hsell⟩
    · refine hkeep op r hop hstage hcr rfl fun settings accepted he => ?_
      obtain ⟨-, rfl⟩ := MarketAction.reads.inj (ha.symm.trans he)
      cases hres.waits
    · have hl := hs.receives hop ha
      have hv := (sellable_spec hsell).2.2.1
      rw [show m'.submittedOf op.accountId = _ from congrArg (Ledger.submittedOf · op.accountId) hl]
      exact hv
  | posts op i o t it settings accepted hop hstage ha heq =>
    subst heq
    obtain rfl : Running.executeSale i o t (.post accepted) = r' := by simpa using hr'
    cases hc
  | removes op i o t hop hstage ha heq =>
    subst heq
    obtain rfl : Running.executeCancellation i o t .post = r' := by simpa using hr'
    cases hc

end Market
end SteamBee.Inventory
