import SteamBee.Inventory.Stock
import SteamBee.Inventory.SubmitOnce

/-! One copy of every variant is kept, as long as no sale counts copies that an earlier
inventory showed sold. -/
namespace SteamBee.Inventory

/-- Each item is what Steam reported of it at some moment from `since` to `now`, and all
that is reported is there. -/
def reflects (since now : Steam) (items : List Item) : Bool :=
  (items.all fun item =>
    match since.lookup item.assetId, now.lookup item.assetId with
    | some before, some s => item.group == s.group && decide (s.report ≤ item.quantity) &&
      decide (item.quantity ≤ before.report)
    | _, _ => false) &&
  now.entries.all fun e => decide (e.2.report = 0) || items.any fun item => item.assetId == e.1

theorem reflects_item {since now : Steam} {items : List Item} (h : reflects since now items = true)
    {item : Item} (hitem : item ∈ items) : ∃ before s, since.lookup item.assetId = some before ∧
      now.lookup item.assetId = some s ∧ item.group = s.group ∧ s.report ≤ item.quantity ∧
      item.quantity ≤ before.report := by
  have hall := List.all_eq_true.mp (Bool.and_eq_true_iff.mp h).1 item hitem
  split at hall
  next before s hb hs =>
    simp only [Bool.and_eq_true, beq_iff_eq, decide_eq_true_eq] at hall
    exact ⟨before, s, hb, hs, hall.1.1, hall.1.2, hall.2⟩
  next => cases hall

theorem reflects_all {since now : Steam} {items : List Item} (h : reflects since now items = true)
    {assetId : AssetId} {s : Stack} (hs : now.lookup assetId = some s) (hpos : 0 < s.report) :
    ∃ item ∈ items, item.assetId = assetId := by
  have hall := List.all_eq_true.mp (Bool.and_eq_true_iff.mp h).2 _ (Table.lookup_eq_some_iff.mp hs)
  simp only [Bool.or_eq_true, decide_eq_true_eq, List.any_eq_true, beq_iff_eq] at hall
  rcases hall with hzero | hitem
  · omega
  · exact hitem

/-- Steam sells what it said it sold. -/
def Answer.tells (accepted : Bool) : Answer → Bool
  | .data success _ _ => success == accepted
  | .threw error => !(error.notSubmitted && accepted)

theorem Answer.refused_of_tells {accepted : Bool} {answer : Answer}
    (h : answer.tells accepted = true) (hdef : answer.isDefiniteFailure = true) :
    accepted = false := by
  cases answer with
  | data success =>
    obtain rfl : success = accepted := beq_iff_eq.mp h
    simpa [Answer.isDefiniteFailure] using hdef
  | threw error =>
    have hdef : error.notSubmitted = true := hdef
    simpa [Answer.tells, hdef] using h

namespace Market

/-- Inventories reflect Steam's report, and answers what Steam did. -/
def faithful (m : Market) : MarketAction → Bool
  | .reads id (.inventory items) =>
    match m.ops.lookup id with
    | some ⟨accountId, _, .running r⟩ =>
      r.since.all fun since => reflects since (m.steamOf accountId) items
    | _ => true
  | .reads id (.answered answer) =>
    match m.ops.lookup id with
    | some ⟨_, _, .running (.executeSale _ _ _ (.post accepted))⟩ => answer.tells accepted
    | _ => true
  | .inventoryLoads id items =>
    (m.loads.lookup id).all fun pending =>
      reflects pending.since (m.steamOf pending.accountId) items
  | _ => true

def upToDate (m : Market) (accountId : AccountId) (items : List Item) (group : String) : Bool :=
  items.all fun item => item.group != group || m.ledger.released.all fun r =>
    r.accountId != accountId || r.assetId != item.assetId || decide (item.quantity ≤ r.shown)

/-- No sale passes `assertSellable` on an inventory that is older, for an asset of its group,
than one which released a submission of that asset. -/
def sellsUpToDate (m : Market) : MarketAction → Bool
  | .reads id (.inventory items) =>
    match m.ops.lookup id with
    | some ⟨accountId, _, .running (.executeSale intent _ _ (.inventory _))⟩ =>
      match assertSellable ((m.load accountId items).submittedOf accountId) items
          intent.preview.assetId intent.preview.quantity with
      | .ok item => m.upToDate accountId items item.group
      | .error _ => true
    | _ => true
  | _ => true

variable {m m' : Market} {a : MarketAction} {k : OpId} {op : Op} {items : List Item}
  {accountId : AccountId}

structure Requested (m : Market) (accountId : AccountId) (since : Steam) : Prop where
  held : ∀ assetId before s, since.lookup assetId = some before →
    (m.steamOf accountId).lookup assetId = some s → before.report ≤ s.held

/-- A sale passed its checks: what it may post is still there. -/
structure Checked (m : Market) (accountId : AccountId) (intent : Sale) (item : Item) : Prop where
  stack : ∃ s, (m.steamOf accountId).lookup intent.preview.assetId = some s ∧
    intent.preview.quantity ≤ item.quantity ∧ item.quantity ≤ s.stock ∧ s.report ≤ item.quantity ∧
    intent.preview.quantity < m.ledger.stockOf accountId s.group
  loaded : (m.ledger.firstLoaded.lookup accountId).isSome

/-- The state of the service and Steam fit together. -/
structure Stocked (m : Market) : Prop where
  sound : m.ledger.Sound
  since : ∀ k op r since, m.ops.lookup k = some op → op.stage = .running r →
    r.since = some since → m.Requested op.accountId since ∧
      ∀ assetId before entry, since.lookup assetId = some before →
        (m.submittedOf op.accountId).lookup assetId = some entry → before.report ≤ entry.before
  loads : ∀ k pending, m.loads.lookup k = some pending →
    m.Requested pending.accountId pending.since
  checked : ∀ k op r intent item, m.ops.lookup k = some op → op.stage = .running r →
    r.checked = some (intent, item) → m.Checked op.accountId intent item
  refused : ∀ k op r intent, m.ops.lookup k = some op → op.stage = .running r →
    r.posting = some (intent, false) → ∀ s,
      (m.steamOf op.accountId).lookup intent.preview.assetId = some s →
        m.ledger.Settled op.accountId intent.preview.assetId s

theorem Requested.shows {since : Steam} (h : m.Requested accountId since)
    (hr : reflects since (m.steamOf accountId) items = true) : Shows (m.steamOf accountId) items := by
  constructor
  · intro item hitem
    obtain ⟨before, s, hb, hs, hg, hle, hle'⟩ := reflects_item hr hitem
    exact ⟨s, hs, hg, hle, hle'.trans (h.held item.assetId before s hb hs)⟩
  · intro assetId s hs hpos
    exact reflects_all hr hs hpos

theorem nodup_of_isComplete (h : isComplete items = true) : (items.map Item.assetId).Nodup :=
  of_decide_eq_true (Bool.and_eq_true_iff.mp h).1

theorem shown_of_mem (hc : isComplete items = true) {item : Item} (hitem : item ∈ items) :
    Ledger.shown items item.assetId = item.quantity := by
  have hfind := findItem_eq_of_mem (nodup_of_isComplete hc) hitem
  simp [Ledger.shown, hfind]

/-- What an up-to-date inventory shows free of an asset is there to be sold. -/
theorem Stocked.free_le_stock (h : m.Stocked) {r : Running} {since : Steam}
    (hk : m.ops.lookup k = some op) (hstage : op.stage = .running r) (hs : r.since = some since)
    (hc : isComplete items = true)
    (hr : reflects since (m.steamOf op.accountId) items = true) {item : Item} (hitem : item ∈ items)
    (hup : m.upToDate op.accountId items item.group = true) :
    ∃ s, (m.steamOf op.accountId).lookup item.assetId = some s ∧ s.group = item.group ∧
      s.report ≤ item.quantity ∧
      freeQuantity ((m.load op.accountId items).submittedOf op.accountId) item ≤ s.stock := by
  obtain ⟨hreq, hentries⟩ := h.since k op r since hk hstage hs
  obtain ⟨before, s, hb, hlook, hg, hle, hle'⟩ := reflects_item hr hitem
  refine ⟨s, hlook, hg.symm, hle, ?_⟩
  have hsound : (m.ledger.load op.accountId items).Sound :=
    h.sound.load (hreq.shows hr) (nodup_of_isComplete hc)
  have hheld := hreq.held item.assetId before s hb hlook
  unfold freeQuantity
  cases hentry : ((m.load op.accountId items).submittedOf op.accountId).lookup item.assetId with
  | some entry =>
    -- the rest of a stack that has been submitted from
    have hold : (m.submittedOf op.accountId).lookup item.assetId = some entry := by
      have hload : ((m.ledger.load op.accountId items).submittedOf op.accountId).lookup
          item.assetId = some entry := hentry
      rw [Ledger.submittedOf_load, if_pos rfl] at hload
      exact (Option.filter_eq_some_iff.mp hload).1
    have hbound := hentries item.assetId before entry hb hold
    obtain ⟨s', hs', hstock, -⟩ := hsound.entries op.accountId item.assetId entry hentry
    obtain rfl := Option.some.inj (hlook.symm.trans hs')
    simp only [Option.map_some, Option.getD_some]
    omega
  | none =>
    simp only [Option.map_none, Option.getD_none, Nat.min_zero, Nat.sub_zero]
    rcases hsound.settled op.accountId item.assetId s hlook hentry with hzero |
      ⟨release, hrel, hacc, hasset, hshown⟩
    · unfold Stack.stock
      omega
    · rcases List.mem_append.mp hrel with hnew | hold
      · -- released by this very inventory
        obtain ⟨e, -, rfl⟩ := List.mem_map.mp hnew
        have hasset : e.1 = item.assetId := hasset
        have hshown : Ledger.shown items e.1 ≤ s.stock := hshown
        rw [hasset, shown_of_mem hc hitem] at hshown
        exact hshown
      · have hall := List.all_eq_true.mp hup item hitem
        simp only [bne_self_eq_false, Bool.false_or] at hall
        have hrelease := List.all_eq_true.mp hall release hold
        simp only [hacc, hasset, bne_self_eq_false, Bool.false_or, decide_eq_true_eq] at hrelease
        exact hrelease.trans hshown

/-- `assertSellable` on such an inventory. -/
theorem Stocked.checked_of_sellable (h : m.Stocked) {r : Running} {since : Steam}
    (hk : m.ops.lookup k = some op) (hstage : op.stage = .running r) (hs : r.since = some since)
    (hc : isComplete items = true)
    (hr : reflects since (m.steamOf op.accountId) items = true) {intent : Sale} {item : Item}
    (hsell : assertSellable ((m.load op.accountId items).submittedOf op.accountId) items
      intent.preview.assetId intent.preview.quantity = .ok item)
    (hup : m.upToDate op.accountId items item.group = true) :
    (m.load op.accountId items).Checked op.accountId intent item := by
  obtain ⟨hfind, hquantity, hnone, hgroup⟩ := sellable_spec hsell
  have hmem : item ∈ items := List.mem_of_find?_eq_some hfind
  have hasset : item.assetId = intent.preview.assetId := by
    have hfound := List.find?_some hfind
    exact beq_iff_eq.mp hfound
  obtain ⟨s, hlook, hg, hreport, hfree⟩ := h.free_le_stock hk hstage hs hc hr hmem hup
  constructor
  · refine ⟨s, hasset ▸ hlook, hquantity, ?_, hreport, ?_⟩
    · rw [← hasset] at hnone
      simpa [freeQuantity, hnone] using hfree
    · apply hgroup.trans_le
      rw [hg]
      apply items_le_stacks (nodup_of_isComplete hc)
      intro other hother hog
      obtain ⟨t, ht, htg, -, hle⟩ := h.free_le_stock hk hstage hs hc hr hother (hog ▸ hup)
      exact ⟨t, ht, htg.trans hog, hle⟩
  · exact Ledger.firstLoaded_load

/-- Stacks stay in their groups, and what was held stays held. -/
theorem LedgerStep.held {l : Ledger} {drawn : ℕ} (h : LedgerStep m drawn a l) {assetId : AssetId}
    {s : Stack} (hs : (l.steamOf accountId).lookup assetId = some s) :
    ∃ t, (m.steamOf accountId).lookup assetId = some t ∧ s.held = t.held := by
  cases h with
  | same | loads | reads | issues | removes => exact ⟨s, hs, rfl⟩
  | posts =>
    rcases Ledger.stack_post hs with hs | ⟨-, -, -, t, ht, rfl⟩
    · exact ⟨s, hs, rfl⟩
    · exact ⟨t, ht, rfl⟩
  | answers =>
    rw [Ledger.steamOf_answer] at hs
    exact ⟨s, hs, rfl⟩
  | disappears hd =>
    obtain ⟨t, ht, -, hheld, -⟩ := (Ledger.fades_disappear hd).stack assetId s hs
    exact ⟨t, ht, hheld⟩

/-- Only the request of a sale takes from what is left to sell. -/
theorem LedgerStep.fades {l : Ledger} {drawn : ℕ} (h : LedgerStep m drawn a l)
    (accountId : AccountId) :
    Ledger.Fades (m.steamOf accountId) (l.steamOf accountId) ∨ m.Posts a accountId := by
  cases h with
  | same | loads | reads | issues | removes => exact .inl (.refl _)
  | @posts id op intent origin takenAt item settings accepted h hstage =>
    by_cases hacc : op.accountId = accountId
    · exact .inr ⟨id, op, intent, origin, takenAt, item, settings, accepted, h, hstage, rfl, hacc⟩
    · left
      rw [Ledger.steamOf_post, if_neg]
      · exact .refl _
      · exact fun heq => hacc heq.2.symm
  | answers =>
    rw [Ledger.steamOf_answer]
    exact .inl (.refl _)
  | disappears hd => exact .inl (Ledger.fades_disappear hd)

theorem LedgerStep.released {l : Ledger} {drawn : ℕ} (h : LedgerStep m drawn a l) {r : Release}
    (hr : r ∈ m.ledger.released) : r ∈ l.released := by
  cases h with
  | same | issues | removes => exact hr
  | loads | reads => exact List.mem_append_right _ hr
  | posts => rw [(Ledger.fields_post _ _ _ _).1]; exact hr
  | answers => rw [(Ledger.fields_answer _ _ _ _ _).1]; exact hr
  | disappears hd => rw [(Ledger.disappear_frame hd).2.1]; exact hr

theorem LedgerStep.firstLoaded {l : Ledger} {drawn : ℕ} (h : LedgerStep m drawn a l)
    (hf : (m.ledger.firstLoaded.lookup accountId).isSome) :
    (l.firstLoaded.lookup accountId).isSome := by
  cases h with
  | same | issues | removes => exact hf
  | loads | reads => exact Ledger.firstLoaded_load_of_isSome hf
  | posts => rw [(Ledger.fields_post _ _ _ _).2]; exact hf
  | answers => rw [(Ledger.fields_answer _ _ _ _ _).2]; exact hf
  | disappears hd => rw [(Ledger.disappear_frame hd).2.2.1]; exact hf

theorem Settled.next {l : Ledger} {drawn : ℕ} (hl : LedgerStep m drawn a l) {assetId : AssetId}
    {s t : Stack} (hacc : s.accepted = t.accepted) (hheld : s.held = t.held)
    (h : m.ledger.Settled accountId assetId t) : l.Settled accountId assetId s := by
  rcases h with hzero | ⟨r, hr, hra, hrs, hle⟩
  · exact .inl (hacc.trans hzero)
  · refine .inr ⟨r, hl.released hr, hra, hrs, ?_⟩
    unfold Stack.stock at hle ⊢
    omega

/-- A checked sale stays checked while nothing of its account is posted. -/
theorem Checked.next {l : Ledger} {drawn : ℕ} (hl : LedgerStep m drawn a l) {intent : Sale}
    {item : Item} (h : m.Checked accountId intent item)
    (hfades : Ledger.Fades (m.steamOf accountId) (l.steamOf accountId)) (hm : m'.ledger = l) :
    m'.Checked accountId intent item := by
  subst hm
  obtain ⟨⟨t, ht, hquantity, hstock, hreport, hgroup⟩, hloaded⟩ := h
  obtain ⟨s, hs⟩ := hfades.kept _ t ht
  obtain ⟨t', ht', hg, hheld, hacc, hgone⟩ := hfades.stack _ s hs
  obtain rfl := Option.some.inj (ht.symm.trans ht')
  constructor
  · refine ⟨s, hs, hquantity, ?_, ?_, ?_⟩
    · unfold Stack.stock at hstock ⊢
      omega
    · unfold Stack.report at hreport ⊢
      omega
    · rw [hg]
      have hsame := hfades.stock t.group
      unfold Ledger.stockOf at hgroup ⊢
      exact hgroup.trans_eq hsame.symm
  · exact hl.firstLoaded hloaded

/-- An operation that runs before and after a step is not disturbed by a post of its
account. -/
theorem Serial.not_posts (h : m.Serial) {r : Running} (hk : m.ops.lookup k = some op)
    (hstage : op.stage = .running r) (hne : ∀ settings accepted, a ≠ .reads k (.confirmed settings accepted)) :
    ¬m.Posts a op.accountId := by
  rintro ⟨j, opj, intent, origin, takenAt, item, settings, accepted, hj, hrj, ha, hacc⟩
  obtain rfl := h.unique hk hstage hj hrj hacc
  exact hne settings accepted ha

theorem Stocked.sound_next (h : m.Stocked) (hs : Steps m a m') (hf : m.faithful a = true) :
    m'.ledger.Sound := by
  generalize hl : m'.ledger = l
  have hledger := hs.ledger
  rw [hl] at hledger
  cases hledger with
  | same => exact h.sound
  | loads hload hc =>
    have hr := hf
    simp only [faithful, hload, Option.all_some] at hr
    exact h.sound.load ((h.loads _ _ hload).shows hr) (nodup_of_isComplete hc)
  | @reads id op r since items hop hstage hsince hc =>
    have hr := hf
    obtain ⟨accountId, guard, stage⟩ := op
    obtain rfl : stage = .running r := hstage
    simp only [faithful, hop, hsince, Option.all_some] at hr
    exact h.sound.load ((h.since _ _ _ _ hop rfl hsince).1.shows hr) (nodup_of_isComplete hc)
  | posts hop hstage =>
    have hchecked := h.checked _ _ _ _ _ hop hstage rfl
    apply h.sound.post
    exact ⟨hchecked.stack, hchecked.loaded⟩
  | @answers id op intent origin takenAt accepted answer hop hstage =>
    apply h.sound.answer
    intro hdef s hlook
    have htells := hf
    obtain ⟨accountId, guard, stage⟩ := op
    obtain rfl : stage = _ := hstage
    simp only [faithful, hop] at htells
    obtain rfl := Answer.refused_of_tells htells hdef
    exact h.refused _ _ _ intent hop rfl rfl s hlook
  | issues => exact h.sound.record _
  | removes => exact h.sound.record _
  | disappears hd => exact h.sound.disappear hd

theorem Requested.next {l : Ledger} {drawn : ℕ} (hl : LedgerStep m drawn a l) {since : Steam}
    (h : m.Requested accountId since) (hm : m'.ledger = l) : m'.Requested accountId since := by
  subst hm
  constructor
  intro assetId before s hb hs
  obtain ⟨t, ht, hheld⟩ := hl.held hs
  rw [hheld]
  exact h.held assetId before t hb ht

/-- Whatever Steam reports it holds. -/
theorem requested_now (hs : Steps m a m') : m'.Requested accountId (m.steamOf accountId) := by
  constructor
  intro assetId before s hb hlook
  obtain ⟨t, ht, hheld⟩ := hs.ledger.held hlook
  obtain rfl := Option.some.inj (hb.symm.trans ht)
  rw [hheld]
  exact Nat.sub_le _ _

theorem Stocked.since_next (h : m.Stocked) (hserial : m.Serial) (hs : Steps m a m') {op' : Op}
    {r' : Running} {since : Steam} (hk : m'.ops.lookup k = some op')
    (hstage' : op'.stage = .running r') (hsince : r'.since = some since) :
    m'.Requested op'.accountId since ∧
      ∀ assetId before entry, since.lookup assetId = some before →
        (m'.submittedOf op'.accountId).lookup assetId = some entry →
          before.report ≤ entry.before := by
  -- an inventory that is requested in this step
  have hnew (hnot : ¬m.Posts a op'.accountId) (heq : since = m.steamOf op'.accountId) :
      m'.Requested op'.accountId since ∧
        ∀ assetId before entry, since.lookup assetId = some before →
          (m'.submittedOf op'.accountId).lookup assetId = some entry →
            before.report ≤ entry.before := by
    subst heq
    refine ⟨requested_now hs, fun assetId before entry hb he => ?_⟩
    have hold := (hs.ledger.entry he).resolve_right hnot
    obtain ⟨s, hlook, -, hreport⟩ := h.sound.entries _ assetId entry hold
    obtain rfl := Option.some.inj (hb.symm.trans hlook)
    exact hreport
  cases hs.ops k op' hk with
  | same hop hne =>
    obtain ⟨hreq, hentries⟩ := h.since k op' r' since hop hstage' hsince
    refine ⟨hreq.next hs.ledger rfl, fun assetId before entry hb he => ?_⟩
    have hnot := hserial.not_posts hop hstage' fun settings accepted => hne _
    exact hentries assetId before entry hb ((hs.ledger.entry he).resolve_right hnot)
  | called _ _ _ hop => simp [hop] at hstage'
  | begins op call r hop hstage ha hnext heq hr =>
    subst heq
    obtain rfl : r = r' := by simpa using hstage'
    refine hnew ?_ (hr.since since hsince)
    rintro ⟨_, _, _, _, _, _, _, _, _, _, ha', _⟩
    rw [ha] at ha'
    cases ha'
  | resumes op r r₁ read hop hstage ha heq hr =>
    subst heq
    obtain rfl : r₁ = r' := by simpa using hstage'
    have hsame : (m.receives op read).steamOf op.accountId = m.steamOf op.accountId := by
      cases read <;> rfl
    refine hnew ?_ ((hr.since since hsince).trans hsame)
    rintro ⟨_, _, _, _, _, _, _, _, _, _, ha', _⟩
    rw [ha] at ha'
    obtain ⟨-, rfl⟩ := MarketAction.reads.inj ha'
    cases hr.waits
  | posts op intent origin takenAt item settings accepted hop hstage ha heq =>
    subst heq
    obtain rfl : Running.executeSale intent origin takenAt (.post accepted) = r' := by
      simpa using hstage'
    cases hsince
  | removes op intent origin takenAt hop hstage ha heq =>
    subst heq
    obtain rfl : Running.executeCancellation intent origin takenAt .post = r' := by
      simpa using hstage'
    cases hsince

theorem Stocked.checked_next (h : m.Stocked) (hserial : m.Serial) (hs : Steps m a m')
    (hf : m.faithful a = true) (hup : m.sellsUpToDate a = true)
    (hcomplete : ∀ k items, a = .reads k (.inventory items) → isComplete items = true) {op' : Op}
    {r' : Running} {intent : Sale} {item : Item} (hk : m'.ops.lookup k = some op')
    (hstage' : op'.stage = .running r') (hc : r'.checked = some (intent, item)) :
    m'.Checked op'.accountId intent item := by
  have hkeep {op : Op} {r : Running} (hop : m.ops.lookup k = some op)
      (hstage : op.stage = .running r) (hcr : r.checked = some (intent, item))
      (hne : ∀ settings accepted, a ≠ .reads k (.confirmed settings accepted)) :
      m'.Checked op.accountId intent item := by
    have hfades := (hs.ledger.fades op.accountId).resolve_right (hserial.not_posts hop hstage hne)
    exact (h.checked k op r intent item hop hstage hcr).next hs.ledger hfades rfl
  cases hs.ops k op' hk with
  | same hop hne => exact hkeep hop hstage' hc fun settings accepted => hne _
  | called _ _ _ hop => simp [hop] at hstage'
  | begins op call r hop hstage ha hnext heq hr =>
    subst heq
    obtain rfl : r = r' := by simpa using hstage'
    rw [hr.checked] at hc
    cases hc
  | resumes op r r₁ read hop hstage ha heq hr =>
    subst heq
    obtain rfl : r₁ = r' := by simpa using hstage'
    rcases hr.checked intent item hc with hcr | ⟨origin, takenAt, since, items, rfl, rfl, hsell⟩
    · have hkept : m'.Checked op.accountId intent item := by
        refine hkeep hop hstage hcr fun settings accepted he => ?_
        rw [ha] at he
        obtain ⟨-, rfl⟩ := MarketAction.reads.inj he
        cases hr.waits
      exact hkept
    · subst ha
      obtain ⟨accountId, guard, stage⟩ := op
      obtain rfl : stage = _ := hstage
      have hsell' : assertSellable ((m.load accountId items).submittedOf accountId) items
          intent.preview.assetId intent.preview.quantity = .ok item := hsell
      simp only [faithful, hop, Running.since, Option.all_some] at hf
      simp only [sellsUpToDate, hop, hsell'] at hup
      have hchecked := h.checked_of_sellable hop rfl rfl (hcomplete k items rfl) hf hsell' hup
      have hl := hs.receives hop rfl
      constructor
      · obtain ⟨s, hlook, hrest⟩ := hchecked.stack
        unfold steamOf at hlook ⊢
        rw [hl]
        exact ⟨s, hlook, hrest⟩
      · rw [hl]
        exact hchecked.loaded
  | posts op i o t it settings accepted hop hstage ha heq =>
    subst heq
    obtain rfl : Running.executeSale i o t (.post accepted) = r' := by simpa using hstage'
    cases hc
  | removes op i o t hop hstage ha heq =>
    subst heq
    obtain rfl : Running.executeCancellation i o t .post = r' := by simpa using hstage'
    cases hc

theorem Stocked.refused_next (h : m.Stocked) (hserial : m.Serial) (hv : m.Vacant)
    (hs : Steps m a m') {op' : Op} {r' : Running} {intent : Sale}
    (hk : m'.ops.lookup k = some op') (hstage' : op'.stage = .running r')
    (hp : r'.posting = some (intent, false)) {s : Stack}
    (hlook : (m'.steamOf op'.accountId).lookup intent.preview.assetId = some s) :
    m'.ledger.Settled op'.accountId intent.preview.assetId s := by
  cases hs.ops k op' hk with
  | same hop hne =>
    have hnot := hserial.not_posts hop hstage' fun settings accepted => hne _
    have hfades := (hs.ledger.fades op'.accountId).resolve_right hnot
    obtain ⟨t, ht, -, hheld, hacc, -⟩ := hfades.stack _ s hlook
    exact Settled.next hs.ledger hacc hheld (h.refused k op' r' intent hop hstage' hp t ht)
  | called _ _ _ hop => simp [hop] at hstage'
  | begins op call r hop hstage ha hnext heq hr =>
    subst heq
    obtain rfl : r = r' := by simpa using hstage'
    rw [hr.posting] at hp
    cases hp
  | resumes op r r₁ read hop hstage ha heq hr =>
    subst heq
    obtain rfl : r₁ = r' := by simpa using hstage'
    rw [hr.posting] at hp
    cases hp
  | posts op i o t item settings accepted hop hstage ha heq =>
    subst heq
    obtain rfl : Running.executeSale i o t (.post accepted) = r' := by simpa using hstage'
    obtain ⟨rfl, rfl⟩ : i = intent ∧ accepted = false := by simpa [Running.posting] using hp
    -- the asset had no submission, and Steam did not accept this one
    have hnone := hv k op _ i item hop hstage rfl
    have hsame : (m.steamOf op.accountId).lookup i.preview.assetId = some s := by
      generalize hl : m'.ledger = l
      have hledger := hs.ledger
      rw [hl] at hledger
      unfold steamOf at hlook ⊢
      rw [hl] at hlook
      subst ha
      cases hledger with
      | same => exact hlook
      | posts =>
        rcases Ledger.stack_post hlook with hlook | ⟨hacc, -⟩
        · exact hlook
        · cases hacc
      | issues => exact hlook
    exact Settled.next hs.ledger rfl rfl (h.sound.settled _ _ s hsame hnone)
  | removes op i o t hop hstage ha heq =>
    subst heq
    obtain rfl : Running.executeCancellation i o t .post = r' := by simpa using hstage'
    cases hp

/-- Only complete inventories are taken. -/
theorem isComplete_of_next (hn : marketMachine.next m (.reads k (.inventory items)) = some m') :
    isComplete items = true := by
  have hn : m.reads k (.inventory items) = some m' := hn
  unfold reads at hn
  split at hn
  next =>
    split at hn
    next items' heq =>
      obtain rfl := MarketRead.inventory.inj heq
      split_ifs at hn with hc
      exact hc
    next hne => exact absurd rfl (hne items)
  next => cases hn

theorem Stocked.next (h : m.Stocked) (hserial : m.Serial) (hv : m.Vacant)
    (hf : m.faithful a = true) (hup : m.sellsUpToDate a = true)
    (hn : marketMachine.next m a = some m') : m'.Stocked := by
  have hs := steps_of_next hn
  constructor
  case sound => exact h.sound_next hs hf
  case since =>
    intro k op r since hk hstage hsince
    exact h.since_next hserial hs hk hstage hsince
  case loads =>
    intro k pending hk
    rcases hs.loads k pending hk with hold | hnew
    · exact (h.loads k pending hold).next hs.ledger rfl
    · rw [hnew]
      exact requested_now hs
  case checked =>
    intro k op r intent item hk hstage hc
    refine h.checked_next hserial hs hf hup (fun k items ha => ?_) hk hstage hc
    subst ha
    exact isComplete_of_next hn
  case refused =>
    intro k op r intent hk hstage hp s hlook
    exact h.refused_next hserial hv hs hk hstage hp hlook

theorem stocked_empty {steam : Table AccountId Steam} (h : IsFresh steam) :
    (empty steam).Stocked := by
  refine ⟨Ledger.sound_empty h, ?_, ?_, ?_, ?_⟩
  · intro _ _ _ _ hk
    cases hk
  · intro _ _ hk
    cases hk
  · intro _ _ _ _ _ hk
    cases hk
  · intro _ _ _ _ hk
    cases hk

/-- The steps of Steam that tell the truth, when no sale is out of date. -/
def Orderly (m : Market) (a : MarketAction) : Prop :=
  m.faithful a = true ∧ m.sellsUpToDate a = true

/-- No more of a group is accepted for sale than was loaded first, less one copy. -/
def KeepsOne (m : Market) : Prop :=
  ∀ accountId group, m.ledger.acceptedOf accountId group ≤
    m.ledger.firstLoadedOf accountId group - 1

/-- One copy of every variant is kept while no sale counts copies shown sold before. -/
theorem keeps_one_copy (h : marketMachine.ReachableWhen Orderly m) : m.KeepsOne := by
  have hstocked : m.Stocked := by
    refine h.invariant_of ?_ fun s a t hr hi hc hn => ?_
    · rintro s ⟨steam, hfresh, rfl⟩
      exact stocked_empty hfresh
    · have hsubmitting := submitting_of_reachable hr.reachable
      exact hi.next hsubmitting.serial hsubmitting.vacant hc.1 hc.2 hn
  intro accountId group
  exact hstocked.sound.keeps_one

end Market

/-- Two sales of one card each out of two: the first is settled by a load before the second,
whose inventory was answered earlier, looks at its own. -/
def staleSale : List MarketAction :=
  [.previewSale "bee" "admin" "7" 1, .previewSale "bee" "admin" "7" 1] ++ previewRun 0 2 ++
    previewRun 1 2 ++ [.confirmSale "bee" "admin" 2, .confirmSale "bee" "admin" 3, .run 4] ++
    saleRun 4 2 ++ [.run 5, .disappear "bee" "7" 1, .inventory "bee",
      .inventoryLoads 6 [card 1]] ++ saleRun 5 2

def afterStaleSale : Market :=
  (marketMachine.execWhen Market.faithful (.empty cardSteam) staleSale).getD (.empty cardSteam)

set_option maxRecDepth 20000 in
/-- Inventories that tell the truth are not enough: the last copy is sold. -/
theorem stale_sale_sells_last :
    ¬∀ m, marketMachine.ReachableWhen (fun m a => m.faithful a = true) m → m.KeepsOne := by
  intro h
  have hreach : marketMachine.ReachableWhen (fun m a => m.faithful a = true) afterStaleSale :=
    Transition.Machine.reachable_execWhen (fun _ _ hc => hc) ⟨cardSteam, isFresh_cardSteam, rfl⟩
      (by decide)
  have hkept := h afterStaleSale hreach "bee" "7_0"
  revert hkept
  decide

def oneSale : Market :=
  (marketMachine.execWhen (fun m a => m.faithful a && m.sellsUpToDate a) (.empty cardSteam)
    (.previewSale "bee" "admin" "7" 1 :: previewRun 0 2 ++
      [.confirmSale "bee" "admin" 1, .run 2] ++ saleRun 2 2)).getD (.empty cardSteam)

set_option maxRecDepth 20000 in
theorem keeps_one_copy_oneSale : oneSale.KeepsOne ∧ oneSale.ledger.acceptedOf "bee" "7_0" = 1 :=
  ⟨Market.keeps_one_copy (Transition.Machine.reachable_execWhen
    (fun _ _ hc => Bool.and_eq_true_iff.mp hc) ⟨cardSteam, isFresh_cardSteam, rfl⟩ (by decide)),
    by decide⟩

end SteamBee.Inventory
