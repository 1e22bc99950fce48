import SteamBee.Inventory.Ledger

/-! What Steam holds of a variant group, against what inventories show of it and what the
service has submitted. -/
namespace SteamBee.Inventory

namespace Steam
variable {inventory : Steam} {assetId : AssetId} {s : Stack} {group : String} {f g : Stack → ℕ}

def groupTotal (inventory : Steam) (group : String) (f : Stack → ℕ) : ℕ :=
  (inventory.entries.filter fun e => e.2.group == group).total fun e => f e.2

theorem mem_group {e : Sigma fun _ : AssetId => Stack}
    (he : e ∈ inventory.entries.filter fun e => e.2.group == group) :
    inventory.lookup e.1 = some e.2 ∧ e.2.group = group := by
  obtain ⟨hmem, hg⟩ := List.mem_filter.mp he
  exact ⟨Table.lookup_eq_some_iff.mpr hmem, beq_iff_eq.mp hg⟩

theorem groupTotal_congr
    (h : ∀ assetId s, inventory.lookup assetId = some s → s.group = group → f s = g s) :
    inventory.groupTotal group f = inventory.groupTotal group g := by
  apply List.total_congr
  intro e he
  obtain ⟨hlook, hg⟩ := mem_group he
  exact h e.1 e.2 hlook hg

theorem groupTotal_add :
    inventory.groupTotal group (fun s => f s + g s) =
      inventory.groupTotal group f + inventory.groupTotal group g :=
  List.total_add _ _ _

theorem groupTotal_eq_zero
    (h : ∀ assetId s, inventory.lookup assetId = some s → s.group = group → f s = 0) :
    inventory.groupTotal group f = 0 := by
  apply List.total_eq_zero
  intro e he
  obtain ⟨hlook, hg⟩ := mem_group he
  exact h e.1 e.2 hlook hg

/-- A change of one stack that stays in its group. -/
theorem groupTotal_modify (group : String) (f : Stack → ℕ) (change : Stack → Stack) (hgroup : ∀ s, (change s).group = s.group)
    (hs : inventory.lookup assetId = some s) :
    groupTotal (inventory.modify assetId change) group f +
        (if s.group = group then f s else 0) =
      inventory.groupTotal group f + if s.group = group then f (change s) else 0 := by
  have hmem : (⟨assetId, s⟩ : Sigma fun _ : AssetId => Stack) ∈ inventory.entries :=
    Table.lookup_eq_some_iff.mp hs
  have hexcept := List.total_except (l := inventory.entries) (x := ⟨assetId, s⟩)
    (f := fun e => if (if e.1 = assetId then change e.2 else e.2).group == group then
      f (if e.1 = assetId then change e.2 else e.2) else 0)
    (g := fun e => if e.2.group == group then f e.2 else 0) Sigma.fst inventory.nodupKeys hmem
    fun e _ hne => by simp [hne]
  simp only [groupTotal, List.total_filter, Table.modify, Table.update, List.total_map]
  simpa [hgroup] using hexcept

end Steam

/-- The items are those of the stacks, each with a quantity between what is reported now
and what was held, and all that is reported is shown. -/
structure Shows (inventory : Steam) (items : List Item) : Prop where
  item : ∀ item ∈ items, ∃ s, inventory.lookup item.assetId = some s ∧ item.group = s.group ∧
    s.report ≤ item.quantity ∧ item.quantity ≤ s.held
  all : ∀ assetId s, inventory.lookup assetId = some s → 0 < s.report →
    ∃ item ∈ items, item.assetId = assetId

theorem nodup_group {items : List Item} (h : (items.map Item.assetId).Nodup) (group : String) :
    ((items.filter fun item => item.group == group).map Item.assetId).Nodup :=
  h.sublist (List.filter_sublist.map _)

theorem items_le_stacks {inventory : Steam} {items : List Item} {group : String} {q : Item → ℕ}
    {f : Stack → ℕ} (hnodup : (items.map Item.assetId).Nodup)
    (h : ∀ item ∈ items, item.group = group → ∃ s, inventory.lookup item.assetId = some s ∧
      s.group = group ∧ q item ≤ f s) :
    (items.filter fun item => item.group == group).total q ≤ inventory.groupTotal group f := by
  apply List.total_le_total Item.assetId Sigma.fst (nodup_group hnodup group)
  intro item hitem _
  obtain ⟨hmem, hg⟩ := List.mem_filter.mp hitem
  obtain ⟨s, hs, hsg, hle⟩ := h item hmem (beq_iff_eq.mp hg)
  refine ⟨⟨item.assetId, s⟩, ?_, rfl, hle⟩
  exact List.mem_filter.mpr ⟨Table.lookup_eq_some_iff.mp hs, beq_iff_eq.mpr hsg⟩

theorem stacks_le_items {inventory : Steam} {items : List Item} {group : String} {q : Item → ℕ}
    {f : Stack → ℕ}
    (h : ∀ assetId s, inventory.lookup assetId = some s → s.group = group → 0 < f s →
      ∃ item ∈ items, item.assetId = assetId ∧ item.group = group ∧ f s ≤ q item) :
    inventory.groupTotal group f ≤ (items.filter fun item => item.group == group).total q := by
  apply List.total_le_total Sigma.fst Item.assetId
  · exact inventory.nodupKeys.sublist List.filter_sublist
  · intro e he hpos
    obtain ⟨hlook, hg⟩ := Steam.mem_group he
    obtain ⟨item, hmem, hasset, hgroup, hle⟩ := h e.1 e.2 hlook hg hpos
    exact ⟨item, List.mem_filter.mpr ⟨hmem, beq_iff_eq.mpr hgroup⟩, hasset, hle⟩

namespace Ledger

def acceptedOf (l : Ledger) (accountId : AccountId) (group : String) : ℕ :=
  (l.steamOf accountId).groupTotal group Stack.accepted

def stockOf (l : Ledger) (accountId : AccountId) (group : String) : ℕ :=
  (l.steamOf accountId).groupTotal group Stack.stock

def firstItems (l : Ledger) (accountId : AccountId) : List Item :=
  (l.firstLoaded.lookup accountId).getD []

def firstLoadedOf (l : Ledger) (accountId : AccountId) (group : String) : ℕ :=
  ((l.firstItems accountId).filter fun item => item.group == group).total Item.quantity

/-- An inventory released the asset showing no more than what is left to sell. -/
def Settled (l : Ledger) (accountId : AccountId) (assetId : AssetId) (s : Stack) : Prop :=
  s.accepted = 0 ∨ ∃ r ∈ l.released, r.accountId = accountId ∧ r.assetId = assetId ∧
    r.shown ≤ s.stock

/-- The submissions cover what Steam has accepted and still may report. -/
structure Sound (l : Ledger) : Prop where
  inventory : ∀ accountId assetId s, (l.steamOf accountId).lookup assetId = some s →
    s.gone ≤ s.accepted ∧ s.accepted ≤ s.held
  entries : ∀ accountId assetId entry, (l.submittedOf accountId).lookup assetId = some entry →
    ∃ s, (l.steamOf accountId).lookup assetId = some s ∧
      entry.before ≤ s.stock + entry.quantity ∧ s.report ≤ entry.before
  settled : ∀ accountId assetId s, (l.steamOf accountId).lookup assetId = some s →
    (l.submittedOf accountId).lookup assetId = none → l.Settled accountId assetId s
  kept : ∀ accountId group, l.acceptedOf accountId group = 0 ∨ 0 < l.stockOf accountId group
  first : ∀ accountId items, l.firstLoaded.lookup accountId = some items → ∀ group,
    (items.filter fun item => item.group == group).total Item.quantity =
      (l.steamOf accountId).groupTotal group Stack.held
  unloaded : ∀ accountId, l.firstLoaded.lookup accountId = none → ∀ assetId s,
    (l.steamOf accountId).lookup assetId = some s → s.accepted = 0

variable {l l' : Ledger} {accountId other : AccountId} {assetId asset : AssetId} {group : String}
  {items : List Item} {s : Stack}

theorem Sound.accepted_add_stock (h : l.Sound) (accountId : AccountId) (group : String) :
    l.acceptedOf accountId group + l.stockOf accountId group =
      (l.steamOf accountId).groupTotal group Stack.held := by
  unfold acceptedOf stockOf
  rw [← Steam.groupTotal_add]
  apply Steam.groupTotal_congr
  intro assetId s hs _
  have hle := (h.inventory accountId assetId s hs).2
  unfold Stack.stock
  omega

/-- One copy of what was loaded first is kept. -/
theorem Sound.keeps_one (h : l.Sound) :
    l.acceptedOf accountId group ≤ l.firstLoadedOf accountId group - 1 := by
  have hsum := h.accepted_add_stock accountId group
  cases hfirst : l.firstLoaded.lookup accountId with
  | none =>
    have hzero : l.acceptedOf accountId group = 0 :=
      Steam.groupTotal_eq_zero fun assetId s hs _ => h.unloaded accountId hfirst assetId s hs
    omega
  | some items =>
    have hitems := h.first accountId items hfirst group
    have hloaded : l.firstLoadedOf accountId group =
        (items.filter fun item => item.group == group).total Item.quantity := by
      simp [firstLoadedOf, firstItems, hfirst]
    rcases h.kept accountId group with hzero | hpos
    · omega
    · omega

theorem steamOf_empty {steam : Table AccountId Steam} (h : IsFresh steam)
    (hs : ((empty steam).steamOf accountId).lookup assetId = some s) :
    s.accepted = 0 ∧ s.gone = 0 := by
  have hs : ((steam.lookup accountId).getD ∅).lookup assetId = some s := hs
  cases hacc : steam.lookup accountId with
  | none =>
    rw [hacc] at hs
    cases hs
  | some inventory =>
    rw [hacc] at hs
    exact h accountId inventory hacc assetId s hs

theorem sound_empty {steam : Table AccountId Steam} (h : IsFresh steam) : (empty steam).Sound := by
  constructor
  case inventory =>
    intro accountId assetId s hs
    obtain ⟨hacc, hgone⟩ := steamOf_empty h hs
    omega
  case entries =>
    intro accountId assetId entry he
    cases he
  case settled =>
    intro accountId assetId s hs _
    exact .inl (steamOf_empty h hs).1
  case kept =>
    intro accountId group
    left
    exact Steam.groupTotal_eq_zero fun assetId s hs _ => (steamOf_empty h hs).1
  case first =>
    intro accountId items hi
    cases hi
  case unloaded =>
    intro accountId _ assetId s hs
    exact (steamOf_empty h hs).1

theorem Sound.record (h : l.Sound) (event : MarketEvent) : (l.record event).Sound :=
  ⟨h.inventory, h.entries, h.settled, h.kept, h.first, h.unloaded⟩

theorem shown_le_of_settledBy {entry : Submission} (h : entry.settledBy items assetId = true) :
    shown items assetId ≤ entry.before - entry.quantity := by
  unfold Submission.settledBy at h
  unfold shown
  split at h
  next hnone => simp [hnone]
  next item hitem =>
    rw [hitem]
    exact of_decide_eq_true h

theorem mem_releases {submitted : Table AssetId Submission} {entry : Submission}
    (he : submitted.lookup assetId = some entry) (h : entry.settledBy items assetId = true) :
    ⟨accountId, assetId, shown items assetId⟩ ∈ releases accountId items submitted := by
  refine List.mem_map.mpr ⟨⟨assetId, entry⟩, ?_, rfl⟩
  rw [← Table.lookup_eq_some_iff, Table.lookup_retain, he]
  simp [h]

theorem Settled.load (h : l.Settled other asset s) : (l.load accountId items).Settled other asset s := by
  rcases h with hzero | ⟨r, hr, hacc, hasset, hle⟩
  · exact .inl hzero
  · exact .inr ⟨r, List.mem_append_right _ hr, hacc, hasset, hle⟩

/-- In the inventory loaded first nothing has been accepted yet. -/
theorem Sound.first_total (h : l.Sound) (hshows : Shows (l.steamOf accountId) items)
    (hnodup : (items.map Item.assetId).Nodup) (hnone : l.firstLoaded.lookup accountId = none) :
    (items.filter fun item => item.group == group).total Item.quantity =
      (l.steamOf accountId).groupTotal group Stack.held := by
  have hfull (assetId : AssetId) (s : Stack)
      (hs : (l.steamOf accountId).lookup assetId = some s) : s.report = s.held := by
    have hzero := h.unloaded accountId hnone assetId s hs
    have hle := h.inventory accountId assetId s hs
    unfold Stack.report
    omega
  apply le_antisymm
  · apply items_le_stacks hnodup
    intro item hitem hgroup
    obtain ⟨s, hs, hsg, -, hle⟩ := hshows.item item hitem
    exact ⟨s, hs, hsg.symm.trans hgroup, hle⟩
  · apply stacks_le_items
    intro assetId s hs hsg hpos
    have hreport := hfull assetId s hs
    obtain ⟨item, hitem, rfl⟩ := hshows.all assetId s hs (by omega)
    obtain ⟨s', hs', hg, hle, -⟩ := hshows.item item hitem
    obtain rfl := Option.some.inj (hs.symm.trans hs')
    exact ⟨item, hitem, rfl, hg.trans hsg, by omega⟩

theorem Sound.load (h : l.Sound) (hshows : Shows (l.steamOf accountId) items)
    (hnodup : (items.map Item.assetId).Nodup) : (l.load accountId items).Sound := by
  constructor
  case inventory => exact h.inventory
  case entries =>
    intro other asset entry he
    rw [submittedOf_load] at he
    split_ifs at he
    · exact h.entries other asset entry (Option.filter_eq_some_iff.mp he).1
    · exact h.entries other asset entry he
  case settled =>
    intro other asset s hs hnone
    have hs : (l.steamOf other).lookup asset = some s := hs
    rw [submittedOf_load] at hnone
    cases he : (l.submittedOf other).lookup asset with
    | none => exact (h.settled other asset s hs he).load
    | some entry =>
      rw [he] at hnone
      split_ifs at hnone with hacc
      · subst hacc
        have hsettled : entry.settledBy items asset = true := by simpa using hnone
        obtain ⟨s', hs', hbefore, -⟩ := h.entries other asset entry he
        obtain rfl := Option.some.inj (hs.symm.trans hs')
        have hshown := shown_le_of_settledBy hsettled
        refine .inr ⟨_, List.mem_append_left _ (mem_releases he hsettled), rfl, rfl, ?_⟩
        show shown items asset ≤ s.stock
        omega
  case kept => exact h.kept
  case first =>
    intro other items' hi group
    have hi : (if (l.firstLoaded.lookup accountId).isSome then l.firstLoaded
      else l.firstLoaded.insert accountId items).lookup other = some items' := hi
    split_ifs at hi with hsome
    · exact h.first other items' hi group
    · rw [Table.lookup_insert_eq] at hi
      split_ifs at hi with hacc
      · obtain rfl := Option.some.inj hi
        subst hacc
        exact h.first_total hshows hnodup (by simpa using hsome)
      · exact h.first other items' hi group
  case unloaded =>
    intro other hi
    have hi : (if (l.firstLoaded.lookup accountId).isSome then l.firstLoaded
      else l.firstLoaded.insert accountId items).lookup other = none := hi
    split_ifs at hi with hsome
    · exact h.unloaded other hi
    · rw [Table.lookup_insert_eq] at hi
      split_ifs at hi
      exact h.unloaded other hi

theorem firstLoaded_load : ((l.load accountId items).firstLoaded.lookup accountId).isSome := by
  have hlook : (l.load accountId items).firstLoaded = if (l.firstLoaded.lookup accountId).isSome
    then l.firstLoaded else l.firstLoaded.insert accountId items := rfl
  rw [hlook]
  split_ifs with hsome
  · exact hsome
  · simp

theorem firstLoaded_load_of_isSome (h : (l.firstLoaded.lookup other).isSome) :
    ((l.load accountId items).firstLoaded.lookup other).isSome := by
  have hlook : (l.load accountId items).firstLoaded = if (l.firstLoaded.lookup accountId).isSome
    then l.firstLoaded else l.firstLoaded.insert accountId items := rfl
  rw [hlook]
  split_ifs with hsome
  · exact h
  · rw [Table.lookup_insert_eq]
    split_ifs
    · rfl
    · exact h

theorem fields_answer (l : Ledger) (id : OpId) (accountId : AccountId) (assetId : AssetId)
    (answer : Answer) :
    (l.answer id accountId assetId answer).released = l.released ∧
      (l.answer id accountId assetId answer).firstLoaded = l.firstLoaded := by
  unfold Ledger.answer
  dsimp only
  split_ifs <;> exact ⟨rfl, rfl⟩

/-- A definite failure gives the asset back only when it was free before. -/
theorem Sound.answer (h : l.Sound) {id : OpId} {answer : Answer}
    (hset : answer.isDefiniteFailure = true → ∀ s,
      (l.steamOf accountId).lookup assetId = some s → l.Settled accountId assetId s) :
    (l.answer id accountId assetId answer).Sound := by
  have hfields := fields_answer l id accountId assetId answer
  constructor
  case inventory => simpa using h.inventory
  case entries =>
    intro other asset entry he
    rw [submittedOf_answer] at he
    split_ifs at he
    simpa using h.entries other asset entry he
  case settled =>
    intro other asset s hs hnone
    rw [steamOf_answer] at hs
    rw [submittedOf_answer] at hnone
    unfold Settled
    rw [hfields.1]
    split_ifs at hnone with hdef
    · obtain ⟨hdef, rfl, rfl⟩ := hdef
      exact hset hdef s hs
    · exact h.settled other asset s hs hnone
  case kept =>
    intro other group
    simpa [acceptedOf, stockOf] using h.kept other group
  case first =>
    intro other items hi group
    rw [hfields.2] at hi
    simpa using h.first other items hi group
  case unloaded =>
    intro other hi
    rw [hfields.2] at hi
    simpa using h.unloaded other hi

/-- The copies of a post are there to be sold, and one more of their group. -/
structure Affords (l : Ledger) (p : Post) : Prop where
  stack : ∃ s, (l.steamOf p.accountId).lookup p.assetId = some s ∧ p.quantity ≤ p.before ∧
    p.before ≤ s.stock ∧ s.report ≤ p.before ∧
    p.quantity < l.stockOf p.accountId s.group
  loaded : (l.firstLoaded.lookup p.accountId).isSome

theorem fields_post (l : Ledger) (id : OpId) (p : Post) (accepted : Bool) :
    (l.post id p accepted).released = l.released ∧
      (l.post id p accepted).firstLoaded = l.firstLoaded := by
  unfold post
  cases accepted <;> exact ⟨rfl, rfl⟩

/-- What a post does to a stack. -/
theorem stack_post {id : OpId} {p : Post} {accepted : Bool}
    (hs : ((l.post id p accepted).steamOf other).lookup asset = some s) :
    (l.steamOf other).lookup asset = some s ∨
      accepted = true ∧ other = p.accountId ∧ asset = p.assetId ∧
        ∃ t, (l.steamOf other).lookup asset = some t ∧
          s = { t with accepted := t.accepted + p.quantity } := by
  rw [steamOf_post] at hs
  split_ifs at hs with hacc
  · obtain ⟨hacc, rfl⟩ := hacc
    rw [Table.lookup_modify] at hs
    split_ifs at hs with hasset
    · subst hasset
      obtain ⟨t, ht, rfl⟩ := Option.map_eq_some_iff.mp hs
      exact .inr ⟨hacc, rfl, rfl, t, ht, rfl⟩
    · exact .inl hs
  · exact .inl hs

theorem groupTotal_post {id : OpId} {p : Post} {accepted : Bool} {f : Stack → ℕ}
    (hf : ∀ s : Stack, (accepted = true ∧ other = p.accountId ∧ s.group = group) →
      (l.steamOf other).lookup p.assetId = some s →
      f { s with accepted := s.accepted + p.quantity } = f s) :
    ((l.post id p accepted).steamOf other).groupTotal group f =
      (l.steamOf other).groupTotal group f := by
  rw [steamOf_post]
  split_ifs with hacc
  · obtain ⟨hacc, rfl⟩ := hacc
    cases hs : (l.steamOf p.accountId).lookup p.assetId with
    | none =>
      rw [Table.modify_of_lookup_none hs]
    | some s =>
      have hchange := Steam.groupTotal_modify group f
        (fun s => { s with accepted := s.accepted + p.quantity }) (fun _ => rfl) hs
      by_cases hg : s.group = group
      · have hfs := hf s ⟨hacc, rfl, hg⟩ hs
        rw [if_pos hg, if_pos hg] at hchange
        omega
      · simpa [hg] using hchange
  · rfl

theorem Sound.post (h : l.Sound) {id : OpId} {p : Post} {accepted : Bool} (hp : l.Affords p) :
    (l.post id p accepted).Sound := by
  obtain ⟨⟨s₀, hs₀, hqb, hbefore, hreport, hgroup⟩, hloaded⟩ := hp
  have hfields := fields_post l id p accepted
  constructor
  case inventory =>
    intro other asset s hs
    rcases stack_post hs with hs | ⟨-, rfl, rfl, t, ht, rfl⟩
    · exact h.inventory other asset s hs
    · obtain rfl := Option.some.inj (hs₀.symm.trans ht)
      have hle := h.inventory _ _ _ hs₀
      unfold Stack.stock at hbefore
      constructor
      · show s₀.gone ≤ s₀.accepted + p.quantity
        omega
      · show s₀.accepted + p.quantity ≤ s₀.held
        omega
  case entries =>
    intro other asset entry he
    rw [submittedOf_post] at he
    split_ifs at he with heq
    · obtain ⟨rfl, rfl⟩ := heq
      obtain rfl := Option.some.inj he
      rw [steamOf_post]
      split_ifs with hacc
      · refine ⟨{ s₀ with accepted := s₀.accepted + p.quantity }, ?_, ?_, hreport⟩
        · rw [Table.lookup_modify, if_pos rfl, hs₀]
          rfl
        · show p.before ≤ (s₀.held - (s₀.accepted + p.quantity)) + p.quantity
          unfold Stack.stock at hbefore
          omega
      · refine ⟨s₀, hs₀, ?_, hreport⟩
        exact Nat.le_trans hbefore (Nat.le_add_right _ _)
    · obtain ⟨s, hs, hb, hr⟩ := h.entries other asset entry he
      refine ⟨s, ?_, hb, hr⟩
      rw [steamOf_post]
      split_ifs with hacc
      · obtain ⟨-, rfl⟩ := hacc
        have hne : asset ≠ p.assetId := by
          intro hasset
          exact heq ⟨rfl, hasset⟩
        rw [Table.lookup_modify, if_neg hne]
        exact hs
      · exact hs
  case settled =>
    intro other asset s hs hnone
    rw [submittedOf_post] at hnone
    split_ifs at hnone with heq
    rcases stack_post hs with hs | ⟨-, rfl, rfl, -⟩
    · have hset := h.settled other asset s hs hnone
      unfold Settled
      rw [hfields.1]
      exact hset
    · exact absurd ⟨rfl, rfl⟩ heq
  case kept =>
    intro other group
    by_cases hhere : accepted = true ∧ other = p.accountId ∧ s₀.group = group
    · obtain ⟨hacc, rfl, hg⟩ := hhere
      right
      have hchange := Steam.groupTotal_modify group Stack.stock
        (fun s => { s with accepted := s.accepted + p.quantity }) (fun _ => rfl) hs₀
      rw [if_pos hg, if_pos hg] at hchange
      have hnew : (l.post id p accepted).stockOf p.accountId group =
          Steam.groupTotal ((l.steamOf p.accountId).modify p.assetId fun s =>
            { s with accepted := s.accepted + p.quantity }) group Stack.stock := by
        unfold stockOf
        rw [steamOf_post, if_pos ⟨hacc, rfl⟩]
      rw [hnew]
      have hold : p.quantity < (l.steamOf p.accountId).groupTotal group Stack.stock := hg ▸ hgroup
      unfold Stack.stock at hchange hold hbefore ⊢
      dsimp only at hchange
      omega
    · have hsame {f : Stack → ℕ} : ((l.post id p accepted).steamOf other).groupTotal group f =
          (l.steamOf other).groupTotal group f := by
        apply groupTotal_post
        rintro s ⟨hacc, rfl, hg⟩ hs
        obtain rfl := Option.some.inj (hs₀.symm.trans hs)
        exact absurd ⟨hacc, rfl, hg⟩ hhere
      unfold acceptedOf stockOf
      rw [hsame, hsame]
      exact h.kept other group
  case first =>
    intro other items hi group
    rw [hfields.2] at hi
    rw [groupTotal_post fun _ _ _ => rfl]
    exact h.first other items hi group
  case unloaded =>
    intro other hi asset s hs
    rw [hfields.2] at hi
    rcases stack_post hs with hs | ⟨-, rfl, -⟩
    · exact h.unloaded other hi asset s hs
    · rw [hi] at hloaded
      cases hloaded

/-- Copies may leave the report, and nothing else changes. -/
structure Fades (before after : Steam) : Prop where
  stack : ∀ assetId s, after.lookup assetId = some s → ∃ t, before.lookup assetId = some t ∧
    s.group = t.group ∧ s.held = t.held ∧ s.accepted = t.accepted ∧ t.gone ≤ s.gone
  kept : ∀ assetId t, before.lookup assetId = some t → ∃ s, after.lookup assetId = some s
  stock : ∀ group, after.groupTotal group Stack.stock = before.groupTotal group Stack.stock

theorem Fades.refl (inventory : Steam) : Fades inventory inventory where
  stack _ s hs := ⟨s, hs, rfl, rfl, rfl, le_rfl⟩
  kept _ s hs := ⟨s, hs⟩
  stock _ := rfl

theorem disappear_eq {count : ℕ} (h : l.disappear accountId assetId count = some l') :
    ∃ s, (l.steamOf accountId).lookup assetId = some s ∧ s.gone + count ≤ s.accepted ∧
      l' = l.changeStack accountId assetId fun s => { s with gone := s.gone + count } := by
  obtain ⟨s, hs, h⟩ := Option.bind_eq_some_iff.mp h
  split_ifs at h with hle
  exact ⟨s, hs, hle, (Option.some.inj h).symm⟩

theorem fades_disappear {count : ℕ} (h : l.disappear accountId assetId count = some l') :
    Fades (l.steamOf other) (l'.steamOf other) := by
  obtain ⟨s, hs, -, rfl⟩ := disappear_eq h
  rw [steamOf_changeStack]
  split_ifs with hacc
  · subst hacc
    constructor
    · intro asset s' hs'
      rw [Table.lookup_modify] at hs'
      split_ifs at hs' with hasset
      · subst hasset
        rw [hs] at hs'
        obtain rfl := Option.some.inj hs'
        exact ⟨s, hs, rfl, rfl, rfl, Nat.le_add_right _ _⟩
      · exact ⟨s', hs', rfl, rfl, rfl, le_rfl⟩
    · intro asset t ht
      rw [Table.lookup_modify]
      split_ifs with hasset
      · subst hasset
        rw [hs]
        exact ⟨_, rfl⟩
      · exact ⟨t, ht⟩
    · intro group
      have hchange := Steam.groupTotal_modify group Stack.stock
        (fun s => { s with gone := s.gone + count }) (fun _ => rfl) hs
      exact Nat.add_right_cancel hchange
  · exact .refl _

theorem Sound.disappear (h : l.Sound) {count : ℕ}
    (hd : l.disappear accountId assetId count = some l') : l'.Sound := by
  have hfade (other : AccountId) : Fades (l.steamOf other) (l'.steamOf other) :=
    fades_disappear hd
  obtain ⟨s₀, hs₀, hle, rfl⟩ := disappear_eq hd
  have htotal {f : Stack → ℕ} (hf : ∀ s : Stack, f { s with gone := s.gone + count } = f s)
      (other : AccountId) (group : String) :
      ((l.changeStack accountId assetId fun s => { s with gone := s.gone + count }).steamOf
        other).groupTotal group f = (l.steamOf other).groupTotal group f := by
    rw [steamOf_changeStack]
    split_ifs with hacc
    · subst hacc
      have hchange := Steam.groupTotal_modify group f
        (fun s => { s with gone := s.gone + count }) (fun _ => rfl) hs₀
      rw [hf] at hchange
      exact Nat.add_right_cancel hchange
    · rfl
  constructor
  case inventory =>
    intro other asset s hs
    have hs' := hs
    rw [steamOf_changeStack] at hs'
    split_ifs at hs' with hacc
    · subst hacc
      rw [Table.lookup_modify] at hs'
      split_ifs at hs' with hasset
      · subst hasset
        rw [hs₀] at hs'
        obtain rfl := Option.some.inj hs'
        exact ⟨hle, (h.inventory _ _ _ hs₀).2⟩
      · exact h.inventory _ _ _ hs'
    · exact h.inventory _ _ _ hs'
  case entries =>
    intro other asset entry he
    obtain ⟨t, ht, hb, hr⟩ := h.entries other asset entry he
    obtain ⟨s, hs⟩ := (hfade other).kept asset t ht
    obtain ⟨t', ht', -, hheld, hacc, hgone⟩ := (hfade other).stack asset s hs
    obtain rfl := Option.some.inj (ht.symm.trans ht')
    refine ⟨s, hs, ?_, ?_⟩
    · unfold Stack.stock at hb ⊢
      omega
    · unfold Stack.report at hr ⊢
      omega
  case settled =>
    intro other asset s hs hnone
    obtain ⟨t, ht, -, hheld, hacc, -⟩ := (hfade other).stack asset s hs
    have hstock : s.stock = t.stock := by
      unfold Stack.stock
      omega
    have hset := h.settled other asset t ht hnone
    unfold Settled at hset ⊢
    rw [hacc, hstock]
    exact hset
  case kept =>
    intro other group
    unfold acceptedOf stockOf
    rw [htotal (fun _ => rfl), htotal (fun _ => rfl)]
    exact h.kept other group
  case first =>
    intro other items hi group
    rw [htotal (fun _ => rfl)]
    exact h.first other items hi group
  case unloaded =>
    intro other hi asset s hs
    obtain ⟨t, ht, -, -, hacc, -⟩ := (hfade other).stack asset s hs
    rw [hacc]
    exact h.unloaded other hi asset t ht

end Ledger
end SteamBee.Inventory
