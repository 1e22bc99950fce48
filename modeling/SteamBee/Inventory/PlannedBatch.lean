import SteamBee.Inventory.SnapshotCounts

/-! A batch whose rows offer copies that are not the kept ones passes the checks of
`previewBatch`, in whatever order its rows stand and whichever quotes fail. -/
namespace SteamBee.Inventory

/-- The plans that `previewBatch` can have when it has looked at the rows, as long as nothing of
the account is submitted. The quote of a row that passes may fail, and the market may have
gone on in between. -/
inductive Planned (op : Op) (actor : Actor) (start : BatchPlan) :
    List (AssetId × ℕ) → BatchPlan → Prop
  | start : Planned op actor start [] start
  | quoted (m m' : Market) (done : List (AssetId × ℕ)) (plan : BatchPlan) (assetId : AssetId)
      (quantity : ℕ) (item : Item) (outcome : Except ActionError Quote) (token : Uuid)
      (hnone : m.submittedOf op.accountId = ∅) (h : Planned op actor start done plan)
      (hrow : m.planRow op plan assetId quantity = .ok item) :
      Planned op actor start (done ++ [(assetId, quantity)])
        (m'.settleQuote op actor plan item quantity outcome token)
  | refused (m : Market) (done : List (AssetId × ℕ)) (plan : BatchPlan) (assetId : AssetId)
      (quantity : ℕ) (e : ActionError) (hnone : m.submittedOf op.accountId = ∅)
      (h : Planned op actor start done plan)
      (hrow : m.planRow op plan assetId quantity = .error e) :
      Planned op actor start (done ++ [(assetId, quantity)])
        { plan with commands := plan.commands ++ [Market.unavailable plan assetId quantity e] }

section Planned
variable {m : Market} {op : Op} {actor : Actor} {input : BatchInput} {start plan plan' : BatchPlan}
  {done rows rest : List (AssetId × ℕ)} {item : Item} {assetId : AssetId} {quantity : ℕ}

/-- The rows up to the next quote. By induction on the rows. -/
theorem Planned.of_planRows {token drawn : Uuid} (hnone : m.submittedOf op.accountId = ∅)
    (h : Planned op actor start done plan)
    (hawaits : m.planRows op actor input token rows plan =
      .awaits (.previewBatch actor input (.quote plan' item quantity rest)) drawn) :
    ∃ passed assetId, rows = passed ++ (assetId, quantity) :: rest ∧
      Planned op actor start (done ++ passed) plan' ∧
      m.planRow op plan' assetId quantity = .ok item := by
  induction rows generalizing done plan token with
  | nil =>
    unfold Market.planRows Market.whenCurrent at hawaits
    split_ifs at hawaits
    cases hawaits
  | cons row rows ih =>
    obtain ⟨assetId, amount⟩ := row
    have hnext (plan : BatchPlan) (h : Planned op actor start (done ++ [(assetId, amount)]) plan)
        (hawaits : m.planRows op actor input (token + 1) rows plan =
          .awaits (.previewBatch actor input (.quote plan' item quantity rest)) drawn) :
        ∃ passed other, (assetId, amount) :: rows = passed ++ (other, quantity) :: rest ∧
          Planned op actor start (done ++ passed) plan' ∧
          m.planRow op plan' other quantity = .ok item := by
      obtain ⟨passed, other, rfl, hplan, hrow⟩ := ih h hawaits
      refine ⟨(assetId, amount) :: passed, other, rfl, ?_, hrow⟩
      rw [List.append_assoc] at hplan
      exact hplan
    unfold Market.planRows at hawaits
    split_ifs at hawaits
    · cases hawaits
    · cases hawaits
    split at hawaits
    next e hrow => exact hnext _ (.refused m done plan assetId amount e hnone h hrow) hawaits
    next found hrow =>
      split at hawaits
      next outcome _ =>
        exact hnext _ (.quoted m m done plan assetId amount found outcome token hnone h hrow) hawaits
      next e _ =>
        exact hnext _ (.quoted m m done plan assetId amount found _ token hnone h hrow) hawaits
      next =>
        cases hawaits
        exact ⟨[], assetId, rfl, by rwa [List.append_nil], hrow⟩

def asked (inventory : List Item) (rows : List (AssetId × ℕ)) (group : String) : ℕ :=
  rows.total fun row =>
    if (findItem inventory row.1).map Item.group = some group then row.2 else 0

theorem planRow_spec (h : m.planRow op plan assetId quantity = .ok item) :
    findItem plan.inventory assetId = some item := by
  unfold Market.planRow at h
  dsimp only at h
  split at h
  next => cases h
  next found hfound =>
    split_ifs at h
    obtain rfl := Except.ok.inj h
    exact (sellable_spec hfound).1

/-- No more is planned of a group than the rows have asked for. By induction on the rows. -/
theorem Planned.bound (h : Planned op actor start done plan) (hstart : start.planned = ∅) :
    plan.inventory = start.inventory ∧ plan.listings = start.listings ∧
      ∀ group, (plan.planned.lookup group).getD 0 ≤ asked start.inventory done group := by
  induction h with
  | start =>
    refine ⟨rfl, rfl, fun group => ?_⟩
    rw [hstart]
    exact Nat.zero_le _
  | quoted m m' done plan assetId quantity item outcome token hnone h hrow ih =>
    obtain ⟨hinventory, hlistings, hplanned⟩ := ih
    cases outcome with
    | error e =>
      refine ⟨hinventory, hlistings, fun group => (hplanned group).trans ?_⟩
      rw [asked, asked, List.total_append]
      exact Nat.le_add_right _ _
    | ok quote =>
      refine ⟨hinventory, hlistings, fun group => ?_⟩
      show ((plan.planned.insert item.group _).lookup group).getD 0 ≤ _
      have hold := hplanned group
      rw [asked] at hold
      rw [Table.lookup_insert_eq, asked, List.total_append, List.total_cons, List.total_nil]
      have hfind := planRow_spec hrow
      rw [hinventory] at hfind
      rw [hfind]
      split_ifs with hgroup hsame hsame
      · subst hgroup
        rw [Option.getD_some]
        omega
      · exact absurd (congrArg some hgroup.symm) hsame
      · exact hold.trans (Nat.le_add_right _ _)
      · exact hold.trans (Nat.le_add_right _ _)
  | refused m done plan assetId quantity e hnone h hrow ih =>
    obtain ⟨hinventory, hlistings, hplanned⟩ := ih
    refine ⟨hinventory, hlistings, fun group => (hplanned group).trans ?_⟩
    rw [asked, asked, List.total_append]
    exact Nat.le_add_right _ _

end Planned

/-- What the checks of the service make of a batch, as long as nothing of the account is
submitted or listed. -/
structure AcceptedBatch (inventory : List Item) (batch : List (AssetId × ℕ)) : Prop where
  distinct : (batch.map Prod.fst).Nodup
  sellable : ∀ row ∈ batch, ∃ item, assertSellable ∅ inventory row.1 row.2 = .ok item
  keepOne : ∀ done row rest, batch = done ++ row :: rest → ∀ op actor start plan,
    start.inventory = inventory → start.listings = [] → start.planned = ∅ →
    Planned op actor start done plan → ∀ m : Market, m.submittedOf op.accountId = ∅ →
    ∃ item, m.planRow op plan row.1 row.2 = .ok item

section Accepted
variable {pages : ℕ → InventoryPage} {loaded : List LoadedItem} {batch : List (AssetId × ℕ)}
  {row : AssetId × ℕ} {item : LoadedItem}

/-- The row asks for copies of an item that are not the kept one. -/
def OfferedRow (loaded : List LoadedItem) (row : AssetId × ℕ) : Prop :=
  ∃ item ∈ loaded, item.assetId = row.1 ∧ 0 < row.2 ∧ row.2 ≤ 100 ∧
    row.2 ≤ item.duplicateQuantity

theorem findItem_of_loaded (hload : loadInventory pages = .ok loaded) (hitem : item ∈ loaded) :
    findItem (loaded.map LoadedItem.toItem) item.assetId = some item.toItem := by
  apply findItem_eq_of_mem
  · rw [List.map_map]
    exact assetIds_nodup hload
  · exact List.mem_map.mpr ⟨item, hitem, rfl⟩

/-- Rows of distinct assets leave a copy of every group. Each row has the duplicates of its own
asset to itself. -/
theorem asked_lt (batch : List (AssetId × ℕ)) (hload : loadInventory pages = .ok loaded)
    (hdistinct : (batch.map Prod.fst).Nodup) (hoffered : ∀ row ∈ batch, OfferedRow loaded row)
    (hitem : item ∈ loaded) :
    asked (loaded.map LoadedItem.toItem) batch item.group + 1 ≤
      groupQuantity ∅ (loaded.map LoadedItem.toItem) item.group := by
  rw [← total_duplicates hload hitem]
  apply Nat.succ_le_succ
  apply List.total_le_total Prod.fst (fun other => other.assetId) hdistinct
  intro row hrow hpos
  obtain ⟨other, hother, hid, -, -, hdup⟩ := hoffered row hrow
  rw [← hid, findItem_of_loaded hload hother, Option.map_some] at hpos ⊢
  split_ifs at hpos ⊢ with hgroup
  · refine ⟨other, List.mem_filter.mpr ⟨hother, ?_⟩, rfl, hdup⟩
    exact beq_iff_eq.mpr (Option.some.inj hgroup)
  · exact absurd hpos (lt_irrefl 0)

theorem sellable_of_offered (hload : loadInventory pages = .ok loaded) (hitem : item ∈ loaded)
    (hid : item.assetId = row.1) (hpos : 0 < row.2) (hmax : row.2 ≤ 100)
    (hdup : row.2 ≤ item.duplicateQuantity)
    (hgroup : row.2 + 1 ≤ groupQuantity ∅ (loaded.map LoadedItem.toItem) item.group) :
    assertSellable ∅ (loaded.map LoadedItem.toItem) row.1 row.2 = .ok item.toItem := by
  obtain ⟨descriptions, assets, -, hitems⟩ := loadInventory_items hload
  obtain ⟨asset, -, isKept, hfrom⟩ := loadItems_mem hitems hitem
  have hquantity : item.duplicateQuantity ≤ item.quantity := by
    rw [hfrom.duplicates]
    exact Nat.sub_le _ _
  unfold assertSellable
  rw [← hid, findItem_of_loaded hload hitem]
  dsimp only
  rw [if_neg (by omega), AList.lookup_empty, if_neg (by simp), if_neg (by omega)]

/-- The checks accept rows of distinct assets that offer no kept copy. -/
theorem acceptedBatch_of_offered (hload : loadInventory pages = .ok loaded)
    (hdistinct : (batch.map Prod.fst).Nodup) (hoffered : ∀ row ∈ batch, OfferedRow loaded row) :
    AcceptedBatch (loaded.map LoadedItem.toItem) batch := by
  have hone (row : AssetId × ℕ) (hrow : row ∈ batch) {item : LoadedItem} (hitem : item ∈ loaded)
      (hid : item.assetId = row.1) :
      row.2 + 1 ≤ groupQuantity ∅ (loaded.map LoadedItem.toItem) item.group := by
    have hlt := asked_lt [row] hload (List.nodup_singleton _)
      (fun other hother => List.mem_singleton.mp hother ▸ hoffered row hrow) hitem
    rw [asked, List.total_cons, List.total_nil, ← hid, findItem_of_loaded hload hitem] at hlt
    simpa using hlt
  constructor
  case distinct => exact hdistinct
  case sellable =>
    intro row hrow
    obtain ⟨item, hitem, hid, hpos, hmax, hdup⟩ := hoffered row hrow
    exact ⟨_, sellable_of_offered hload hitem hid hpos hmax hdup (hone row hrow hitem hid)⟩
  case keepOne =>
    intro done row rest hbatch op actor start plan hinventory hlistings hplanned hplan m hnone
    have hrow : row ∈ batch := hbatch ▸ List.mem_append_right _ List.mem_cons_self
    obtain ⟨item, hitem, hid, hpos, hmax, hdup⟩ := hoffered row hrow
    obtain ⟨hsame, hlisted, hbound⟩ := hplan.bound hplanned
    have hbound := hbound item.group
    have hsub : (done ++ [row]).Sublist batch := by
      rw [hbatch, ← List.singleton_append (l := rest), ← List.append_assoc]
      exact List.sublist_append_left _ _
    have hlt := asked_lt (done ++ [row]) hload (hdistinct.sublist (hsub.map _))
      (fun other hother => hoffered other (hsub.mem hother)) hitem
    have hfind := findItem_of_loaded hload hitem
    rw [asked, List.total_append, List.total_cons, List.total_nil, ← hid, hfind, Option.map_some,
      if_pos rfl, ← asked] at hlt
    rw [hinventory] at hsame hbound
    refine ⟨item.toItem, ?_⟩
    unfold Market.planRow
    dsimp only
    rw [hnone, hsame, hlisted, hlistings,
      sellable_of_offered hload hitem hid hpos hmax hdup (hone row hrow hitem hid)]
    dsimp only
    rw [if_neg (by simp [isListed]), if_neg (by omega)]

end Accepted

end SteamBee.Inventory
