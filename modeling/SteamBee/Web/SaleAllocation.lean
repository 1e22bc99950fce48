import Mathlib.Data.List.Induction
import SteamBee.Inventory.PlannedBatch
import SteamBee.Web.InventoryModel

/-! The rows into which the web client spreads the sales of a basket are accepted by the
service, in whatever order they arrive. -/
namespace SteamBee.Web
open Inventory
variable {collate : String → String → Ordering} {items assets : List InventoryItem}
  {variants : List InventoryVariant} {variant : InventoryVariant} {quantity : ℕ}
  {rows : List InventorySaleAllocation} {row : InventorySaleAllocation}

/-! ## The variants -/

structure VariantOf (items : List InventoryItem) (variant : InventoryVariant) : Prop where
  assets : variant.assets = items.filter fun item => variantIdOf item == variant.variantId
  capacity : variant.saleCapacity =
    variant.assets.total fun asset => min (sellableAssetQuantity asset) 100

/-- By induction on the items, from the last. -/
theorem variantOf_foldl (items : List InventoryItem) :
    (∀ variant ∈ items.foldl addItem [], VariantOf items variant) ∧
    ∀ item ∈ items, variantIdOf item ∈
      (items.foldl addItem []).map fun variant => variant.variantId := by
  induction items using List.reverseRecOn with
  | nil => exact ⟨fun _ h => (by cases h), fun _ h => (by cases h)⟩
  | append_singleton items item ih =>
    obtain ⟨hvariants, hknown⟩ := ih
    rw [List.foldl_append, List.foldl_cons, List.foldl_nil]
    constructor
    · intro variant hvariant
      rcases List.mem_upsert hvariant with ⟨hold, hne⟩ | ⟨old, hold, hkey, rfl⟩ | ⟨hnew, rfl⟩
      · have hof := hvariants variant hold
        constructor
        case assets =>
          have hskip : (variantIdOf item == variant.variantId) = false := by
            simpa using Ne.symm hne
          rw [hof.assets, List.filter_append, List.filter_singleton, hskip]
          exact (List.append_nil _).symm
        case capacity => exact hof.capacity
      · have hof := hvariants old hold
        constructor
        case assets =>
          show old.assets ++ [item] = _
          rw [hof.assets, List.filter_append, List.filter_singleton]
          simp [InventoryVariant.add, hkey]
        case capacity =>
          show old.saleCapacity + _ = (old.assets ++ [item]).total _
          rw [hof.capacity, List.total_append, List.total_cons, List.total_nil]
          rfl
      · constructor
        case assets =>
          have hnone : (items.filter fun other => variantIdOf other == variantIdOf item) = [] := by
            refine List.filter_eq_nil_iff.mpr fun other hother heq => hnew ?_
            exact beq_iff_eq.mp heq ▸ hknown other hother
          show [item] = _
          rw [List.filter_append]
          simp [InventoryVariant.of, hnone]
        case capacity => simp [InventoryVariant.of]
    · intro other hother
      have hkeep (variant : InventoryVariant) (h : variant.variantId = variantIdOf item) :
          (InventoryVariant.add item variant).variantId = variantIdOf item := h
      have hfresh : (InventoryVariant.of item).variantId = variantIdOf item := rfl
      rw [addItem, List.map_key_upsert hkeep hfresh]
      rcases List.mem_append.mp hother with hother | hother
      · have hmem := hknown other hother
        split_ifs
        · exact hmem
        · exact List.mem_append_left _ hmem
      · rw [List.mem_singleton.mp hother]
        split_ifs with h
        · exact h
        · exact List.mem_append_right _ (List.mem_singleton_self _)

theorem variantOf_of_mem (h : variant ∈ buildInventoryVariants items) : VariantOf items variant :=
  (variantOf_foldl items).1 variant h

theorem VariantOf.saleCapacity_le_length (h : VariantOf items variant) :
    variant.saleCapacity ≤ items.length * 100 := by
  have hcapacity : variant.saleCapacity ≤ variant.assets.length * 100 := by
    rw [h.capacity]
    exact List.total_le fun asset _ => min_le_right _ _
  have hlength : variant.assets.length ≤ items.length := by
    rw [h.assets]
    exact List.length_filter_le _ _
  omega

/-- Each variant has an identifier of its own. By induction on the items, from the last. -/
theorem variantIds_nodup (items : List InventoryItem) :
    ((buildInventoryVariants items).map fun variant => variant.variantId).Nodup := by
  unfold buildInventoryVariants
  induction items using List.reverseRecOn with
  | nil => exact List.nodup_nil
  | append_singleton items item ih =>
    rw [List.foldl_append, List.foldl_cons, List.foldl_nil]
    exact List.nodup_upsert ih (fun _ h => h) rfl

/-! ## One variant -/

/-- By induction on the assets. -/
theorem allocate_total
    (h : quantity ≤ assets.total fun asset => min (sellableAssetQuantity asset) 100) :
    (allocate quantity assets).total (fun row => row.quantity) = quantity := by
  induction assets generalizing quantity with
  | nil =>
    rw [List.total_nil] at h
    rw [Nat.le_zero.mp h]
    rfl
  | cons asset assets ih =>
    rw [List.total_cons] at h
    unfold allocate
    dsimp only
    split_ifs with hdone hsome hsome
    · rw [List.total_cons, List.total_nil]
      dsimp only
      omega
    · rw [List.total_nil]
      omega
    · rw [List.total_append, List.total_cons, List.total_nil, ih (by omega)]
      dsimp only
      omega
    · rw [List.total_append, List.total_nil, ih (by omega)]
      omega

theorem allocate_sublist (quantity : ℕ) (assets : List InventoryItem) :
    ((allocate quantity assets).map fun row => row.assetId).Sublist
      (assets.map fun asset => asset.assetId) := by
  induction assets generalizing quantity with
  | nil => exact .slnil
  | cons asset assets ih =>
    unfold allocate
    dsimp only
    rw [List.map_cons]
    split_ifs
    · exact (List.nil_sublist _).cons_cons _
    · exact List.nil_sublist _
    · exact (ih _).cons_cons _
    · exact (ih _).cons _

theorem allocate_mem (h : row ∈ allocate quantity assets) : ∃ asset ∈ assets,
    asset.assetId = row.assetId ∧ 0 < row.quantity ∧ row.quantity ≤ 100 ∧
      row.quantity ≤ sellableAssetQuantity asset := by
  induction assets generalizing quantity with
  | nil => cases h
  | cons asset assets ih =>
    have htail (h : row ∈ allocate (quantity - min (min quantity (sellableAssetQuantity asset)) 100)
        assets) : ∃ other ∈ asset :: assets, other.assetId = row.assetId ∧ 0 < row.quantity ∧
          row.quantity ≤ 100 ∧ row.quantity ≤ sellableAssetQuantity other := by
      obtain ⟨other, hother, hrow⟩ := ih h
      exact ⟨other, List.mem_cons_of_mem _ hother, hrow⟩
    have hhead (hpos : 0 < min (min quantity (sellableAssetQuantity asset)) 100)
        (h : row ∈ [(⟨asset.assetId, min (min quantity (sellableAssetQuantity asset)) 100⟩ :
          InventorySaleAllocation)]) : ∃ other ∈ asset :: assets, other.assetId = row.assetId ∧
          0 < row.quantity ∧ row.quantity ≤ 100 ∧ row.quantity ≤ sellableAssetQuantity other := by
      rw [List.mem_singleton.mp h]
      refine ⟨asset, List.mem_cons_self, rfl, hpos, ?_, ?_⟩
      · exact min_le_right _ _
      · exact (min_le_left _ _).trans (min_le_right _ _)
    unfold allocate at h
    dsimp only at h
    split_ifs at h with hdone hsome hsome
    · exact hhead hsome h
    · cases h
    · rcases List.mem_append.mp h with h | h
      · exact hhead hsome h
      · exact htail h
    · exact htail h

structure SoundAllocation (variant : InventoryVariant) (quantity : ℕ)
    (rows : List InventorySaleAllocation) : Prop where
  distinct : (rows.map fun row => row.assetId).Nodup
  sum : rows.total (fun row => row.quantity) = quantity
  offered : ∀ row ∈ rows, ∃ asset ∈ variant.assets, asset.assetId = row.assetId ∧
    0 < row.quantity ∧ row.quantity ≤ 100 ∧ row.quantity ≤ asset.duplicateQuantity ∧
      asset.marketable = true

theorem sellable_le (asset : InventoryItem) :
    sellableAssetQuantity asset ≤ asset.duplicateQuantity := by
  unfold sellableAssetQuantity
  split_ifs
  · exact Nat.zero_le _
  · exact min_le_right _ _

theorem marketable_of_sellable {asset : InventoryItem} (h : 0 < sellableAssetQuantity asset) :
    asset.marketable = true := by
  unfold sellableAssetQuantity at h
  split_ifs at h with hno
  · exact absurd h (lt_irrefl 0)
  · simp only [Bool.or_eq_true, not_or, Bool.not_eq_true', Bool.not_eq_false] at hno
    exact hno.1.1.1.1

theorem allocateVariantSale_eq (collate : String → String → Ordering)
    (h : VariantOf items variant) (hpos : 0 < quantity) (hsafe : quantity ≤ maxSafeAmount)
    (hle : quantity ≤ variant.saleCapacity) :
    allocateVariantSale collate variant quantity =
      .ok (allocate quantity (variant.assets.insertionSort fun left right =>
        compareAssetIds collate left right ≠ .gt)) := by
  have hperm := List.perm_insertionSort
    (fun left right => compareAssetIds collate left right ≠ .gt) variant.assets
  have hok : ¬ (maxSafeAmount < quantity ∨ quantity = 0) := by omega
  rw [h.capacity, ← hperm.total_eq] at hle
  rw [allocateVariantSale, if_neg hok]
  dsimp only
  rw [if_neg (Nat.not_lt.mpr hle)]

/-- Up to its capacity the sale of a variant can be spread over its assets. -/
theorem allocateVariantSale_sound (h : VariantOf items variant)
    (hnodup : (items.map fun item => item.assetId).Nodup) (hpos : 0 < quantity)
    (hsafe : quantity ≤ maxSafeAmount) (hle : quantity ≤ variant.saleCapacity) :
    ∃ rows, allocateVariantSale collate variant quantity = .ok rows ∧
      SoundAllocation variant quantity rows := by
  have hperm := List.perm_insertionSort
    (fun left right => compareAssetIds collate left right ≠ .gt) variant.assets
  refine ⟨_, allocateVariantSale_eq collate h hpos hsafe hle, ?_⟩
  rw [h.capacity, ← hperm.total_eq] at hle
  constructor
  case distinct =>
    apply List.Nodup.sublist (allocate_sublist _ _)
    rw [(hperm.map fun asset => asset.assetId).nodup_iff, h.assets]
    exact hnodup.sublist (List.filter_sublist.map _)
  case sum => exact allocate_total hle
  case offered =>
    intro row hrow
    obtain ⟨asset, hasset, hid, hrowPos, hmax, hsellable⟩ := allocate_mem hrow
    refine ⟨asset, hperm.mem_iff.mp hasset, hid, hrowPos, hmax, ?_, ?_⟩
    · exact hsellable.trans (sellable_le asset)
    · exact marketable_of_sellable (hrowPos.trans_le hsellable)

/-! ## The basket -/

/-- What is asked of the entries of a basket: distinct variants of the snapshot, and no
quantity above the capacity. -/
structure IsBasket (loaded : List LoadedItem) (entries : List (InventoryVariant × ℕ)) : Prop where
  variants : ∀ entry ∈ entries,
    entry.1 ∈ buildInventoryVariants (loaded.map LoadedItem.snapshot)
  quantities : ∀ entry ∈ entries, 0 < entry.2 ∧ entry.2 ≤ entry.1.saleCapacity
  distinct : (entries.map fun entry => entry.1.variantId).Nodup

section Loaded
variable {pages : ℕ → InventoryPage} {loaded : List LoadedItem}
  {entries : List (InventoryVariant × ℕ)}

theorem snapshot_assetIds (loaded : List LoadedItem) :
    ((loaded.map LoadedItem.snapshot).map fun item => item.assetId) =
      loaded.map fun item => item.assetId := by
  rw [List.map_map]
  rfl

theorem saleCapacity_le (h : loadInventory pages = .ok loaded)
    (hvariant : VariantOf (loaded.map LoadedItem.snapshot) variant) :
    variant.saleCapacity ≤ maxSafeAmount := by
  have hcapacity := hvariant.saleCapacity_le_length
  have hmax := length_le_maxInventoryItems h
  rw [List.length_map] at hcapacity
  simp only [maxInventoryItems, maxSafeAmount] at hmax ⊢
  omega

theorem IsBasket.sound (h : IsBasket loaded entries) (collate : String → String → Ordering)
    (hload : loadInventory pages = .ok loaded)
    {entry : InventoryVariant × ℕ} (hentry : entry ∈ entries) :
    ∃ rows, allocateVariantSale collate entry.1 entry.2 = .ok rows ∧
      SoundAllocation entry.1 entry.2 rows := by
  have hvariant := variantOf_of_mem (h.variants entry hentry)
  obtain ⟨hpos, hle⟩ := h.quantities entry hentry
  apply allocateVariantSale_sound hvariant ?_ hpos (hle.trans (saleCapacity_le hload hvariant)) hle
  rw [snapshot_assetIds]
  exact assetIds_nodup hload

theorem SoundAllocation.offered_of (h : SoundAllocation variant quantity rows)
    (hvariant : VariantOf (loaded.map LoadedItem.snapshot) variant) (hrow : row ∈ rows) :
    ∃ item ∈ loaded, variantIdOf item.snapshot = variant.variantId ∧ item.assetId = row.assetId ∧
      0 < row.quantity ∧ row.quantity ≤ 100 ∧ row.quantity ≤ item.duplicateQuantity := by
  obtain ⟨asset, hasset, hid, hpos, hmax, hdup, -⟩ := h.offered row hrow
  rw [hvariant.assets] at hasset
  obtain ⟨hasset, hkey⟩ := List.mem_filter.mp hasset
  obtain ⟨item, hitem, rfl⟩ := List.mem_map.mp hasset
  exact ⟨item, hitem, beq_iff_eq.mp hkey, hid, hpos, hmax, hdup⟩

/-- The rows of a basket offer distinct assets. By induction on its entries: two variants have
no asset in common. -/
theorem basketAllocations_ok (collate : String → String → Ordering)
    (hload : loadInventory pages = .ok loaded)
    (h : IsBasket loaded entries) : ∃ rows, basketAllocations collate entries = .ok rows ∧
      (rows.map fun row => row.assetId).Nodup ∧
      ∀ row ∈ rows, OfferedRow loaded (row.assetId, row.quantity) ∧
        ∃ item ∈ loaded, item.assetId = row.assetId ∧
        variantIdOf item.snapshot ∈ entries.map fun entry => entry.1.variantId := by
  induction entries with
  | nil => exact ⟨[], rfl, List.nodup_nil, fun row hrow => (by cases hrow)⟩
  | cons entry entries ih =>
    have hrest : IsBasket loaded entries := by
      constructor
      case variants => exact fun other hother => h.variants other (List.mem_cons_of_mem _ hother)
      case quantities =>
        exact fun other hother => h.quantities other (List.mem_cons_of_mem _ hother)
      case distinct => exact (List.nodup_cons.mp h.distinct).2
    obtain ⟨others, hothers, hnodup, hfrom⟩ := ih hrest
    obtain ⟨rows, hrows, hsound⟩ := h.sound collate hload List.mem_cons_self
    have hvariant := variantOf_of_mem (h.variants entry List.mem_cons_self)
    refine ⟨rows ++ others, ?_, ?_, ?_⟩
    · rw [basketAllocations, hrows, hothers]
    · rw [List.map_append, List.nodup_append]
      refine ⟨hsound.distinct, hnodup, ?_⟩
      intro id hid other hother
      obtain ⟨row, hrow, rfl⟩ := List.mem_map.mp hid
      obtain ⟨row', hrow', rfl⟩ := List.mem_map.mp hother
      intro hsame
      obtain ⟨item, hitem, hkey, hid, -⟩ := hsound.offered_of hvariant hrow
      obtain ⟨-, item', hitem', hid', hkey'⟩ := hfrom row' hrow'
      have heq : item = item' := by
        apply List.inj_on_of_nodup_map (assetIds_nodup hload) hitem hitem'
        exact hid.trans (hsame.trans hid'.symm)
      rw [← heq, hkey] at hkey'
      exact (List.nodup_cons.mp h.distinct).1 hkey'
    · intro row hrow
      rcases List.mem_append.mp hrow with hrow | hrow
      · obtain ⟨item, hitem, hkey, hid, hbounds⟩ := hsound.offered_of hvariant hrow
        refine ⟨⟨item, hitem, hid, hbounds⟩, item, hitem, hid, ?_⟩
        rw [hkey]
        exact List.mem_cons_self
      · obtain ⟨hoffered, item, hitem, hid, hkey⟩ := hfrom row hrow
        exact ⟨hoffered, item, hitem, hid, List.mem_cons_of_mem _ hkey⟩

/-- What the client makes of a basket, and what the service makes of that. -/
structure AcceptedBasket (collate : String → String → Ordering) (loaded : List LoadedItem)
    (entries : List (InventoryVariant × ℕ)) : Prop where
  allocations : ∀ entry ∈ entries, ∃ rows,
    allocateVariantSale collate entry.1 entry.2 = .ok rows ∧ SoundAllocation entry.1 entry.2 rows
  accepted : ∃ rows, basketAllocations collate entries = .ok rows ∧
    ∀ batch, batch.Perm (rows.map fun row => (row.assetId, row.quantity)) →
      AcceptedBatch (loaded.map LoadedItem.toItem) batch

theorem basket_accepted (hload : loadInventory pages = .ok loaded) (h : IsBasket loaded entries)
    (collate : String → String → Ordering) : AcceptedBasket collate loaded entries := by
  constructor
  case allocations => exact fun entry hentry => h.sound collate hload hentry
  case accepted =>
    obtain ⟨rows, hrows, hnodup, hoffered⟩ := basketAllocations_ok collate hload h
    refine ⟨rows, hrows, fun batch hbatch => ?_⟩
    apply acceptedBatch_of_offered hload
    · rw [(hbatch.map Prod.fst).nodup_iff, List.map_map]
      exact hnodup
    · intro row hrow
      obtain ⟨allocation, hallocation, rfl⟩ := List.mem_map.mp (hbatch.mem_iff.mp hrow)
      exact (hoffered allocation hallocation).1

end Loaded

/-- Two stacks of a card, and three copies of a background. -/
def twoVariants : InventoryPage where
  success := true
  totalInventoryCount := 3
  assets := some [⟨753, "6", "12", "7", none, 150⟩, ⟨753, "6", "31", "8", some "2", 3⟩,
    ⟨753, "6", "5", "7", some "0", 30⟩]
  descriptions := [("7", none, card), ("8", some "2", card)]
  moreItems := false
  lastAssetId := "31"
where
  card : SteamDescription :=
    ⟨some "Bee", some "1-Bee", some "Card", none, true, true, some 1, none, none, none⟩

def twoVariantItems : List LoadedItem :=
  ((loadInventory fun _ => twoVariants).toOption).getD []

def fullBasket : List (InventoryVariant × ℕ) :=
  (buildInventoryVariants (twoVariantItems.map LoadedItem.snapshot)).map fun variant =>
    (variant, variant.saleCapacity)

theorem basket_accepted_fullBasket : AcceptedBasket (fun _ _ => .eq) twoVariantItems fullBasket ∧
    ((basketAllocations (fun _ _ => .eq) fullBasket).toOption.getD []).map
        (fun row => (row.assetId, row.quantity)) = [("5", 30), ("12", 100), ("31", 2)] := by
  have hload : loadInventory (fun _ => twoVariants) = .ok twoVariantItems := by decide +kernel
  have hbasket : IsBasket twoVariantItems fullBasket := by
    constructor
    case variants => decide +kernel
    case quantities => decide +kernel
    case distinct => decide +kernel
  exact ⟨basket_accepted hload hbasket _, by decide +kernel⟩

end SteamBee.Web
