import SteamBee.Inventory.Market
import SteamBee.Inventory.Snapshot

/-! What holds of every inventory that the service accepts: its assets are distinct, a variant
is a group, and of each group one copy is not counted as a duplicate. -/
namespace SteamBee.Inventory
variable {pages : ℕ → InventoryPage} {descriptions : Table String SteamDescription}
  {assets rest : List SteamAsset} {asset : SteamAsset} {items : List LoadedItem}
  {item item' : LoadedItem} {kept : List String} {group : String}

/-! ## The pages -/

/-- What the pages bring: distinct assets, and not too many. -/
structure Collected (assets : List SteamAsset) : Prop where
  distinct : (assets.map fun asset => asset.assetId).Nodup
  size : assets.length ≤ maxInventoryItems

theorem collected_nil : Collected [] := ⟨List.nodup_nil, Nat.zero_le _⟩

theorem addAssets_collected {found : List SteamAsset} (hassets : Collected assets)
    (h : addAssets assets rest = .ok found) : Collected found := by
  induction rest generalizing assets with
  | nil =>
    obtain rfl := Except.ok.inj h
    exact hassets
  | cons asset rest ih =>
    unfold addAssets at h
    dsimp only at h
    split_ifs at h with _ _ hlarge
    apply ih ⟨?_, Nat.not_lt.mp hlarge⟩ h
    exact List.nodup_upsert hassets.distinct (fun _ _ => rfl) rfl

theorem addPage_collected {read read' : InventoryRead} {page : InventoryPage}
    (hread : Collected read.assets) (h : addPage read page = .ok read') :
    Collected read'.assets := by
  unfold addPage at h
  split_ifs at h
  cases hdescriptions : addDescriptions read.descriptions page.descriptions with
  | error e => rw [hdescriptions] at h; cases h
  | ok descriptions =>
    cases hassets : addAssets read.assets (page.assets.getD []) with
    | error e => rw [hdescriptions, hassets] at h; cases h
    | ok assets =>
      rw [hdescriptions, hassets] at h
      obtain rfl := Except.ok.inj h
      exact addAssets_collected hread hassets

/-- By induction on the pages that may still be asked for. -/
theorem readPages_collected {remaining : ℕ} {read read' : InventoryRead}
    (hread : Collected read.assets) (h : readPages pages read remaining = .ok read') :
    Collected read'.assets := by
  induction remaining generalizing read with
  | zero => cases h
  | succ remaining ih =>
    unfold readPages at h
    dsimp only at h
    split at h
    next => cases h
    next found hpage =>
      have hfound := addPage_collected hread hpage
      split_ifs at h
      · obtain rfl := Except.ok.inj h
        exact hfound
      · apply ih ?_ h
        exact hfound

/-! ## The assets -/

structure LoadedFrom (item : LoadedItem) (asset : SteamAsset) (isKept : Bool) : Prop where
  assetId : item.assetId = asset.assetId
  variantId : item.variantId = "753:6:" ++ asset.classId ++ ":" ++ asset.instanceId.getD "0"
  group : item.group = groupOf asset.classId (asset.instanceId.getD "0")
  classId : isId asset.classId = true
  instanceId : isInstanceId (asset.instanceId.getD "0") = true
  positive : 0 < item.quantity
  duplicates : item.duplicateQuantity = item.quantity - if isKept then 0 else 1

theorem loadItems_cons (h : loadItems descriptions kept (asset :: rest) = .ok items) :
    ∃ item others, items = item :: others ∧ LoadedFrom item asset (kept.contains item.group) ∧
      loadItems descriptions (item.group :: kept) rest = .ok others := by
  unfold loadItems at h
  dsimp only at h
  split_ifs at h with hclass hinstance
  split at h
  next => cases h
  next item hitem =>
    split at h
    next => cases h
    next others hothers =>
      obtain rfl := Except.ok.inj h
      unfold loadItem at hitem
      split at hitem
      next => cases hitem
      next description _ =>
        rw [ite_eq_iff, ite_eq_iff] at hitem
        obtain ⟨-, hitem⟩ | ⟨-, ⟨-, hitem⟩ | ⟨hsmall, hitem⟩⟩ := hitem
        · cases hitem
        · cases hitem
        obtain rfl := Except.ok.inj hitem
        refine ⟨_, others, rfl, ?_, hothers⟩
        constructor
        case assetId => rfl
        case variantId => rfl
        case group => rfl
        case classId => simpa using hclass
        case instanceId => simpa using hinstance
        case positive => exact Nat.not_lt.mp hsmall
        case duplicates => rfl

/-- By induction on the assets. -/
theorem loadItems_assetIds (h : loadItems descriptions kept assets = .ok items) :
    (items.map fun item => item.assetId) = assets.map fun asset => asset.assetId := by
  induction assets generalizing kept items with
  | nil =>
    obtain rfl := Except.ok.inj h
    rfl
  | cons asset rest ih =>
    obtain ⟨item, others, rfl, hitem, hothers⟩ := loadItems_cons h
    rw [List.map_cons, List.map_cons, hitem.assetId, ih hothers]

theorem loadItems_mem (h : loadItems descriptions kept assets = .ok items) (hitem : item ∈ items) :
    ∃ asset ∈ assets, ∃ isKept, LoadedFrom item asset isKept := by
  induction assets generalizing kept items with
  | nil =>
    obtain rfl := Except.ok.inj h
    cases hitem
  | cons asset rest ih =>
    obtain ⟨first, others, rfl, hfirst, hothers⟩ := loadItems_cons h
    rcases List.mem_cons.mp hitem with rfl | hitem
    · exact ⟨asset, List.mem_cons_self, _, hfirst⟩
    · obtain ⟨found, hfound, hfrom⟩ := ih hothers hitem
      exact ⟨found, List.mem_cons_of_mem _ hfound, hfrom⟩

/-- A group of which a copy is kept already offers all the others. By induction on the assets. -/
theorem loadItems_total_kept (h : loadItems descriptions kept assets = .ok items)
    (hkept : group ∈ kept) :
    (items.filter fun item => item.group == group).total (fun item => item.duplicateQuantity) =
      (items.filter fun item => item.group == group).total fun item => item.quantity := by
  induction assets generalizing kept items with
  | nil =>
    obtain rfl := Except.ok.inj h
    rfl
  | cons asset rest ih =>
    obtain ⟨item, others, rfl, hitem, hothers⟩ := loadItems_cons h
    have hrest := ih hothers (List.mem_cons_of_mem _ hkept)
    by_cases hgroup : item.group = group
    · have hdup := hitem.duplicates
      rw [hgroup, List.contains_iff_mem.mpr hkept] at hdup
      simp only [List.filter_cons, hgroup, BEq.rfl, ↓reduceIte, List.total_cons, hrest, hdup,
        Nat.sub_zero]
    · simp only [List.filter_cons, beq_iff_eq, hgroup, ↓reduceIte, hrest]

/-- Of a group that is met for the first time one copy is kept back. By induction on the
assets, up to the first one of the group. -/
theorem loadItems_total (h : loadItems descriptions kept assets = .ok items)
    (hkept : group ∉ kept) (hitem : item ∈ items) (hgroup : item.group = group) :
    (items.filter fun item => item.group == group).total (fun item => item.duplicateQuantity) + 1 =
      (items.filter fun item => item.group == group).total fun item => item.quantity := by
  induction assets generalizing kept items with
  | nil =>
    obtain rfl := Except.ok.inj h
    cases hitem
  | cons asset rest ih =>
    obtain ⟨first, others, rfl, hfirst, hothers⟩ := loadItems_cons h
    by_cases hsame : first.group = group
    · have hrest := loadItems_total_kept hothers (List.mem_cons.mpr (.inl hsame.symm))
      have hdup := hfirst.duplicates
      have hpos := hfirst.positive
      have hnew : kept.contains group = false := by simpa using hkept
      rw [hsame, hnew] at hdup
      simp only [List.filter_cons, hsame, BEq.rfl, ↓reduceIte, List.total_cons, hrest]
      simp only [Bool.false_eq_true, ↓reduceIte] at hdup
      omega
    · have hmem : item ∈ others := by
        rcases List.mem_cons.mp hitem with rfl | hitem
        · exact absurd hgroup hsame
        · exact hitem
      have hrest := ih hothers (by simp [Ne.symm hsame, hkept]) hmem
      simp only [List.filter_cons, beq_iff_eq, hsame, ↓reduceIte]
      exact hrest

/-! ## The inventory -/

theorem loadInventory_items (h : loadInventory pages = .ok items) :
    ∃ descriptions assets, Collected assets ∧ loadItems descriptions [] assets = .ok items := by
  unfold loadInventory at h
  split at h
  next => cases h
  next read hread =>
    split_ifs at h
    exact ⟨read.descriptions, read.assets, readPages_collected collected_nil hread, h⟩

theorem assetIds_nodup (h : loadInventory pages = .ok items) :
    (items.map fun item => item.assetId).Nodup := by
  obtain ⟨descriptions, assets, hcollected, hitems⟩ := loadInventory_items h
  rw [loadItems_assetIds hitems]
  exact hcollected.distinct

theorem length_le_maxInventoryItems (h : loadInventory pages = .ok items) :
    items.length ≤ maxInventoryItems := by
  obtain ⟨descriptions, assets, hcollected, hitems⟩ := loadInventory_items h
  have hlength := congrArg List.length (loadItems_assetIds hitems)
  rw [List.length_map, List.length_map] at hlength
  exact hlength.trans_le hcollected.size

/-- An inventory that the service accepts is complete. -/
theorem isComplete_of_loadInventory (h : loadInventory pages = .ok items) :
    Market.isComplete (items.map LoadedItem.toItem) = true := by
  obtain ⟨descriptions, assets, -, hitems⟩ := loadInventory_items h
  simp only [Market.isComplete, List.map_map, Bool.and_eq_true, decide_eq_true_eq, List.all_map,
    List.all_eq_true, Function.comp_apply]
  refine ⟨assetIds_nodup h, fun item hitem => ?_⟩
  obtain ⟨asset, -, isKept, hfrom⟩ := loadItems_mem hitems hitem
  exact hfrom.positive

/-- The server keeps one copy of each group, as its own count of the group shows. -/
theorem total_duplicates (h : loadInventory pages = .ok items) (hitem : item ∈ items) :
    (items.filter fun other => other.group == item.group).total
        (fun other => other.duplicateQuantity) + 1 =
      groupQuantity ∅ (items.map LoadedItem.toItem) item.group := by
  obtain ⟨descriptions, assets, -, hitems⟩ := loadInventory_items h
  rw [loadItems_total hitems (List.not_mem_nil) hitem rfl, groupQuantity, List.filter_map,
    List.total_map]
  exact List.total_congr fun other _ => by simp [freeQuantity]

/-! ## Variants and groups -/

theorem isId_digits {s : String} (h : isId s = true) : ∀ c ∈ s.toList, c.isDigit = true := by
  unfold isId at h
  split at h
  next => cases h
  next c cs heq =>
    simp only [Bool.and_eq_true, bne_iff_ne, ne_eq, List.all_eq_true, decide_eq_true_eq] at h
    rw [heq]
    intro d hd
    rcases List.mem_cons.mp hd with rfl | hd
    · exact h.1.1.1
    · exact h.1.2 d hd

theorem isInstanceId_digits {s : String} (h : isInstanceId s = true) :
    ∀ c ∈ s.toList, c.isDigit = true := by
  rcases Bool.or_eq_true_iff.mp h with hzero | hid
  · intro c hc
    have hc : c = '0' := by simpa [beq_iff_eq.mp hzero] using hc
    rw [hc]
    rfl
  · exact isId_digits hid

/-- The class and the instance can be read back when something else than a digit stands
between them. -/
theorem separated_inj (separator : Char) (hsep : separator.isDigit = false)
    {x x' y y' : String} (hx : ∀ c ∈ x.toList, c.isDigit = true)
    (hy : ∀ c ∈ y.toList, c.isDigit = true) :
    x ++ String.singleton separator ++ y = x' ++ String.singleton separator ++ y' ↔
      x = x' ∧ y = y' := by
  have hnot {s : String} (hs : ∀ c ∈ s.toList, c.isDigit = true) : separator ∉ s.toList := by
    intro hmem
    rw [hs separator hmem] at hsep
    cases hsep
  constructor
  · intro h
    have hlist := congrArg String.toList h
    simp only [String.toList_append, String.toList_singleton, List.append_assoc,
      List.singleton_append] at hlist
    obtain ⟨hxs, -, hys⟩ := (List.append_cons_inj_of_notMem (hnot hx) (hnot hy)).mp hlist
    exact ⟨String.toList_injective hxs, String.toList_injective hys⟩
  · rintro ⟨rfl, rfl⟩
    rfl

/-- The items of a group are those of a variant. -/
theorem variantId_eq_iff (h : loadInventory pages = .ok items) (hitem : item ∈ items)
    (hitem' : item' ∈ items) : item.variantId = item'.variantId ↔ item.group = item'.group := by
  obtain ⟨descriptions, assets, -, hitems⟩ := loadInventory_items h
  obtain ⟨asset, -, isKept, hfrom⟩ := loadItems_mem hitems hitem
  obtain ⟨asset', -, isKept', hfrom'⟩ := loadItems_mem hitems hitem'
  have hclass := isId_digits hfrom.classId
  have hinstance := isInstanceId_digits hfrom.instanceId
  have hgroup : item.group = item'.group ↔ asset.classId = asset'.classId ∧
      asset.instanceId.getD "0" = asset'.instanceId.getD "0" := by
    rw [hfrom.group, hfrom'.group]
    exact separated_inj '_' rfl hclass hinstance
  have hprefix (x y : String) : "753:6:" ++ x ++ ":" ++ y = "753:6:" ++ (x ++ ":" ++ y) := by
    rw [String.append_assoc, String.append_assoc, String.append_assoc]
  rw [hgroup, hfrom.variantId, hfrom'.variantId, hprefix, hprefix, String.append_right_inj]
  exact separated_inj ':' rfl hclass hinstance

end SteamBee.Inventory
