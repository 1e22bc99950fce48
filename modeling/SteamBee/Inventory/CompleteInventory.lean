import SteamBee.Inventory.InventoryPages

/-! An inventory is complete or an error: what the loop over the pages keeps, and what the
responses have in common with the pages of the snapshot. -/
namespace SteamBee.Inventory.Responses
open Text SteamData

variable {steamId : String} {outcomes : Outcomes} {scan scan' : Scan} {data : Fields}
  {assets assets' : List (AssetId × Fields)} {raws : List Json} {key : String}
  {descriptions descriptions' : Table String Fields} {description : Fields} {count remaining : ℕ}
  {paths : List String} {items : List LoadedItem} {item : LoadedItem} {kept : List String}
  {typed : Table String SteamDescription} {read : InventoryRead}

/-! ## What the pages have brought -/

def IsPage (outcomes : Outcomes) (count : ℕ) (data : Fields) : Prop :=
  ∃ k < count, fetch (outcomes k) = .ok data

def Names (data : Fields) (assetId : AssetId) : Prop :=
  ∃ asset, .obj asset ∈ arrayOf (get data "assets") ∧ SteamData.id (get asset "assetid") = .ok assetId

def Describes (data : Fields) (key : String) (description : Fields) : Prop :=
  .obj description ∈ arrayOf (get data "descriptions") ∧ group description = .ok key

theorem object_eq_ok {raw : Json} {fields : Fields} (h : object (some raw) = .ok fields) :
    raw = .obj fields := by
  unfold object at h
  split at h
  next found heq =>
    obtain rfl := Except.ok.inj h
    exact Option.some.inj heq
  next => cases h

theorem id_of_assetIdOf {asset : Fields} {assetId : AssetId} (h : assetIdOf asset = .ok assetId) :
    SteamData.id (get asset "assetid") = .ok assetId := by
  unfold assetIdOf at h
  obtain ⟨inside, -, h⟩ := Outcome.bind_eq_ok h
  exact (Outcome.of_guard h).2

theorem addDescriptions_cons {raw : Json}
    (h : addDescriptions descriptions (raw :: raws) = .ok descriptions') :
    ∃ description key, raw = .obj description ∧ group description = .ok key ∧
      addDescriptions (descriptions.insert key description) raws = .ok descriptions' := by
  unfold addDescriptions at h
  obtain ⟨description, hobject, h⟩ := Outcome.bind_eq_ok h
  obtain ⟨key, hkey, h⟩ := Outcome.bind_eq_ok h
  exact ⟨description, key, object_eq_ok hobject, hkey, h⟩

/-- By induction on the descriptions of the page. -/
theorem addDescriptions_lookup (h : addDescriptions descriptions raws = .ok descriptions')
    (hfound : descriptions'.lookup key = some description) :
    descriptions.lookup key = some description ∨
      .obj description ∈ raws ∧ group description = .ok key := by
  induction raws generalizing descriptions with
  | nil =>
    obtain rfl := Except.ok.inj h
    exact .inl hfound
  | cons raw raws ih =>
    obtain ⟨first, firstKey, rfl, hkey, h⟩ := addDescriptions_cons h
    rcases ih h with hbefore | ⟨hmem, hgroup⟩
    · rw [Table.lookup_insert_eq] at hbefore
      split_ifs at hbefore with hsame
      · obtain rfl := Option.some.inj hbefore
        rw [hsame]
        exact .inr ⟨List.mem_cons_self, hkey⟩
      · exact .inl hbefore
    · exact .inr ⟨List.mem_cons_of_mem _ hmem, hgroup⟩

theorem addAssets_cons {raw : Json} (h : addAssets assets (raw :: raws) = .ok assets') :
    ∃ assetId asset, raw = .obj asset ∧ assetIdOf asset = .ok assetId ∧
      (assets.upsert Prod.fst assetId (fun _ => (assetId, asset)) (assetId, asset)).length ≤
        maxInventoryItems ∧
      addAssets (assets.upsert Prod.fst assetId (fun _ => (assetId, asset)) (assetId, asset)) raws =
        .ok assets' := by
  unfold addAssets at h
  obtain ⟨asset, hobject, h⟩ := Outcome.bind_eq_ok h
  obtain ⟨assetId, hassetId, h⟩ := Outcome.bind_eq_ok h
  obtain ⟨hsize, h⟩ := Outcome.of_guard h
  exact ⟨assetId, asset, object_eq_ok hobject, hassetId, Nat.not_lt.mp hsize, h⟩

/-- By induction on the assets of the page. -/
theorem addAssets_names (h : addAssets assets raws = .ok assets') (assetId : AssetId) :
    assetId ∈ assets'.map Prod.fst ↔ assetId ∈ assets.map Prod.fst ∨
      ∃ asset, .obj asset ∈ raws ∧ SteamData.id (get asset "assetid") = .ok assetId := by
  induction raws generalizing assets with
  | nil =>
    obtain rfl := Except.ok.inj h
    simp
  | cons raw raws ih =>
    obtain ⟨firstId, first, rfl, hfirst, -, h⟩ := addAssets_cons h
    have hid := id_of_assetIdOf hfirst
    have hkeys : assetId ∈ (assets.upsert Prod.fst firstId (fun _ => (firstId, first))
        (firstId, first)).map Prod.fst ↔ assetId ∈ assets.map Prod.fst ∨ assetId = firstId := by
      rw [List.map_key_upsert (k := firstId) (fun _ _ => rfl) rfl]
      split_ifs with hmem
      · constructor
        · exact .inl
        · rintro (hold | rfl)
          · exact hold
          · exact hmem
      · rw [List.mem_append, List.mem_singleton]
    rw [ih h, hkeys, or_assoc]
    apply or_congr_right
    constructor
    · rintro (rfl | ⟨asset, hmem, hasset⟩)
      · exact ⟨first, List.mem_cons_self, hid⟩
      · exact ⟨asset, List.mem_cons_of_mem _ hmem, hasset⟩
    · rintro ⟨asset, hmem, hasset⟩
      rcases List.mem_cons.mp hmem with heq | hmem
      · obtain rfl := Json.obj.inj heq
        exact .inl (Except.ok.inj (hasset.symm.trans hid))
      · exact .inr ⟨asset, hmem, hasset⟩

theorem addPage_ok (h : addPage scan data = .ok scan') : ∃ total,
    success (get data "success") = true ∧
    integer (get data "total_inventory_count") maxInventoryItems = .ok total ∧
    (∀ expected, scan.expectedTotal = some expected → expected = total) ∧
    (isArray (get data "assets") = false → total = 0) ∧
    addDescriptions scan.descriptions (arrayOf (get data "descriptions")) =
      .ok scan'.descriptions ∧
    addAssets scan.assets (arrayOf (get data "assets")) = .ok scan'.assets ∧
    scan' = { scan with
      assets := scan'.assets, descriptions := scan'.descriptions, expectedTotal := some total } := by
  unfold addPage at h
  obtain ⟨hsuccess, h⟩ := Outcome.of_guard h
  obtain ⟨total, htotal, h⟩ := Outcome.bind_eq_ok h
  obtain ⟨hexpected, h⟩ := Outcome.of_guard h
  obtain ⟨harray, h⟩ := Outcome.of_guard h
  obtain ⟨descriptions, hdescriptions, h⟩ := Outcome.bind_eq_ok h
  obtain ⟨assets, hassets, h⟩ := Outcome.bind_eq_ok h
  obtain rfl := Except.ok.inj h
  refine ⟨total, by simpa using hsuccess, htotal, ?_, ?_, hdescriptions, hassets, rfl⟩
  · intro expected heq
    rw [heq] at hexpected
    simpa using hexpected
  · intro hno
    simpa [hno] using harray

structure Scanned (outcomes : Outcomes) (count : ℕ) (scan : Scan) : Prop where
  totals : ∀ k < count, ∃ data total, fetch (outcomes k) = .ok data ∧
    integer (get data "total_inventory_count") maxInventoryItems = .ok total ∧
      scan.expectedTotal = some total
  named : ∀ assetId, assetId ∈ scan.assets.map Prod.fst ↔
    ∃ data, IsPage outcomes count data ∧ Names data assetId
  described : ∀ key description, scan.descriptions.lookup key = some description →
    ∃ data, IsPage outcomes count data ∧ Describes data key description

theorem scanned_start : Scanned outcomes 0 Scan.start := by
  constructor
  case totals =>
    intro k hk
    omega
  case named =>
    intro assetId
    constructor
    · intro hmem
      cases hmem
    · rintro ⟨data, ⟨k, hk, -⟩, -⟩
      omega
  case described =>
    intro key description hfound
    cases hfound

theorem isPage_succ {page : Fields} (hfetch : fetch (outcomes count) = .ok data) :
    IsPage outcomes (count + 1) page ↔ IsPage outcomes count page ∨ page = data := by
  constructor
  · rintro ⟨k, hk, hpage⟩
    rcases Nat.lt_succ_iff_lt_or_eq.mp hk with hlt | rfl
    · exact .inl ⟨k, hlt, hpage⟩
    · exact .inr (Except.ok.inj (hpage.symm.trans hfetch))
  · rintro (⟨k, hk, hpage⟩ | rfl)
    · exact ⟨k, by omega, hpage⟩
    · exact ⟨count, Nat.lt_succ_self _, hfetch⟩

theorem Scanned.addPage (h : Scanned outcomes count scan)
    (hfetch : fetch (outcomes count) = .ok data) (hpage : addPage scan data = .ok scan') :
    Scanned outcomes (count + 1) scan' := by
  obtain ⟨total, -, htotal, hexpected, -, hdescriptions, hassets, hscan⟩ := addPage_ok hpage
  have hnew : scan'.expectedTotal = some total := by rw [hscan]
  constructor
  case totals =>
    intro k hk
    rcases Nat.lt_succ_iff_lt_or_eq.mp hk with hlt | rfl
    · obtain ⟨page, total', hfetch', htotal', hexpected'⟩ := h.totals k hlt
      obtain rfl := hexpected total' hexpected'
      exact ⟨page, total', hfetch', htotal', hnew⟩
    · exact ⟨data, total, hfetch, htotal, hnew⟩
  case named =>
    intro assetId
    rw [addAssets_names hassets, h.named]
    constructor
    · rintro (⟨page, hpage, hnames⟩ | hnames)
      · exact ⟨page, (isPage_succ hfetch).mpr (.inl hpage), hnames⟩
      · exact ⟨data, (isPage_succ hfetch).mpr (.inr rfl), hnames⟩
    · rintro ⟨page, hpage, hnames⟩
      rcases (isPage_succ hfetch).mp hpage with hold | rfl
      · exact .inl ⟨page, hold, hnames⟩
      · exact .inr hnames
  case described =>
    intro key description hfound
    rcases addDescriptions_lookup hdescriptions hfound with hold | hnew
    · obtain ⟨page, hpage, hdescribes⟩ := h.described key description hold
      exact ⟨page, (isPage_succ hfetch).mpr (.inl hpage), hdescribes⟩
    · exact ⟨data, (isPage_succ hfetch).mpr (.inr rfl), hnew⟩

theorem Scanned.advance (h : Scanned outcomes count scan) (hn : advance scan data = .ok scan') :
    Scanned outcomes count scan' := by
  unfold Responses.advance at hn
  obtain ⟨cursor, -, hn⟩ := Outcome.bind_eq_ok hn
  obtain ⟨-, hn⟩ := Outcome.of_guard hn
  obtain rfl := Except.ok.inj hn
  exact ⟨h.totals, h.named, h.described⟩

/-- One round of the loop. -/
theorem readPages_succ (h : readPages steamId outcomes scan (remaining + 1) = (paths, .ok scan')) :
    ∃ data next, fetch (outcomes (maxInventoryPages - (remaining + 1))) = .ok data ∧
      addPage scan data = .ok next ∧
      (success (get data "more_items") = false ∧ paths.length = 1 ∧ scan' = next ∨
        success (get data "more_items") = true ∧
        ∃ advanced rest, advance next data = .ok advanced ∧ paths.length = rest.length + 1 ∧
          readPages steamId outcomes advanced remaining = (rest, .ok scan')) := by
  unfold readPages at h
  dsimp only at h
  split at h
  next => cases (Prod.mk.inj h).2
  next data hfetch =>
    split at h
    next => cases (Prod.mk.inj h).2
    next next hpage =>
      refine ⟨data, next, hfetch, hpage, ?_⟩
      split_ifs at h with hmore
      · obtain ⟨rfl, hscan⟩ := Prod.mk.inj h
        exact .inl ⟨by simpa using hmore, rfl, (Except.ok.inj hscan).symm⟩
      · split at h
        next => cases (Prod.mk.inj h).2
        next advanced hadvance =>
          obtain ⟨rfl, hrest⟩ := Prod.mk.inj h
          exact .inr ⟨by simpa using hmore, advanced, _, hadvance, rfl, Prod.ext rfl hrest⟩

/-- No more pages are asked for than may be. By induction on these. -/
theorem length_readPages : (readPages steamId outcomes scan remaining).1.length ≤ remaining := by
  induction remaining generalizing scan with
  | zero => exact le_rfl
  | succ remaining ih =>
    unfold readPages
    dsimp only
    split
    · exact Nat.le_add_left 1 remaining
    · split
      · exact Nat.le_add_left 1 remaining
      · split_ifs
        · exact Nat.le_add_left 1 remaining
        · split
          · exact Nat.le_add_left 1 remaining
          · exact Nat.succ_le_succ ih

/-- By induction on the pages that may still be asked for. -/
theorem readPages_scanned (hcount : count + remaining = maxInventoryPages)
    (hscan : Scanned outcomes count scan)
    (h : readPages steamId outcomes scan remaining = (paths, .ok scan')) :
    0 < paths.length ∧ Scanned outcomes (count + paths.length) scan' := by
  induction remaining generalizing scan paths count with
  | zero => cases (Prod.mk.inj h).2
  | succ remaining ih =>
    obtain ⟨data, next, hfetch, hpage, hcases⟩ := readPages_succ h
    have hindex : maxInventoryPages - (remaining + 1) = count := by omega
    rw [hindex] at hfetch
    have hnext := hscan.addPage hfetch hpage
    rcases hcases with ⟨-, hlength, rfl⟩ | ⟨-, advanced, rest, hadvance, hlength, hrest⟩
    · rw [hlength]
      exact ⟨Nat.one_pos, hnext⟩
    · obtain ⟨-, hend⟩ := ih (by omega) (hnext.advance hadvance) hrest
      rw [hlength, Nat.add_comm rest.length 1, ← Nat.add_assoc]
      exact ⟨by omega, hend⟩

/-! ## The pages of the snapshot -/

def assetOf (entry : AssetId × Fields) : SteamAsset where
  appId := 753
  contextId := "6"
  assetId := entry.1
  classId := (SteamData.id (get entry.2 "classid")).toOption.getD ""
  instanceId := some ((instanceId (get entry.2 "instanceid")).toOption.getD "")
  amount := (integer (get entry.2 "amount") 1000000).toOption.getD 0

def namedAsset : Json → Option (AssetId × Fields)
  | .obj asset => (assetIdOf asset).toOption.map fun assetId => (assetId, asset)
  | _ => none

def describedAs : Json → Option (String × Option String × SteamDescription)
  | .obj description => do
    let classId ← (SteamData.id (get description "classid")).toOption
    let itemInstanceId ← (instanceId (get description "instanceid")).toOption
    return (classId, some itemInstanceId, descriptionOf description)
  | _ => none

/-- A response as a page, of which what is not well-formed is left out. -/
def pageOf (data : Fields) : InventoryPage where
  success := success (get data "success")
  totalInventoryCount :=
    (integer (get data "total_inventory_count") maxInventoryItems).toOption.getD 0
  assets :=
    if isArray (get data "assets") then
      some (((arrayOf (get data "assets")).filterMap namedAsset).map assetOf)
    else none
  descriptions := (arrayOf (get data "descriptions")).filterMap describedAs
  moreItems := success (get data "more_items")
  lastAssetId := (SteamData.id (get data "last_assetid")).toOption.getD ""

def pagesOf (outcomes : Outcomes) (k : ℕ) : InventoryPage :=
  pageOf ((fetch (outcomes k)).toOption.getD [])

def Mirrors (descriptions : Table String Fields) (typed : Table String SteamDescription) : Prop :=
  ∀ key, typed.lookup key = (descriptions.lookup key).map descriptionOf

theorem group_eq_ok (h : group description = .ok key) : ∃ classId itemInstanceId,
    SteamData.id (get description "classid") = .ok classId ∧
      instanceId (get description "instanceid") = .ok itemInstanceId ∧
        key = groupOf classId itemInstanceId := by
  unfold group at h
  obtain ⟨classId, hclass, h⟩ := Outcome.bind_eq_ok h
  obtain ⟨itemInstanceId, hinstance, h⟩ := Outcome.bind_eq_ok h
  exact ⟨classId, itemInstanceId, hclass, hinstance, (Except.ok.inj h).symm⟩

/-- By induction on the descriptions of the page. -/
theorem Mirrors.addDescriptions (hmirrors : Mirrors descriptions typed)
    (h : addDescriptions descriptions raws = .ok descriptions') :
    ∃ typed', Inventory.addDescriptions typed (raws.filterMap describedAs) = .ok typed' ∧
      Mirrors descriptions' typed' := by
  induction raws generalizing descriptions typed with
  | nil =>
    obtain rfl := Except.ok.inj h
    exact ⟨typed, rfl, hmirrors⟩
  | cons raw raws ih =>
    obtain ⟨description, key, rfl, hkey, h⟩ := addDescriptions_cons h
    obtain ⟨classId, itemInstanceId, hclass, hinstance, rfl⟩ := group_eq_ok hkey
    have hdescribed : describedAs (.obj description) =
        some (classId, some itemInstanceId, descriptionOf description) := by
      unfold describedAs
      dsimp only
      rw [hclass, hinstance]
      rfl
    have hinsert : Mirrors (descriptions.insert (groupOf classId itemInstanceId) description)
        (typed.insert (groupOf classId itemInstanceId) (descriptionOf description)) := by
      intro key
      rw [Table.lookup_insert_eq, Table.lookup_insert_eq]
      split_ifs
      · rfl
      · exact hmirrors key
    rw [List.filterMap_cons_some hdescribed]
    unfold Inventory.addDescriptions
    rw [if_neg (by simp [isId_of_id hclass]), Option.getD_some,
      if_neg (by simp [isInstanceId_of_instanceId hinstance])]
    exact ih hinsert h

/-- By induction on the assets of the page. -/
theorem addAssets_typed (h : addAssets assets raws = .ok assets') :
    Inventory.addAssets (assets.map assetOf) ((raws.filterMap namedAsset).map assetOf) =
      .ok (assets'.map assetOf) := by
  induction raws generalizing assets with
  | nil =>
    obtain rfl := Except.ok.inj h
    rfl
  | cons raw raws ih =>
    obtain ⟨assetId, asset, rfl, hassetId, hsize, h⟩ := addAssets_cons h
    have hnamed : namedAsset (.obj asset) = some (assetId, asset) := by
      unfold namedAsset
      dsimp only
      rw [hassetId]
      rfl
    have hid : isId assetId = true := isId_of_id (id_of_assetIdOf hassetId)
    have hupsert : (assets.upsert Prod.fst assetId (fun _ => (assetId, asset))
        (assetId, asset)).map assetOf = (assets.map assetOf).upsert (fun asset => asset.assetId)
          assetId (fun _ => assetOf (assetId, asset)) (assetOf (assetId, asset)) :=
      List.map_upsert assetOf (fun _ => rfl) fun _ => rfl
    rw [List.filterMap_cons_some hnamed, List.map_cons]
    unfold Inventory.addAssets
    rw [if_neg (by simp [assetOf]), if_neg (by simpa [assetOf] using hid)]
    dsimp only
    have hkey : (assetOf (assetId, asset)).assetId = assetId := rfl
    rw [hkey, ← hupsert, List.length_map, if_neg (Nat.not_lt.mpr hsize)]
    exact ih h

structure Reads (scan : Scan) (read : InventoryRead) : Prop where
  assets : read.assets = scan.assets.map assetOf
  descriptions : Mirrors scan.descriptions read.descriptions
  seenCursors : read.seenCursors = scan.seenCursors
  expectedTotal : read.expectedTotal = scan.expectedTotal

theorem reads_start : Reads Scan.start ⟨[], ∅, [], none⟩ := ⟨rfl, fun _ => rfl, rfl, rfl⟩

theorem arrayOf_of_not_isArray {value : Option Json} (h : isArray value = false) :
    arrayOf value = [] := by
  unfold isArray at h
  split at h
  next => cases h
  next hno =>
    unfold arrayOf
    split
    next => exact absurd rfl (hno _)
    next => rfl

theorem Reads.addPage (hreads : Reads scan read) (h : addPage scan data = .ok scan') :
    ∃ read', Inventory.addPage read (pageOf data) = .ok read' ∧ Reads scan' read' := by
  obtain ⟨total, hsuccess, htotal, hexpected, harray, hdescriptions, hassets, hscan⟩ := addPage_ok h
  obtain ⟨typed', htyped, hmirrors⟩ := hreads.descriptions.addDescriptions hdescriptions
  have hcount : (pageOf data).totalInventoryCount = total := by
    unfold pageOf
    rw [htotal]
    rfl
  have hpageAssets : (pageOf data).assets.getD [] =
      ((arrayOf (get data "assets")).filterMap namedAsset).map assetOf := by
    unfold pageOf
    dsimp only
    split_ifs with hisArray
    · rfl
    · rw [arrayOf_of_not_isArray (by simpa using hisArray)]
      rfl
  have hnone : (pageOf data).assets.isNone = !isArray (get data "assets") := by
    unfold pageOf
    cases isArray (get data "assets") <;> rfl
  have hsame : read.expectedTotal.any (fun expected => expected != total) = false := by
    rw [hreads.expectedTotal, Option.any_eq_false]
    intro expected heq
    simpa using hexpected expected heq
  have hmissing : ((pageOf data).assets.isNone && total != 0) = false := by
    rw [hnone]
    cases hisArray : isArray (get data "assets") with
    | false => simp [harray hisArray]
    | true => rfl
  refine ⟨{ read with
    assets := scan'.assets.map assetOf, descriptions := typed', expectedTotal := some total }, ?_, ?_⟩
  · unfold Inventory.addPage
    rw [hcount, hsame, hmissing, hpageAssets, hreads.assets, addAssets_typed hassets,
      if_neg (by simp [pageOf, hsuccess]), if_neg (Nat.not_lt.mpr (integer_le htotal)),
      if_neg Bool.false_ne_true, if_neg Bool.false_ne_true]
    show (Inventory.addDescriptions _ ((arrayOf _).filterMap describedAs) >>= _) = _
    rw [htyped]
    rfl
  · constructor
    case assets => rfl
    case descriptions => exact hmirrors
    case seenCursors =>
      rw [hscan]
      exact hreads.seenCursors
    case expectedTotal => rw [hscan]

/-- By induction on the pages that may still be asked for. -/
theorem Reads.readPages (hreads : Reads scan read)
    (h : readPages steamId outcomes scan remaining = (paths, .ok scan')) :
    ∃ read', Inventory.readPages (pagesOf outcomes) read remaining = .ok read' ∧
      Reads scan' read' := by
  induction remaining generalizing scan read paths with
  | zero => cases (Prod.mk.inj h).2
  | succ remaining ih =>
    obtain ⟨data, next, hfetch, hpage, hcases⟩ := readPages_succ h
    have hdata : pagesOf outcomes (maxInventoryPages - (remaining + 1)) = pageOf data := by
      unfold pagesOf
      rw [hfetch]
      rfl
    obtain ⟨read', hread', hnext⟩ := hreads.addPage hpage
    have hmoreItems : (pageOf data).moreItems = success (get data "more_items") := rfl
    unfold Inventory.readPages
    simp only [hdata, hread', hmoreItems]
    rcases hcases with ⟨hmore, -, rfl⟩ | ⟨hmore, advanced, rest, hadvance, -, hrest⟩
    · rw [hmore]
      exact ⟨read', rfl, hnext⟩
    · unfold advance at hadvance
      obtain ⟨cursor, hcursor, hadvance⟩ := Outcome.bind_eq_ok hadvance
      obtain ⟨hfresh, hadvance⟩ := Outcome.of_guard hadvance
      obtain rfl := Except.ok.inj hadvance
      have hlast : (pageOf data).lastAssetId = cursor := by
        unfold pageOf
        rw [hcursor]
        rfl
      rw [hmore, hlast, hnext.seenCursors, if_neg (by simp), if_neg (by simp [isId_of_id hcursor]),
        if_neg hfresh]
      have hadvanced : Reads
          { next with cursor := some cursor, seenCursors := cursor :: next.seenCursors }
          { read' with seenCursors := cursor :: next.seenCursors } :=
        ⟨hnext.assets, hnext.descriptions, rfl, hnext.expectedTotal⟩
      exact ih hadvanced hrest

/-! ## The items -/

theorem loadItems_cons {assetId : AssetId} {asset : Fields} {rest : List (AssetId × Fields)}
    (h : loadItems descriptions kept ((assetId, asset) :: rest) = .ok items) :
    ∃ classId itemInstanceId description item others,
      SteamData.id (get asset "classid") = .ok classId ∧
      instanceId (get asset "instanceid") = .ok itemInstanceId ∧
      descriptions.lookup (groupOf classId itemInstanceId) = some description ∧
      loadItem (kept.contains (groupOf classId itemInstanceId)) assetId asset classId itemInstanceId
        description = .ok item ∧
      loadItems descriptions (groupOf classId itemInstanceId :: kept) rest = .ok others ∧
      items = item :: others := by
  unfold loadItems at h
  obtain ⟨classId, hclass, h⟩ := Outcome.bind_eq_ok h
  obtain ⟨itemInstanceId, hinstance, h⟩ := Outcome.bind_eq_ok h
  dsimp only at h
  split at h
  next => cases h
  next description hfound =>
    obtain ⟨item, hitem, h⟩ := Outcome.bind_eq_ok h
    obtain ⟨others, hothers, h⟩ := Outcome.bind_eq_ok h
    exact ⟨classId, itemInstanceId, description, item, others, hclass, hinstance, hfound, hitem,
      hothers, (Except.ok.inj h).symm⟩

def Shows (item : LoadedItem) (description : SteamDescription) : Prop :=
  item = { item with
    name := text description.name "Steam item"
    marketHashName := description.marketHashName.map slice500
    type := text description.type ""
    iconUrl := description.iconUrl
    marketable := description.marketable
    tradable := description.tradable
    gameAppId := description.gameAppId
    gameName := description.gameName
    gameIconUrl := description.gameIconUrl
    publisherFee := description.marketFee }

theorem text_textOf (value : Option Json) (fallback : String) :
    SteamData.text value fallback = Inventory.text (textOf value) fallback := by
  cases value with
  | none => rfl
  | some value => cases value <;> rfl

theorem loadItem_ok {isKept : Bool} {assetId : AssetId} {asset : Fields}
    {classId itemInstanceId : String}
    (h : loadItem isKept assetId asset classId itemInstanceId description = .ok item) :
    ∃ quantity, integer (get asset "amount") 1000000 = .ok quantity ∧ 1 ≤ quantity ∧
      item = {
        assetId
        variantId := "753:6:" ++ classId ++ ":" ++ itemInstanceId
        name := text (descriptionOf description).name "Steam item"
        marketHashName := (descriptionOf description).marketHashName.map slice500
        type := text (descriptionOf description).type ""
        iconUrl := (descriptionOf description).iconUrl
        quantity
        duplicateQuantity := quantity - if isKept then 0 else 1
        marketable := (descriptionOf description).marketable
        tradable := (descriptionOf description).tradable
        gameAppId := (descriptionOf description).gameAppId
        gameName := (descriptionOf description).gameName
        gameIconUrl := (descriptionOf description).gameIconUrl
        group := groupOf classId itemInstanceId
        publisherFee := (descriptionOf description).marketFee } := by
  unfold loadItem at h
  obtain ⟨quantity, hquantity, h⟩ := Outcome.bind_eq_ok h
  obtain ⟨hsmall, h⟩ := Outcome.of_guard h
  rw [text_textOf, text_textOf] at h
  exact ⟨quantity, hquantity, Nat.not_lt.mp hsmall, (Except.ok.inj h).symm⟩

/-- By induction on the assets. -/
theorem loadItems_typed (hmirrors : Mirrors descriptions typed)
    (h : loadItems descriptions kept assets = .ok items) :
    Inventory.loadItems typed kept (assets.map assetOf) = .ok items := by
  induction assets generalizing kept items with
  | nil =>
    obtain rfl := Except.ok.inj h
    rfl
  | cons entry rest ih =>
    obtain ⟨assetId, asset⟩ := entry
    obtain ⟨classId, itemInstanceId, description, item, others, hclass, hinstance, hfound, hitem,
      hothers, rfl⟩ := loadItems_cons h
    obtain ⟨quantity, hquantity, hpositive, hshown⟩ := loadItem_ok hitem
    have hasset : assetOf (assetId, asset) = {
        appId := 753
        contextId := "6"
        assetId, classId
        instanceId := some itemInstanceId
        amount := quantity } := by
      unfold assetOf
      rw [hclass, hinstance, hquantity]
      rfl
    have hitem' : Inventory.loadItem typed (kept.contains (groupOf classId itemInstanceId))
        (assetOf (assetId, asset)) itemInstanceId = .ok item := by
      rw [hasset]
      unfold Inventory.loadItem
      dsimp only
      rw [hmirrors, hfound, Option.map_some]
      dsimp only
      rw [if_neg (Nat.not_lt.mpr (integer_le hquantity)), if_neg (Nat.not_lt.mpr hpositive), hshown]
    rw [hasset] at hitem'
    rw [List.map_cons, hasset]
    unfold Inventory.loadItems
    simp only [Option.getD_some, hitem', ih hothers]
    rw [if_neg (by simp [isId_of_id hclass]), if_neg (by simp [isInstanceId_of_instanceId hinstance])]

/-- By induction on the assets. -/
theorem loadItems_described (h : loadItems descriptions kept assets = .ok items)
    (hitem : item ∈ items) : ∃ description, descriptions.lookup item.group = some description ∧
      Shows item (descriptionOf description) := by
  induction assets generalizing kept items with
  | nil =>
    obtain rfl := Except.ok.inj h
    cases hitem
  | cons entry rest ih =>
    obtain ⟨assetId, asset⟩ := entry
    obtain ⟨classId, itemInstanceId, description, first, others, -, -, hfound, hfirst, hothers,
      rfl⟩ := loadItems_cons h
    rcases List.mem_cons.mp hitem with rfl | hitem
    · obtain ⟨quantity, -, -, hshown⟩ := loadItem_ok hfirst
      rw [hshown]
      exact ⟨description, hfound, rfl⟩
    · exact ih hothers hitem

/-! ## The inventory -/

theorem loadInventory_ok {session : Except ActionError Json}
    (h : (loadInventory session outcomes).2 = .ok items) : ∃ steamId scan,
      readPages steamId outcomes Scan.start maxInventoryPages =
        ((loadInventory session outcomes).1, .ok scan) ∧
      scan.expectedTotal = some scan.assets.length ∧
      loadItems scan.descriptions [] scan.assets = .ok items := by
  unfold loadInventory at h ⊢
  split at h
  next => cases h
  next steamId hsession =>
    dsimp only at h
    obtain ⟨scan, hscan, h⟩ := Outcome.bind_eq_ok h
    obtain ⟨htotal, h⟩ := Outcome.of_guard h
    exact ⟨steamId, scan, Prod.ext rfl hscan, not_not.mp htotal, h⟩

/-- What the service accepts is an inventory as the snapshot describes them. -/
theorem loadInventory_typed {session : Except ActionError Json}
    (h : (loadInventory session outcomes).2 = .ok items) :
    Inventory.loadInventory (pagesOf outcomes) = .ok items := by
  obtain ⟨steamId, scan, hscan, htotal, hitems⟩ := loadInventory_ok h
  obtain ⟨read, hread, hreads⟩ := reads_start.readPages hscan
  unfold Inventory.loadInventory
  simp only [hread]
  rw [hreads.expectedTotal, hreads.assets, List.length_map, if_neg (not_not.mpr htotal)]
  exact loadItems_typed hreads.descriptions hitems

/-- What a load that succeeds has read, and what it returns. -/
structure Complete (outcomes : Outcomes) (requests : ℕ) (items : List LoadedItem) : Prop where
  read : 0 < requests
  totals : ∀ k < requests, ∃ data, fetch (outcomes k) = .ok data ∧
    integer (get data "total_inventory_count") maxInventoryItems = .ok items.length
  distinct : (items.map fun item => item.assetId).Nodup
  named : ∀ assetId, assetId ∈ items.map (fun item => item.assetId) ↔
    ∃ data, IsPage outcomes requests data ∧ Names data assetId
  positive : ∀ item ∈ items, 1 ≤ item.quantity
  described : ∀ item ∈ items, ∃ data description, IsPage outcomes requests data ∧
    Describes data item.group description ∧ Shows item (descriptionOf description)
  duplicates : ∀ item ∈ items,
    (items.filter fun other => other.variantId == item.variantId).total
        (fun other => other.duplicateQuantity) + 1 =
      (items.filter fun other => other.variantId == item.variantId).total
        fun other => other.quantity

theorem complete_of_loadInventory {session : Except ActionError Json}
    (h : (loadInventory session outcomes).2 = .ok items) :
    Complete outcomes (loadInventory session outcomes).1.length items := by
  have htyped := loadInventory_typed h
  obtain ⟨steamId, scan, hscan, htotal, hitems⟩ := loadInventory_ok h
  obtain ⟨hread, hscanned⟩ := readPages_scanned (Nat.zero_add _) scanned_start hscan
  rw [Nat.zero_add] at hscanned
  obtain ⟨descriptions, assets, -, htypedItems⟩ := loadInventory_items htyped
  obtain ⟨read, -, hreads⟩ := reads_start.readPages hscan
  have hids : (items.map fun item => item.assetId) = scan.assets.map Prod.fst := by
    rw [loadItems_assetIds (loadItems_typed hreads.descriptions hitems), List.map_map]
    rfl
  have hlength : scan.assets.length = items.length := by
    have hmaps := congrArg List.length hids
    rw [List.length_map, List.length_map] at hmaps
    exact hmaps.symm
  constructor
  case read => exact hread
  case totals =>
    intro k hk
    obtain ⟨data, total, hfetch, hinteger, hexpected⟩ := hscanned.totals k hk
    obtain rfl := Option.some.inj (hexpected.symm.trans htotal)
    rw [hlength] at hinteger
    exact ⟨data, hfetch, hinteger⟩
  case distinct => exact assetIds_nodup htyped
  case named =>
    intro assetId
    rw [hids]
    exact hscanned.named assetId
  case positive =>
    intro item hitem
    obtain ⟨asset, -, isKept, hfrom⟩ := loadItems_mem htypedItems hitem
    exact hfrom.positive
  case described =>
    intro item hitem
    obtain ⟨description, hfound, hshows⟩ := loadItems_described hitems hitem
    obtain ⟨data, hpage, hdescribes⟩ := hscanned.described _ _ hfound
    exact ⟨data, description, hpage, hdescribes, hshows⟩
  case duplicates =>
    intro item hitem
    have hgroups : (items.filter fun other => other.variantId == item.variantId) =
        items.filter fun other => other.group == item.group := by
      apply List.filter_congr
      intro other hother
      rw [Bool.eq_iff_iff, beq_iff_eq, beq_iff_eq]
      exact variantId_eq_iff htyped hother hitem
    rw [hgroups]
    exact loadItems_total htypedItems List.not_mem_nil hitem rfl

/-- Whatever Steam answers, no more than 20 pages are asked for, and an inventory is complete or
an error. -/
theorem loadInventory_complete (session : Except ActionError Json) (outcomes : Outcomes) :
    (loadInventory session outcomes).1.length ≤ 20 ∧
      ∀ items, (loadInventory session outcomes).2 = .ok items →
        Complete outcomes (loadInventory session outcomes).1.length items := by
  constructor
  · unfold loadInventory
    split
    · exact Nat.zero_le 20
    · exact length_readPages
  · intro items h
    exact complete_of_loadInventory h

def cardAsset (assetId : AssetId) : Json :=
  .obj [("appid", .str "753"), ("contextid", .str "6"), ("assetid", .str assetId),
    ("classid", .str "9"), ("instanceid", .str "0"), ("amount", .str "1")]

def twoCards : Outcomes := fun _ => .ok {
  status := 200
  body := some (0, Json.stringify (.obj [("success", .bool true),
    ("total_inventory_count", .str "2"), ("assets", .arr [cardAsset "1", cardAsset "2"]),
    ("descriptions", .arr [.obj [("classid", .str "9"), ("name", .str "Card")]])])) }

def cardSession : Except ActionError Json := .ok (.str "76561197960265729")

theorem loadInventory_complete_twoCards : ∃ items,
    (loadInventory cardSession twoCards).2 = .ok items ∧ items.length = 2 ∧
      Complete twoCards 1 items := by
  have hrequests : (loadInventory cardSession twoCards).1.length = 1 := by decide +kernel
  have hlength : (loadInventory cardSession twoCards).2.toOption.map List.length = some 2 := by
    decide +kernel
  cases hresult : (loadInventory cardSession twoCards).2 with
  | error e =>
    rw [hresult] at hlength
    cases hlength
  | ok items =>
    rw [hresult] at hlength
    have hcomplete := (loadInventory_complete cardSession twoCards).2 items hresult
    rw [hrequests] at hcomplete
    exact ⟨items, rfl, Option.some.inj hlength, hcomplete⟩

end SteamBee.Inventory.Responses
