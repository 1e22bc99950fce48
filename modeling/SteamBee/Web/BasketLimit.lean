import SteamBee.Web.SaleAllocation
import SteamBee.Web.SellBasket

/-! Adding whole variants to the basket keeps it within the actions of one batch. -/
namespace SteamBee.Web
open Inventory
variable {collate : String → String → Ordering} {items assets : List InventoryItem}
  {variants all : List InventoryVariant} {variant : InventoryVariant} {quantity n : ℕ}
  {rows : List InventorySaleAllocation} {basket : SellBasket} {id : String}

/-! ## Rows -/

theorem allocate_zero (assets : List InventoryItem) : allocate 0 assets = [] := by
  cases assets with
  | nil => rfl
  | cons asset assets => simp [allocate]

theorem allocate_cons (quantity : ℕ) (asset : InventoryItem) (assets : List InventoryItem) :
    allocate quantity (asset :: assets) =
      (if 0 < min (min quantity (sellableAssetQuantity asset)) 100 then
        [⟨asset.assetId, min (min quantity (sellableAssetQuantity asset)) 100⟩] else []) ++
      allocate (quantity - min (min quantity (sellableAssetQuantity asset)) 100) assets := by
  rw [allocate]
  by_cases hdone : quantity - min (min quantity (sellableAssetQuantity asset)) 100 = 0
  · rw [if_pos hdone, hdone, allocate_zero, List.append_nil]
  · rw [if_neg hdone]

theorem allocate_total_le (quantity : ℕ) (assets : List InventoryItem) :
    (allocate quantity assets).total (fun row => row.quantity) ≤ quantity := by
  induction assets generalizing quantity with
  | nil => exact Nat.zero_le _
  | cons asset assets ih =>
    have hrest := ih (quantity - min (min quantity (sellableAssetQuantity asset)) 100)
    rw [allocate_cons, List.total_append]
    split_ifs
    · rw [List.total_cons, List.total_nil]
      dsimp only
      omega
    · rw [List.total_nil]
      omega

theorem total_take_le (rows : List InventorySaleAllocation) (n : ℕ) :
    (rows.take n).total (fun row => row.quantity) ≤ rows.total fun row => row.quantity := by
  conv_rhs => rw [← List.take_append_drop n rows]
  rw [List.total_append]
  exact Nat.le_add_right _ _

/-- The first rows of a sale are the rows of what they sell. By induction on the assets. -/
theorem allocate_take (quantity n : ℕ) (assets : List InventoryItem) :
    allocate (((allocate quantity assets).take n).total fun row => row.quantity) assets =
      (allocate quantity assets).take n := by
  induction assets generalizing quantity n with
  | nil => simp [allocate]
  | cons asset assets ih =>
    rw [allocate_cons quantity]
    split_ifs with hpos
    · cases n with
      | zero => rw [List.take_zero, List.total_nil, allocate_zero]
      | succ n =>
        have hle := (total_take_le _ n).trans (allocate_total_le
          (quantity - min (min quantity (sellableAssetQuantity asset)) 100) assets)
        rw [List.singleton_append, List.take_succ_cons, List.total_cons, allocate_cons]
        dsimp only
        generalize hsold : ((allocate (quantity - min (min quantity
          (sellableAssetQuantity asset)) 100) assets).take n).total _ = sold at hle ⊢
        generalize hamount : min (min quantity (sellableAssetQuantity asset)) 100 = amount
          at hpos hle hsold ⊢
        have hsame : min (min (amount + sold) (sellableAssetQuantity asset)) 100 = amount := by
          omega
        rw [hsame, if_pos hpos, Nat.add_sub_cancel_left, ← hsold, ih, List.singleton_append]
    · have hnone : min (min quantity (sellableAssetQuantity asset)) 100 = 0 := by omega
      have hle := (total_take_le _ n).trans (allocate_total_le quantity assets)
      rw [hnone, List.nil_append, Nat.sub_zero, allocate_cons]
      generalize hsold : ((allocate quantity assets).take n).total _ = sold at hle ⊢
      have hskip : min (min sold (sellableAssetQuantity asset)) 100 = 0 := by omega
      rw [hskip, if_neg (lt_irrefl 0), List.nil_append, Nat.sub_zero, ← hsold, ih]

/-- What the first actions of a whole sale sell is a sale of its own, of no more rows. -/
theorem quantityWithin_ok (collate : String → String → Ordering) (h : VariantOf items variant)
    (hsafe : variant.saleCapacity ≤ maxSafeAmount) (hcapacity : 1 ≤ variant.saleCapacity)
    (hn : 1 ≤ n) :
    ∃ quantity rows, quantityWithin collate variant n = .ok quantity ∧ 0 < quantity ∧
      quantity ≤ variant.saleCapacity ∧
      allocateVariantSale collate variant quantity = .ok rows ∧ rows.length ≤ n := by
  have hwhole := allocateVariantSale_eq collate h hcapacity hsafe le_rfl
  generalize hassets : (variant.assets.insertionSort fun left right =>
    compareAssetIds collate left right ≠ .gt) = assets at hwhole
  have hperm := List.perm_insertionSort
    (fun left right => compareAssetIds collate left right ≠ .gt) variant.assets
  have htotal : (allocate variant.saleCapacity assets).total (fun row => row.quantity) =
      variant.saleCapacity := by
    apply allocate_total
    rw [← hassets, hperm.total_eq, ← h.capacity]
  have hle := total_take_le (allocate variant.saleCapacity assets) n
  have hsome : 0 < ((allocate variant.saleCapacity assets).take n).total
      fun row => row.quantity := by
    cases hrows : allocate variant.saleCapacity assets with
    | nil =>
      rw [hrows, List.total_nil] at htotal
      omega
    | cons row rows =>
      obtain ⟨-, -, -, hrow, -⟩ := allocate_mem (hrows ▸ List.mem_cons_self)
      obtain ⟨n, rfl⟩ := Nat.exists_eq_add_of_le' hn
      rw [List.take_succ_cons, List.total_cons]
      omega
  rw [htotal] at hle
  refine ⟨_, _, ?_, hsome, hle, allocateVariantSale_eq collate h hsome (hle.trans hsafe) hle, ?_⟩
  · rw [quantityWithin, if_neg (by omega), hwhole]
    rfl
  · rw [hassets, allocate_take]
    exact List.length_take_le _ _

/-! ## The entries -/

theorem variantById_mem (hnodup : (all.map fun variant => variant.variantId).Nodup)
    (h : variant ∈ all) : variantById all variant.variantId = some variant := by
  unfold variantById
  cases hfound : all.reverse.find? fun other => other.variantId == variant.variantId with
  | none =>
    have hno := List.find?_eq_none.mp hfound variant (List.mem_reverse.mpr h)
    exact absurd (beq_self_eq_true _) hno
  | some other =>
    have hmem := List.mem_reverse.mp (List.mem_of_find?_eq_some hfound)
    have hid : other.variantId = variant.variantId := by simpa using List.find?_some hfound
    rw [List.inj_on_of_nodup_map hnodup hmem h hid]

theorem SellBasket.set_entries {h : 0 < quantity} (hnew : basket.get id = none) :
    (basket.set id quantity h).entries = basket.entries ++ [(id, quantity)] := by
  unfold SellBasket.set List.upsert
  dsimp only
  rw [if_neg]
  intro hmem
  obtain ⟨entry, hentry, rfl⟩ := List.mem_map.mp hmem
  have hno := List.lookup_eq_none_iff.mp hnew entry hentry
  exact absurd hno (by simp)

theorem SellBasket.get_set {h : 0 < quantity} (hnew : basket.get id = none) (other : String) :
    (basket.set id quantity h).get other =
      if other = id then some quantity else basket.get other := by
  unfold SellBasket.get at hnew ⊢
  rw [SellBasket.set_entries hnew, List.lookup_append]
  split_ifs with hid
  · rw [hid, hnew]
    simp
  · rw [List.lookup_cons, beq_eq_false_iff_ne.mpr hid, List.lookup_nil, Option.or_none]

theorem basketEntries_set {h : 0 < quantity}
    (hnodup : (all.map fun variant => variant.variantId).Nodup) (hvariant : variant ∈ all)
    (hnew : basket.get variant.variantId = none) (hle : quantity ≤ variant.saleCapacity) :
    basketEntries (basket.set variant.variantId quantity h) all =
      basketEntries basket all ++ [(variant, quantity)] := by
  have hentry : basketEntry all (variant.variantId, quantity) = some (variant, quantity) := by
    unfold basketEntry
    rw [variantById_mem hnodup hvariant, Option.bind_some, min_eq_left hle, if_pos h]
  unfold basketEntries
  rw [SellBasket.set_entries hnew, List.filterMap_append, List.filterMap_cons_some hentry,
    List.filterMap_nil]

theorem basketAllocations_append {entries : List (InventoryVariant × ℕ)}
    {others : List InventorySaleAllocation}
    (h : basketAllocations collate entries = .ok others)
    (hrows : allocateVariantSale collate variant quantity = .ok rows) :
    basketAllocations collate (entries ++ [(variant, quantity)]) = .ok (others ++ rows) := by
  induction entries generalizing others with
  | nil =>
    cases h
    simp [basketAllocations, hrows]
  | cons entry entries ih =>
    rw [basketAllocations] at h
    rw [List.cons_append, basketAllocations]
    cases hfirst : allocateVariantSale collate entry.1 entry.2 with
    | error e => simp [hfirst] at h
    | ok first =>
      cases hrest : basketAllocations collate entries with
      | error e => simp [hfirst, hrest] at h
      | ok rest =>
        rw [hfirst, hrest] at h
        cases h
        rw [ih hrest]
        simp

/-! ## The loop -/

/-- The variant could be added to the basket before its turn, and is not in full after it. -/
def LeftOut (before after : SellBasket) (variant : InventoryVariant) : Prop :=
  1 ≤ variant.saleCapacity ∧ before.get variant.variantId = none ∧
    after.get variant.variantId ≠ some variant.saleCapacity

instance (before after : SellBasket) (variant : InventoryVariant) :
    Decidable (LeftOut before after variant) := by
  unfold LeftOut
  infer_instance

theorem leftOut_congr {before before' after after' : SellBasket}
    (hbefore : before.get variant.variantId = before'.get variant.variantId)
    (hafter : after.get variant.variantId = after'.get variant.variantId) :
    LeftOut before after variant ↔ LeftOut before' after' variant := by
  unfold LeftOut
  rw [hbefore, hafter]

/-- The rows of the basket fit into one batch. -/
def WithinLimit (collate : String → String → Ordering) (basket : SellBasket)
    (all : List InventoryVariant) : Prop :=
  ∃ rows, basketAllocations collate (basketEntries basket all) = .ok rows ∧
    rows.length ≤ maxSaleActions

structure Counted (collate : String → String → Ordering) (all : List InventoryVariant)
    (fill : BasketFill) : Prop where
  rows : ∃ rows, basketAllocations collate (basketEntries fill.basket all) = .ok rows ∧
    rows.length = fill.actions
  limit : fill.actions ≤ maxSaleActions

structure Turn (fill : BasketFill) (variant : InventoryVariant) (fill' : BasketFill) : Prop where
  others : ∀ id, id ≠ variant.variantId → fill'.basket.get id = fill.basket.get id
  kept : ∀ quantity, fill.basket.get variant.variantId = some quantity →
    fill'.basket.get variant.variantId = some quantity
  capacity : ∀ quantity, fill'.basket.get variant.variantId = some quantity →
    fill.basket.get variant.variantId = some quantity ∨ quantity ≤ variant.saleCapacity
  skipped : fill'.skipped = fill.skipped +
    if LeftOut fill.basket fill'.basket variant then 1 else 0

theorem Turn.stay {fill : BasketFill} (h : ¬ LeftOut fill.basket fill.basket variant) :
    Turn fill variant fill := by
  constructor
  case others => exact fun _ _ => rfl
  case kept => exact fun _ h => h
  case capacity => exact fun _ h => .inl h
  case skipped => rw [if_neg h, Nat.add_zero]

theorem Turn.skip {fill : BasketFill} (h : LeftOut fill.basket fill.basket variant) :
    Turn fill variant { fill with skipped := fill.skipped + 1 } := by
  constructor
  case others => exact fun _ _ => rfl
  case kept => exact fun _ h => h
  case capacity => exact fun _ h => .inl h
  case skipped =>
    dsimp only
    rw [if_pos h]

theorem Turn.put {fill : BasketFill} {h : 0 < quantity} (actions : ℕ)
    (hcapacity : 1 ≤ variant.saleCapacity)
    (hnew : fill.basket.get variant.variantId = none) (hle : quantity ≤ variant.saleCapacity) :
    Turn fill variant ⟨fill.basket.set variant.variantId quantity h, actions,
      if quantity < variant.saleCapacity then fill.skipped + 1 else fill.skipped⟩ := by
  have hget := SellBasket.get_set (h := h) hnew
  constructor
  case others =>
    intro id hid
    dsimp only
    rw [hget, if_neg hid]
  case kept =>
    intro other hother
    rw [hnew] at hother
    cases hother
  case capacity =>
    intro other hother
    dsimp only at hother
    rw [hget, if_pos rfl] at hother
    cases hother
    exact .inr hle
  case skipped =>
    have hleft : LeftOut fill.basket (fill.basket.set variant.variantId quantity h) variant ↔
        quantity < variant.saleCapacity := by
      unfold LeftOut
      rw [hget, if_pos rfl, Ne, Option.some.injEq]
      constructor
      · rintro ⟨-, -, hne⟩
        omega
      · intro hlt
        exact ⟨hcapacity, hnew, by omega⟩
    simp only [hleft]
    split_ifs
    · rfl
    · rfl

theorem addVariant_ok {fill : BasketFill} (hof : VariantOf items variant)
    (hsafe : variant.saleCapacity ≤ maxSafeAmount)
    (hnodup : (all.map fun variant => variant.variantId).Nodup) (hvariant : variant ∈ all)
    (h : Counted collate all fill) : ∃ fill', addVariant collate fill variant = .ok fill' ∧
      Counted collate all fill' ∧ Turn fill variant fill' := by
  unfold addVariant
  by_cases hpass : variant.saleCapacity < 1 ∨ (fill.basket.get variant.variantId).isSome
  · rw [if_pos hpass]
    refine ⟨fill, rfl, h, .stay ?_⟩
    rintro ⟨hcapacity, hnew, -⟩
    rw [hnew] at hpass
    simp at hpass
    omega
  rw [if_neg hpass]
  obtain ⟨hcapacity, hnew⟩ := not_or.mp hpass
  rw [Option.not_isSome_iff_eq_none] at hnew
  rw [Nat.not_lt] at hcapacity
  by_cases hfull : maxSaleActions - fill.actions < 1
  · have hnone : quantityWithin collate variant (maxSaleActions - fill.actions) = .ok 0 := by
      rw [quantityWithin, if_pos (.inr hfull)]
    rw [hnone]
    refine ⟨{ fill with skipped := fill.skipped + 1 }, ?_, ⟨h.rows, h.limit⟩, .skip ?_⟩
    · show Except.ok _ = _
      rw [if_pos (by omega)]
    · exact ⟨hcapacity, hnew, by rw [hnew]; exact nofun⟩
  · obtain ⟨quantity, rows, hquantity, hpos, hle, hrows, hlength⟩ :=
      quantityWithin_ok collate hof hsafe hcapacity (Nat.not_lt.mp hfull)
    obtain ⟨others, hothers, hactions⟩ := h.rows
    rw [hquantity]
    refine ⟨⟨fill.basket.set variant.variantId quantity hpos, fill.actions + rows.length,
      if quantity < variant.saleCapacity then fill.skipped + 1 else fill.skipped⟩, ?_, ⟨?_, ?_⟩,
      .put _ hcapacity hnew hle⟩
    · show (if h : quantity < 1 then _ else _) = _
      rw [dif_neg (by omega), hrows]
      rfl
    · refine ⟨others ++ rows, ?_, ?_⟩
      · rw [basketEntries_set hnodup hvariant hnew hle]
        exact basketAllocations_append hothers hrows
      · rw [List.length_append, hactions]
    · dsimp only
      have := h.limit
      omega

def basketAfter (collate : String → String → Ordering) (basket : SellBasket)
    (variants all : List InventoryVariant) (turns : ℕ) : SellBasket :=
  match addToBasket collate basket (variants.take turns) all with
  | .ok addition => addition.basket
  | .error _ => basket

/-- What is asked of an addition to the basket. A variant that is given twice has two turns. -/
structure SoundAddition (collate : String → String → Ordering) (basket : SellBasket)
    (variants all : List InventoryVariant) (addition : BasketAddition) : Prop where
  limit : WithinLimit collate addition.basket all
  kept : ∀ id quantity, basket.get id = some quantity →
    addition.basket.get id = some quantity
  capacity : ∀ id quantity, addition.basket.get id = some quantity →
    basket.get id = some quantity ∨
      ∃ variant ∈ variants, variant.variantId = id ∧ quantity ≤ variant.saleCapacity
  skipped : addition.skipped = variants.zipIdx.countP fun turn =>
    LeftOut (basketAfter collate basket variants all turn.2)
      (basketAfter collate basket variants all (turn.2 + 1)) turn.1
  distinct : (variants.map fun variant => variant.variantId).Nodup →
    addition.skipped = variants.countP fun variant => LeftOut basket addition.basket variant

theorem Counted.withinLimit {fill : BasketFill} (h : Counted collate all fill) :
    WithinLimit collate fill.basket all := by
  obtain ⟨rows, hrows, hlength⟩ := h.rows
  exact ⟨rows, hrows, hlength.trans_le h.limit⟩

theorem basketAfter_eq {rows : List InventorySaleAllocation} {fill : BasketFill}
    (hrows : basketAllocations collate (basketEntries basket all) = .ok rows)
    (hfill : (variants.take n).foldlM (addVariant collate) ⟨basket, rows.length, 0⟩ = .ok fill) :
    basketAfter collate basket variants all n = fill.basket := by
  have hadd : addToBasket collate basket (variants.take n) all =
      .ok ⟨fill.basket, fill.skipped⟩ := by
    rw [addToBasket, hrows]
    show (variants.take n).foldlM (addVariant collate) ⟨basket, rows.length, 0⟩ >>= _ = _
    rw [hfill]
    rfl
  unfold basketAfter
  rw [hadd]

/-- An addition is extended by one turn. -/
theorem SoundAddition.turn {fill fill' : BasketFill}
    (h : SoundAddition collate basket variants all ⟨fill.basket, fill.skipped⟩)
    (hlimit : WithinLimit collate fill'.basket all) (hturn : Turn fill variant fill')
    (hbefore : basketAfter collate basket variants all variants.length = fill.basket)
    (hafter : basketAfter collate basket (variants ++ [variant]) all (variants.length + 1) =
      fill'.basket) :
    SoundAddition collate basket (variants ++ [variant]) all ⟨fill'.basket, fill'.skipped⟩ := by
  have hsame (i : ℕ) (hi : i ≤ variants.length) :
      basketAfter collate basket (variants ++ [variant]) all i =
        basketAfter collate basket variants all i := by
    unfold basketAfter
    rw [List.take_append_of_le_length hi]
  constructor
  case limit => exact hlimit
  case kept =>
    intro id quantity hget
    have hold := h.kept id quantity hget
    by_cases hid : id = variant.variantId
    · exact hid ▸ hturn.kept quantity (hid ▸ hold)
    · exact (hturn.others id hid).trans hold
  case capacity =>
    intro id quantity hget
    have hold (hold : fill.basket.get id = some quantity) : basket.get id = some quantity ∨
        ∃ given ∈ variants ++ [variant], given.variantId = id ∧
          quantity ≤ given.saleCapacity := by
      rcases h.capacity id quantity hold with hbasket | ⟨given, hgiven, hrest⟩
      · exact .inl hbasket
      · exact .inr ⟨given, List.mem_append_left _ hgiven, hrest⟩
    by_cases hid : id = variant.variantId
    · subst hid
      rcases hturn.capacity quantity hget with hkept | hle
      · exact hold hkept
      · exact .inr ⟨variant, List.mem_append_right _ (List.mem_singleton_self _), rfl, hle⟩
    · exact hold ((hturn.others id hid).symm.trans hget)
  case skipped =>
    have hold := h.skipped
    dsimp only at hold ⊢
    rw [hturn.skipped, hold, List.zipIdx_append, List.countP_append]
    congr 1
    · refine List.countP_congr fun given hgiven => ?_
      have hlt : given.2 < variants.length := by
        have := List.mem_zipIdx hgiven
        omega
      rw [hsame given.2 hlt.le, hsame (given.2 + 1) hlt]
    · rw [← hbefore, ← hafter, ← hsame variants.length le_rfl]
      simp
  case distinct =>
    intro hnodup
    rw [List.map_append, List.map_singleton, List.nodup_append] at hnodup
    obtain ⟨hnodup, -, hapart⟩ := hnodup
    have hnew (given : InventoryVariant) (hgiven : given ∈ variants) :
        given.variantId ≠ variant.variantId :=
      hapart _ (List.mem_map_of_mem hgiven) _ (List.mem_singleton_self _)
    have hold := h.distinct hnodup
    dsimp only at hold ⊢
    rw [hturn.skipped, hold, List.countP_append]
    congr 1
    · refine List.countP_congr fun given hgiven => ?_
      simpa using leftOut_congr rfl (hturn.others given.variantId (hnew given hgiven)).symm
    · have hbasket : fill.basket.get variant.variantId = basket.get variant.variantId := by
        cases hget : basket.get variant.variantId with
        | some quantity => exact h.kept _ _ hget
        | none =>
          cases hfill : fill.basket.get variant.variantId with
          | none => rfl
          | some quantity =>
            rcases h.capacity _ _ hfill with hold | ⟨given, hgiven, hid, -⟩
            · rw [hget] at hold
              cases hold
            · exact absurd hid (hnew given hgiven)
      simp [List.countP_singleton, leftOut_congr hbasket rfl]

/-- By induction on the given variants, from the last. -/
theorem addToBasket_sound (collate : String → String → Ordering) (basket : SellBasket)
    (hlength : items.length < 2 ^ 32)
    (hgiven : ∀ variant ∈ variants, variant ∈ buildInventoryVariants items)
    (hlimit : WithinLimit collate basket (buildInventoryVariants items)) :
    ∃ addition, addToBasket collate basket variants (buildInventoryVariants items) =
        .ok addition ∧
      SoundAddition collate basket variants (buildInventoryVariants items) addition := by
  obtain ⟨rows, hrows, hmax⟩ := hlimit
  have hrun : ∃ fill, variants.foldlM (addVariant collate) ⟨basket, rows.length, 0⟩ = .ok fill ∧
      Counted collate (buildInventoryVariants items) fill ∧
      SoundAddition collate basket variants (buildInventoryVariants items)
        ⟨fill.basket, fill.skipped⟩ := by
    induction variants using List.reverseRecOn with
    | nil =>
      refine ⟨⟨basket, rows.length, 0⟩, rfl, ⟨⟨rows, hrows, rfl⟩, hmax⟩, ?_⟩
      constructor
      case limit => exact ⟨rows, hrows, hmax⟩
      case kept => exact fun _ _ h => h
      case capacity => exact fun _ _ h => .inl h
      case skipped => rfl
      case distinct => exact fun _ => rfl
    | append_singleton variants variant ih =>
      obtain ⟨fill, hfill, hcounted, hsound⟩ :=
        ih fun other hother => hgiven other (List.mem_append_left _ hother)
      have hvariant := hgiven variant (List.mem_append_right _ (List.mem_singleton_self _))
      have hof := variantOf_of_mem hvariant
      have hsafe : variant.saleCapacity ≤ maxSafeAmount := by
        have hcapacity := hof.saleCapacity_le_length
        simp only [maxSafeAmount]
        omega
      obtain ⟨fill', hfill', hcounted', hturn⟩ :=
        addVariant_ok hof hsafe (variantIds_nodup items) hvariant hcounted
      have hrun : (variants ++ [variant]).foldlM (addVariant collate)
          ⟨basket, rows.length, 0⟩ = .ok fill' := by
        rw [List.foldlM_append, hfill]
        show addVariant collate fill variant >>= pure = _
        rw [hfill']
        rfl
      refine ⟨fill', hrun, hcounted', hsound.turn hcounted'.withinLimit hturn ?_ ?_⟩
      · apply basketAfter_eq hrows
        rw [List.take_length, hfill]
      · apply basketAfter_eq hrows
        rw [List.take_of_length_le (by simp), hrun]
  obtain ⟨fill, hfill, -, hsound⟩ := hrun
  refine ⟨⟨fill.basket, fill.skipped⟩, ?_, hsound⟩
  rw [addToBasket, hrows]
  show variants.foldlM (addVariant collate) ⟨basket, rows.length, 0⟩ >>= _ = _
  rw [hfill]
  rfl

def stackOf (assetId variantId : String) (quantity : ℕ) : InventoryItem where
  assetId := assetId
  variantId := some variantId
  name := variantId
  marketHashName := none
  type := ""
  iconUrl := none
  quantity := quantity
  duplicateQuantity := quantity
  marketable := true
  tradable := true
  gameAppId := none
  gameName := none
  gameIconUrl := none

/-- Sixty full stacks of a card, and three copies of an emoticon. -/
def manyStacks : List InventoryItem :=
  (List.range 60).map (fun n => stackOf (toString n) "card" 100) ++ [stackOf "60" "emoticon" 3]

theorem addToBasket_sound_manyStacks : ∃ addition,
    addToBasket (fun _ _ => .eq) .empty (buildInventoryVariants manyStacks)
      (buildInventoryVariants manyStacks) = .ok addition ∧
    SoundAddition (fun _ _ => .eq) .empty (buildInventoryVariants manyStacks)
      (buildInventoryVariants manyStacks) addition ∧
    addition.basket.entries = [("card", 5000)] ∧ addition.skipped = 2 := by
  obtain ⟨addition, hadd, hsound⟩ := @addToBasket_sound manyStacks
    (buildInventoryVariants manyStacks) (fun _ _ => .eq) .empty (by decide)
    (fun _ h => h) ⟨[], rfl, Nat.zero_le _⟩
  have hrun : (addToBasket (fun _ _ => .eq) .empty (buildInventoryVariants manyStacks)
      (buildInventoryVariants manyStacks)).toOption.map
        (fun addition => (addition.basket.entries, addition.skipped)) =
      some ([("card", 5000)], 2) := by decide +kernel
  rw [hadd] at hrun
  simp only [Except.toOption, Option.map_some, Option.some.injEq, Prod.mk.injEq] at hrun
  exact ⟨addition, hadd, hsound, hrun.1, hrun.2⟩

end SteamBee.Web
