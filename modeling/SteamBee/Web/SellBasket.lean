import SteamBee.Web.InventoryModel

/-! The basket of extra copies to sell, and how whole variants are added to it. -/
namespace SteamBee.Web
open Inventory

/-- Variant to the number of extra copies to sell, in the order they were added. -/
structure SellBasket where
  entries : List (String × ℕ)
  distinct : (entries.map Prod.fst).Nodup
  positive : ∀ entry ∈ entries, 0 < entry.2
  deriving DecidableEq

/-- Of two variants with one identifier the last counts, as in a `Map`. -/
def variantById (variants : List InventoryVariant) (id : String) : Option InventoryVariant :=
  variants.reverse.find? fun variant => variant.variantId == id

namespace SellBasket
variable {basket : SellBasket} {id other : String} {quantity : ℕ}

def empty : SellBasket := ⟨[], List.nodup_nil, fun _ h => (by cases h)⟩

def get (basket : SellBasket) (id : String) : Option ℕ := basket.entries.lookup id

def set (basket : SellBasket) (id : String) (quantity : ℕ) (h : 0 < quantity) : SellBasket where
  entries := basket.entries.upsert Prod.fst id (fun _ => (id, quantity)) (id, quantity)
  distinct := List.nodup_upsert basket.distinct (fun _ _ => rfl) rfl
  positive := by
    intro entry hentry
    rcases List.mem_upsert hentry with ⟨hold, -⟩ | ⟨-, -, -, rfl⟩ | ⟨-, rfl⟩
    · exact basket.positive entry hold
    · exact h
    · exact h

end SellBasket

def prunedEntry (variants : List InventoryVariant) (entry : String × ℕ) : Option (String × ℕ) :=
  let capacity := ((variantById variants entry.1).map fun v => v.saleCapacity).getD 0
  if 0 < min entry.2 capacity then some (entry.1, min entry.2 capacity) else none

/-- Drop variants that left the inventory and clamp to what is still sellable. -/
def pruneBasket (basket : SellBasket) (variants : List InventoryVariant) : SellBasket where
  entries := basket.entries.filterMap (prunedEntry variants)
  distinct := by
    apply List.Nodup.sublist ?_ basket.distinct
    induction basket.entries with
    | nil => exact .slnil
    | cons entry entries ih =>
      rw [List.filterMap_cons, List.map_cons]
      unfold prunedEntry
      dsimp only
      split_ifs
      · exact ih.cons_cons _
      · exact ih.cons _
  positive := by
    intro entry hentry
    obtain ⟨old, -, hpruned⟩ := List.mem_filterMap.mp hentry
    unfold prunedEntry at hpruned
    dsimp only at hpruned
    split_ifs at hpruned with hpos
    cases hpruned
    exact hpos

def basketEntry (variants : List InventoryVariant) (entry : String × ℕ) :
    Option (InventoryVariant × ℕ) :=
  (variantById variants entry.1).bind fun variant =>
    if 0 < min entry.2 variant.saleCapacity then some (variant, min entry.2 variant.saleCapacity)
    else none

def basketEntries (basket : SellBasket) (variants : List InventoryVariant) :
    List (InventoryVariant × ℕ) :=
  basket.entries.filterMap (basketEntry variants)

section Collated
variable (collate : String → String → Ordering)

/-- Copies of a variant that fit into the given number of Steam actions. -/
def quantityWithin (variant : InventoryVariant) (actions : ℕ) : Except String ℕ :=
  if variant.saleCapacity < 1 ∨ actions < 1 then .ok 0
  else do
    let rows ← allocateVariantSale collate variant variant.saleCapacity
    return (rows.take actions).total fun row => row.quantity

def maxSaleActions : ℕ := 50

/-- What the loop over the given variants carries. -/
structure BasketFill where
  basket : SellBasket
  actions : ℕ
  skipped : ℕ
  deriving DecidableEq

/-- One turn of the loop. A negative rest of actions counts as none. -/
def addVariant (fill : BasketFill) (variant : InventoryVariant) : Except String BasketFill :=
  if variant.saleCapacity < 1 ∨ (fill.basket.get variant.variantId).isSome then .ok fill
  else do
    let quantity ← quantityWithin collate variant (maxSaleActions - fill.actions)
    let skipped := if quantity < variant.saleCapacity then fill.skipped + 1 else fill.skipped
    if h : quantity < 1 then return { fill with skipped := skipped }
    else
      let rows ← allocateVariantSale collate variant quantity
      return ⟨fill.basket.set variant.variantId quantity (not_lt.mp h),
        fill.actions + rows.length, skipped⟩

structure BasketAddition where
  basket : SellBasket
  skipped : ℕ
  deriving DecidableEq

/-- Add every extra copy of each variant; once the limit is reached the rest is reported as
skipped. -/
def addToBasket (basket : SellBasket) (variants all : List InventoryVariant) :
    Except String BasketAddition := do
  let rows ← basketAllocations collate (basketEntries basket all)
  let fill ← variants.foldlM (addVariant collate) ⟨basket, rows.length, 0⟩
  return ⟨fill.basket, fill.skipped⟩

end Collated

end SteamBee.Web
