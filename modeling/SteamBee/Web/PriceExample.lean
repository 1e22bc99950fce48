import Mathlib.Algebra.Order.Floor.Semifield
import Mathlib.Data.Rat.Floor
import Mathlib.Tactic.Linarith
import Mathlib.Tactic.NormNum
import SteamBee.Inventory.QuoteLaws
import SteamBee.Inventory.Sale

/-! The worked example of the price rules: what the web client says that the seller receives of a
price is what the service quotes for it at Steam's default fees. -/
namespace SteamBee.Web
open Inventory

/-- Typical card prices in wallet minor units. -/
def exampleSource : PriceMode → ℕ
  | .lowestSellOrder => 17
  | .highestBuyOrder => 14

/-- The rates are decimals of the source, taken exactly. -/
def steamFeeRate : ℚ := 5 / 100

def publisherFeeRate : ℚ := 1 / 10

/-- Each fee is at least one minor unit. -/
def exampleFees (seller : ℕ) : ℕ :=
  max ⌊(seller : ℚ) * steamFeeRate⌋₊ 1 + max ⌊(seller : ℚ) * publisherFeeRate⌋₊ 1

/-- The loop of `sellerReceives`: down from an amount to the first that the price covers. -/
def sellerReceivesFrom (buyerPays : ℕ) : ℕ → ℕ
  | 0 => 0
  | seller + 1 =>
    if seller + 1 + exampleFees (seller + 1) ≤ buyerPays then seller + 1
    else sellerReceivesFrom buyerPays seller

def sellerReceives (buyerPays : ℕ) : ℕ :=
  sellerReceivesFrom buyerPays
    ⌊((buyerPays : ℚ) + 2) / (1 + steamFeeRate + publisherFeeRate)⌋₊

structure PriceExample where
  source : ℕ
  adjustment : ℤ
  buyerPays : ℕ
  blocked : Bool
  fees : ℕ
  receive : ℕ
  deriving DecidableEq, Repr

/-- One sale with Steam's default fee rates. -/
def priceExample (mode : PriceMode) (adjustment : ℤ) (minimum maximum : Option ℕ) : PriceExample :=
  let source := exampleSource mode
  let buyerPays := (max (source + adjustment) 3).toNat
  let receive := sellerReceives buyerPays
  { source, adjustment, buyerPays
    blocked := minimum.any (fun minimum => decide (buyerPays < minimum)) ||
      maximum.any (fun maximum => decide (maximum < buyerPays))
    fees := buyerPays - receive
    receive }

variable {wallet : Wallet} {rate : Rate} {buyerPays seller base start : ℕ} {share : ℚ}

/-! ## The search of the web client -/

/-- The amounts, of at least one minor unit, that a price covers together with their fees. -/
def Covered (buyerPays : ℕ) : Set ℕ :=
  {seller | 1 ≤ seller ∧ seller + exampleFees seller ≤ buyerPays}

/-- By induction on the amount that the loop starts from. -/
theorem sellerReceivesFrom_spec (h : seller ∈ Covered buyerPays) (hstart : seller ≤ start) :
    sellerReceivesFrom buyerPays start ∈ Covered buyerPays ∧
      seller ≤ sellerReceivesFrom buyerPays start := by
  induction start with
  | zero =>
    have hpositive := h.1
    omega
  | succ start ih =>
    unfold sellerReceivesFrom
    split_ifs with hcovers
    · exact ⟨⟨Nat.succ_pos start, hcovers⟩, hstart⟩
    · apply ih
      -- the amount that is passed over is not covered
      have hne : seller ≠ start + 1 := by
        rintro rfl
        exact hcovers h.2
      omega

/-- No covered amount is above the one that the loop starts from. -/
theorem le_start_of_covered (h : seller ∈ Covered buyerPays) :
    seller ≤ ⌊((buyerPays : ℚ) + 2) / (1 + steamFeeRate + publisherFeeRate)⌋₊ := by
  have hsteam := Nat.lt_floor_add_one ((seller : ℚ) * steamFeeRate)
  have hpublisher := Nat.lt_floor_add_one ((seller : ℚ) * publisherFeeRate)
  have hfees : seller + (⌊(seller : ℚ) * steamFeeRate⌋₊ + ⌊(seller : ℚ) * publisherFeeRate⌋₊) ≤
      buyerPays := by
    have hcovers := h.2
    unfold exampleFees at hcovers
    omega
  have hcast : (seller : ℚ) + (⌊(seller : ℚ) * steamFeeRate⌋₊ +
      ⌊(seller : ℚ) * publisherFeeRate⌋₊) ≤ buyerPays := by
    exact_mod_cast hfees
  apply Nat.le_floor
  rw [le_div_iff₀ (by norm_num [steamFeeRate, publisherFeeRate])]
  linarith

/-- A price of three minor units or more covers one minor unit and both fees. -/
theorem one_mem_covered (h : 3 ≤ buyerPays) : 1 ∈ Covered buyerPays := by
  have hsteam : ⌊((1 : ℕ) : ℚ) * steamFeeRate⌋₊ = 0 := by
    rw [Nat.floor_eq_zero]
    norm_num [steamFeeRate]
  have hpublisher : ⌊((1 : ℕ) : ℚ) * publisherFeeRate⌋₊ = 0 := by
    rw [Nat.floor_eq_zero]
    norm_num [publisherFeeRate]
  refine ⟨le_rfl, ?_⟩
  unfold exampleFees
  rw [hsteam, hpublisher]
  exact h

theorem sellerReceives_isGreatest (h : 3 ≤ buyerPays) :
    IsGreatest (Covered buyerPays) (sellerReceives buyerPays) := by
  have hone := one_mem_covered h
  constructor
  · exact (sellerReceivesFrom_spec hone (le_start_of_covered hone)).1
  · intro seller hseller
    exact (sellerReceivesFrom_spec hseller (le_start_of_covered hseller)).2

/-- The example splits the price, without a rest, into fees and the most that it covers. -/
theorem priceExample_splits {mode : PriceMode} {adjustment : ℤ} {minimum maximum : Option ℕ}
    {shown : PriceExample} (h : priceExample mode adjustment minimum maximum = shown) :
    shown.receive + shown.fees = shown.buyerPays ∧
      IsGreatest (Covered shown.buyerPays) shown.receive := by
  subst h
  have hprice : 3 ≤ (max (exampleSource mode + adjustment) 3).toNat := by omega
  have hgreatest := sellerReceives_isGreatest hprice
  refine ⟨?_, hgreatest⟩
  apply Nat.add_sub_cancel'
  exact (Nat.le_add_right _ _).trans hgreatest.1.2

/-! ## The search of the service -/

def rateValue (rate : Rate) : ℚ := rate.numerator / rate.denominator

/-- A wallet in single minor units at Steam's default fees. -/
structure DefaultFees (wallet : Wallet) : Prop where
  minimum : wallet.minimum = 1
  increment : wallet.increment = 1
  steamRate : rateValue wallet.steamRate = 5 / 100
  publisherRate : rateValue wallet.publisherRate = 10 / 100
  steamBase : wallet.steamBase = 0

/-- A fee in single minor units is rounded down, to no less than one. -/
theorem fee_eq_max (hminimum : wallet.minimum = 1) (hincrement : wallet.increment = 1)
    (hrate : rateValue rate = share) (hshare : share ≠ 0) :
    fee base rate wallet = max ⌊(base : ℚ) * share⌋₊ 1 := by
  have hnumerator : rate.numerator ≠ 0 := by
    rintro hzero
    apply hshare
    rw [← hrate, rateValue, hzero, Nat.cast_zero, zero_div]
  have hfloor : base * rate.numerator / rate.denominator = ⌊(base : ℚ) * share⌋₊ := by
    rw [← hrate, rateValue, ← mul_div_assoc, ← Nat.cast_mul, Nat.floor_div_eq_div]
  unfold fee
  rw [if_neg hnumerator, hfloor, hminimum, hincrement]
  dsimp only
  split_ifs with hlow
  · exact (max_eq_right hlow).symm
  · omega

theorem mem_affordable_iff (h : DefaultFees wallet) :
    base ∈ Affordable wallet wallet.publisherRate buyerPays ↔ base ∈ Covered buyerPays := by
  have hsteam : fee base wallet.steamRate wallet = max ⌊(base : ℚ) * steamFeeRate⌋₊ 1 :=
    fee_eq_max h.minimum h.increment h.steamRate (by norm_num [steamFeeRate])
  have hpublisher : fee base wallet.publisherRate wallet =
      max ⌊(base : ℚ) * publisherFeeRate⌋₊ 1 := by
    apply fee_eq_max h.minimum h.increment
    · rw [h.publisherRate, publisherFeeRate]
      norm_num
    · norm_num [publisherFeeRate]
  have hpays : (calculate wallet wallet.publisherRate base).buyerPays =
      base + exampleFees base := by
    simp only [calculate, exampleFees, hsteam, hpublisher, h.steamBase]
    omega
  simp only [Affordable, Covered, Set.mem_ofPred_eq, h.increment, h.minimum, hpays, one_dvd,
    true_and]

/-- The quote reads the amounts of a wallet and not its currency. -/
theorem quoteFromBuyerCap_currency (cap : ℕ) (wallet : Wallet) (currency : MarketCurrency)
    (publisherFee : Option String) :
    quoteFromBuyerCap cap { wallet with currency } publisherFee =
      quoteFromBuyerCap cap wallet publisherFee := rfl

/-- At Steam's default fees the example of the web client shows the quote of the service. -/
theorem sellerReceives_eq_quote (h : DefaultFees wallet) (hprice : 3 ≤ buyerPays) :
    ∃ quote, quoteFromBuyerCap buyerPays wallet none = .ok quote ∧
      sellerReceives buyerPays = quote.base := by
  let currency : MarketCurrency := { wallet.currency with minorUnit := 2 }
  have hsound : Wallet.Sound { wallet with currency } := by
    constructor
    case minimum => exact h.minimum.ge
    case increment => exact h.increment.ge
    case grid => exact ⟨1, by rw [mul_one]; exact h.minimum.trans h.increment.symm⟩
    case minorUnit => exact Nat.le_succ 2
    case step =>
      show wallet.increment * 10 ^ 2 % 100 = 0
      exact Nat.mul_mod_left _ _
  have hfees : DefaultFees { wallet with currency } :=
    ⟨h.minimum, h.increment, h.steamRate, h.publisherRate, h.steamBase⟩
  have hgreatest := sellerReceives_isGreatest hprice
  rw [← quoteFromBuyerCap_currency buyerPays wallet currency none]
  have hrate : publisherRateOf { wallet with currency } none = .ok wallet.publisherRate := rfl
  rcases quoteFromBuyerCap_cases buyerPays hsound hrate with ⟨base, hquote, hbase⟩ | ⟨-, hempty⟩
  · refine ⟨_, hquote, ?_⟩
    have hsame : Affordable { wallet with currency } wallet.publisherRate buyerPays =
        Covered buyerPays := by
      ext amount
      exact mem_affordable_iff hfees
    rw [hsame] at hbase
    exact hgreatest.unique hbase
  · have hmem := (mem_affordable_iff hfees).mpr hgreatest.1
    rw [hempty] at hmem
    exact absurd hmem (Set.notMem_empty _)

theorem sellerReceives_eq_quote_euro :
    ∃ quote, quoteFromBuyerCap 115 euro none = .ok quote ∧ sellerReceives 115 = quote.base := by
  apply sellerReceives_eq_quote _ (by norm_num)
  constructor <;> norm_num [euro, rateValue]

end SteamBee.Web
