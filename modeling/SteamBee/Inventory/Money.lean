import SteamBee.Data.Bisection
import SteamBee.Data.Outcome
import SteamBee.Inventory.SteamData

/-! Wallets as Steam describes them, the fees of a sale, and the quotes: the price that a buyer
pays, from a cap on it or from the price rules of the account. -/
namespace SteamBee.Inventory
open SteamData

/-- `toMinorUnits` of an amount of either sign. -/
def toMinorUnitsSigned (steamAmount : ℤ) (currency : MarketCurrency) : Except ActionError ℤ :=
  if maxSafeAmount < steamAmount.natAbs ∨ 3 < currency.minorUnit then
    .error (appError "Market prices must be exact integer currency amounts." 409)
  else if steamAmount * 10 ^ currency.minorUnit % 100 ≠ 0 then
    .error (appError "Steam returned a price outside the wallet currency precision." 409)
  else if maxSafeAmount < (steamAmount * 10 ^ currency.minorUnit / 100).natAbs then
    .error (appError "Steam market price exceeds the supported limit." 409)
  else .ok (steamAmount * 10 ^ currency.minorUnit / 100)

def currencyCodes : List (ℕ × String) :=
  [(1, "USD"), (2, "GBP"), (3, "EUR"), (4, "CHF"), (5, "RUB"), (6, "PLN"), (7, "BRL"), (8, "JPY"),
    (9, "NOK"), (10, "IDR"), (11, "MYR"), (12, "PHP"), (13, "SGD"), (14, "THB"), (15, "VND"),
    (16, "KRW"), (17, "TRY"), (18, "UAH"), (19, "MXN"), (20, "CAD"), (21, "AUD"), (22, "NZD"),
    (23, "CNY"), (24, "INR"), (25, "CLP"), (26, "PEN"), (27, "COP"), (28, "ZAR"), (29, "HKD"),
    (30, "TWD"), (31, "SAR"), (32, "AED"), (33, "SEK"), (34, "ARS"), (35, "ILS"), (36, "BYN"),
    (37, "KZT"), (38, "KWD"), (39, "QAR"), (40, "CRC"), (41, "UYU"), (42, "BGN")]

/-- `maximumFractionDigits` of the currency formats that `Intl.NumberFormat` has with ICU 78. -/
def icuFractionDigits (code : String) : Option ℕ :=
  if code ∈ ["JPY", "IDR", "VND", "KRW", "CLP", "COP"] then some 0
  else if code = "KWD" then some 3
  else some 2

def unsupportedFee : ActionError := appError "Steam returned an unsupported market fee." 502

/-- `/^(?:0|1)(?:\.\d{1,8})?$/`: the whole part and the fraction. -/
def rateDigits : List Char → Option (Char × List Char)
  | [whole] => if whole = '0' ∨ whole = '1' then some (whole, []) else none
  | whole :: '.' :: fraction =>
    if (whole = '0' ∨ whole = '1') ∧ fraction ≠ [] ∧ fraction.length ≤ 8 ∧ fraction.all Char.isDigit
    then some (whole, fraction) else none
  | _ => none

def parseRate (raw : String) : Except ActionError Rate :=
  match rateDigits raw.toList with
  | none => .error unsupportedFee
  | some (whole, fraction) =>
    let numerator := Nat.ofDigitChars 10 (whole :: fraction) 0
    let denominator := 10 ^ fraction.length
    if denominator < numerator then .error unsupportedFee else .ok ⟨numerator, denominator⟩

def isCountry (s : String) : Bool := s.toList.length == 2 && s.toList.all Char.isUpper

def steamFeeText (value : Fields) : Except ActionError String :=
  match get value "wallet_fee" with
  | some (.num (.integer 0)) | some (.str "0") => .ok "0"
  | _ => stringOf (get value "wallet_fee_percent")

/-- New wallets express fee rounding via `market_minimum` and `currency_increment`. -/
def steamBaseOf (value : Fields) : Except ActionError ℕ :=
  if (get value "wallet_market_minimum").isSome then .ok 0
  else integer (orElse (get value "wallet_fee_base") (some (.num (.integer 0)))) maxAmount

def walletOf (value : Fields) (id : ℕ) (code country : String) (minorUnit : ℕ) :
    Except ActionError Wallet := do
  let minimum ← integer
    (orElse (get value "wallet_market_minimum") (get value "wallet_fee_minimum")) maxAmount
  let increment ← integer
    (orElse (get value "wallet_currency_increment") (some (.num (.integer 1)))) maxAmount
  if minimum < 1 ∨ increment < 1 ∨ minimum % increment ≠ 0 then
    .error (appError "Steam wallet price increments are unsupported." 409)
  else do
    let steamFee ← steamFeeText value
    let steamRate ← parseRate steamFee
    let publisherFee ← stringOf (get value "wallet_publisher_fee_percent_default")
    let publisherRate ← parseRate publisherFee
    let steamBase ← steamBaseOf value
    return { currency := { id, code, minorUnit }, country, minimum, increment, steamRate,
             publisherRate, steamBase }

/-- `maximumFractionDigits` is what the runtime says of a currency: it differs between releases
of ICU. -/
def parseWallet (maximumFractionDigits : String → Option ℕ) (value : Fields) :
    Except ActionError Wallet := do
  let id ← integer (get value "wallet_currency") 1000
  match currencyCodes.lookup id, get value "wallet_country" with
  | some code, some (.str country) =>
    if !isCountry country then
      .error (appError ("Steam wallet currency or country is unavailable. Open the Steam " ++
        "Community Market first.") 409)
    else
      match maximumFractionDigits code with
      | none => .error (appError "Steam wallet currency is unsupported." 409)
      | some minorUnit => do
        let wallet ← walletOf value id code country minorUnit
        let _ ← toMinorUnits wallet.minimum wallet.currency
        let priceStep ← toMinorUnits wallet.increment wallet.currency
        return { wallet with currency := { wallet.currency with priceStep := some priceStep } }
  | _, _ =>
    .error (appError ("Steam wallet currency or country is unavailable. Open the Steam " ++
      "Community Market first.") 409)

def fee (base : ℕ) (rate : Rate) (wallet : Wallet) : ℕ :=
  if rate.numerator = 0 then 0
  else
    let floor := base * rate.numerator / rate.denominator
    if floor ≤ wallet.minimum then wallet.minimum
    else (2 * floor + wallet.increment) / (2 * wallet.increment) * wallet.increment

structure BaseQuote where
  base : ℕ
  steamFee : ℕ
  publisherFee : ℕ
  buyerPays : ℕ
  deriving DecidableEq, Repr

def calculate (wallet : Wallet) (publisherRate : Rate) (base : ℕ) : BaseQuote :=
  let steamFee := fee base wallet.steamRate wallet + wallet.steamBase
  let publisher := fee base publisherRate wallet
  { base, steamFee, publisherFee := publisher, buyerPays := base + steamFee + publisher }

def publisherRateOf (wallet : Wallet) : Option String → Except ActionError Rate
  | none => .ok wallet.publisherRate
  | some fee => parseRate fee

def belowMinimumFees : ActionError :=
  appError "The current market price cannot cover Steam's minimum fees." 409

/-- The search goes over the multiples of the increment, from the minimum up to the cap. -/
def quoteFromBuyerCap (buyerCap : ℕ) (wallet : Wallet) (publisherFee : Option String) :
    Except ActionError BaseQuote := do
  let publisherRate ← publisherRateOf wallet publisherFee
  let at_ (step : ℕ) := calculate wallet publisherRate (step * wallet.increment)
  match Bisection.last (fun step => decide ((at_ step).buyerPays ≤ buyerCap))
      (wallet.minimum / wallet.increment) (buyerCap / wallet.increment + 1) with
  | none => .error belowMinimumFees
  | some best => return at_ best

def outsidePriceLimits : ActionError :=
  appError "The buyer price is outside your saved price limits. No listing was submitted." 409

/-- A price outside the saved limits is rejected, never clamped. -/
def checkBounds (wallet : Wallet) (settings : MarketPriceSettings) (steamPrice : ℕ) :
    Except ActionError Unit := do
  let amount ← toMinorUnits steamPrice wallet.currency
  if settings.minBuyerPrice.any (fun minimum => decide (amount < minimum)) ||
      settings.maxBuyerPrice.any (fun maximum => decide (maximum < amount)) then
    .error outsidePriceLimits
  else .ok ()

/-- Apply explicit buyer-price rules; never clamp or round a user's boundaries. -/
def quoteWithRules (reference : ℕ) (wallet : Wallet) (publisherFee : Option String)
    (settings : MarketPriceSettings) : Except ActionError Quote := do
  validatePriceSettings wallet settings
  if reference < 1 ∨ 1000000000 < reference ∨ reference % wallet.increment ≠ 0 then
    .error (appError "Steam returned an unsupported reference market price." 409)
  else do
    let adjustment ← fromMinorUnits settings.adjustment wallet.currency
    let cap : ℤ := reference + adjustment
    if cap < 1 ∨ 1000000000 < cap then
      .error (appError "The adjusted buyer price is outside the supported range." 409)
    else do
      let buyerCap := cap.toNat
      checkBounds wallet settings buyerCap
      let quote ← quoteFromBuyerCap buyerCap wallet publisherFee
      -- the fee grid can leave a gap below the cap; the price must still honour the lower bound
      checkBounds wallet settings quote.buyerPays
      return { base := quote.base, steamFee := quote.steamFee, publisherFee := quote.publisherFee,
               buyerPays := quote.buyerPays, buyerCap }

end SteamBee.Inventory
