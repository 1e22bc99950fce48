import SteamBee.Inventory.Money

/-! Quotes are exact: the one from a cap is the largest that the cap affords, and one under
price rules keeps every bound of the rules. -/
namespace SteamBee.Inventory
open SteamData

/-! ## Wallets -/

structure Wallet.Sound (wallet : Wallet) : Prop where
  minimum : 1 ≤ wallet.minimum
  increment : 1 ≤ wallet.increment
  grid : wallet.increment ∣ wallet.minimum
  minorUnit : wallet.currency.minorUnit ≤ 3
  step : wallet.increment * 10 ^ wallet.currency.minorUnit % 100 = 0

variable {digits : String → Option ℕ} {value : Fields} {wallet : Wallet} {rate : Rate}
  {base base' cap amount : ℕ} {currency : MarketCurrency}

theorem toMinorUnits_ok (h : toMinorUnits amount currency = .ok base) :
    currency.minorUnit ≤ 3 ∧ amount * 10 ^ currency.minorUnit % 100 = 0 ∧
      base = amount * 10 ^ currency.minorUnit / 100 := by
  unfold toMinorUnits at h
  obtain ⟨hinput, h⟩ := Outcome.of_guard h
  obtain ⟨hexact, h⟩ := Outcome.of_guard h
  obtain ⟨-, h⟩ := Outcome.of_guard h
  push Not at hinput hexact
  exact ⟨hinput.2, hexact, (Except.ok.inj h).symm⟩

theorem walletOf_ok {id minorUnit : ℕ} {code country : String}
    (h : walletOf value id code country minorUnit = .ok wallet) :
    1 ≤ wallet.minimum ∧ 1 ≤ wallet.increment ∧ wallet.increment ∣ wallet.minimum := by
  unfold walletOf at h
  obtain ⟨minimum, -, h⟩ := Outcome.bind_eq_ok h
  obtain ⟨increment, -, h⟩ := Outcome.bind_eq_ok h
  obtain ⟨hgrid, h⟩ := Outcome.of_guard h
  obtain ⟨steamFee, -, h⟩ := Outcome.bind_eq_ok h
  obtain ⟨steamRate, -, h⟩ := Outcome.bind_eq_ok h
  obtain ⟨publisherFee, -, h⟩ := Outcome.bind_eq_ok h
  obtain ⟨publisherRate, -, h⟩ := Outcome.bind_eq_ok h
  obtain ⟨steamBase, -, h⟩ := Outcome.bind_eq_ok h
  obtain rfl := Except.ok.inj h
  push Not at hgrid
  exact ⟨hgrid.1, hgrid.2.1, Nat.dvd_of_mod_eq_zero hgrid.2.2⟩

/-- Whatever the runtime says of a currency: a wallet with more than three digits is rejected,
as its prices have no minor units. -/
theorem sound_of_parseWallet (h : parseWallet digits value = .ok wallet) : wallet.Sound := by
  unfold parseWallet at h
  obtain ⟨id, -, h⟩ := Outcome.bind_eq_ok h
  split at h
  next code country _ _ =>
    obtain ⟨-, h⟩ := Outcome.of_guard h
    split at h
    next => cases h
    next minorUnit _ =>
      obtain ⟨first, hfirst, h⟩ := Outcome.bind_eq_ok h
      obtain ⟨-, -, h⟩ := Outcome.bind_eq_ok h
      obtain ⟨priceStep, hstep, h⟩ := Outcome.bind_eq_ok h
      obtain rfl := Except.ok.inj h
      obtain ⟨hminimum, hincrement, hgrid⟩ := walletOf_ok hfirst
      obtain ⟨hunit, hexact, -⟩ := toMinorUnits_ok hstep
      exact ⟨hminimum, hincrement, hgrid, hunit, hexact⟩
  next => cases h

/-! ## Fees -/

/-- Rounding to a grid that has the minimum on it does not go below the minimum. -/
theorem minimum_le_round (h : wallet.Sound) {floor : ℕ} (hfloor : wallet.minimum ≤ floor) :
    wallet.minimum ≤
      (2 * floor + wallet.increment) / (2 * wallet.increment) * wallet.increment := by
  obtain ⟨k, hk⟩ := h.grid
  have hpos : 0 < 2 * wallet.increment := by
    have hincrement := h.increment
    omega
  have hsteps : k ≤ (2 * floor + wallet.increment) / (2 * wallet.increment) := by
    rw [Nat.le_div_iff_mul_le hpos]
    calc k * (2 * wallet.increment) = 2 * wallet.minimum := by rw [hk]; ring
      _ ≤ 2 * floor + wallet.increment := by omega
  calc wallet.minimum = k * wallet.increment := by rw [hk]; ring
    _ ≤ _ := Nat.mul_le_mul_right _ hsteps

/-- A larger base has no smaller fee. -/
theorem fee_mono (rate : Rate) (h : wallet.Sound) (hbase : base ≤ base') :
    fee base rate wallet ≤ fee base' rate wallet := by
  have hfloor : base * rate.numerator / rate.denominator ≤
      base' * rate.numerator / rate.denominator := by
    apply Nat.div_le_div_right
    exact Nat.mul_le_mul_right _ hbase
  unfold fee
  dsimp only
  split_ifs with hzero hlow hlow' hlow'
  · exact le_rfl
  · exact le_rfl
  · exact minimum_le_round h (Nat.le_of_not_le hlow')
  · exact absurd (hfloor.trans hlow') hlow
  · apply Nat.mul_le_mul_right
    apply Nat.div_le_div_right
    omega

theorem buyerPays_mono (h : wallet.Sound) (hbase : base ≤ base') :
    (calculate wallet rate base).buyerPays ≤ (calculate wallet rate base').buyerPays := by
  have hsteam := fee_mono wallet.steamRate h hbase
  have hpublisher := fee_mono rate h hbase
  simp only [calculate]
  omega

theorem base_le_buyerPays : base ≤ (calculate wallet rate base).buyerPays := by
  simp only [calculate]
  omega

/-! ## The quote from a cap -/

/-- The base amounts on the grid, from the minimum on, that the cap affords. -/
def Affordable (wallet : Wallet) (rate : Rate) (cap : ℕ) : Set ℕ :=
  {base | wallet.increment ∣ base ∧ wallet.minimum ≤ base ∧
    (calculate wallet rate base).buyerPays ≤ cap}

/-- The search goes over the affordable amounts, step by step of the grid. -/
theorem mem_passing_iff (rate : Rate) (cap : ℕ) (h : wallet.Sound) {step : ℕ} :
    step ∈ Bisection.Passing
        (fun step => decide ((calculate wallet rate (step * wallet.increment)).buyerPays ≤ cap))
        (wallet.minimum / wallet.increment) (cap / wallet.increment + 1) ↔
      step * wallet.increment ∈ Affordable wallet rate cap := by
  have hpos : 0 < wallet.increment := h.increment
  simp only [Bisection.Passing, Affordable, Set.mem_ofPred_eq, decide_eq_true_eq]
  constructor
  · rintro ⟨hlow, -, hpays⟩
    refine ⟨Dvd.intro_left step rfl, ?_, hpays⟩
    calc wallet.minimum = wallet.minimum / wallet.increment * wallet.increment :=
          (Nat.div_mul_cancel h.grid).symm
      _ ≤ step * wallet.increment := Nat.mul_le_mul_right _ hlow
  · rintro ⟨-, hlow, hpays⟩
    refine ⟨?_, ?_, hpays⟩
    · apply Nat.div_le_of_le_mul
      rwa [Nat.mul_comm]
    · apply Nat.lt_succ_of_le
      rw [Nat.le_div_iff_mul_le hpos]
      exact base_le_buyerPays.trans hpays

theorem passes_of_le (rate : Rate) (cap : ℕ) (h : wallet.Sound) (i j : ℕ) (hij : i ≤ j)
    (hj : decide ((calculate wallet rate (j * wallet.increment)).buyerPays ≤ cap) = true) :
    decide ((calculate wallet rate (i * wallet.increment)).buyerPays ≤ cap) = true := by
  apply decide_eq_true
  exact (buyerPays_mono h (Nat.mul_le_mul_right _ hij)).trans (of_decide_eq_true hj)

/-- What `quoteFromBuyerCap` returns when the publisher's fee is supported. -/
theorem quoteFromBuyerCap_cases (cap : ℕ) (h : wallet.Sound) {publisherFee : Option String}
    (hrate : publisherRateOf wallet publisherFee = .ok rate) :
    (∃ base, quoteFromBuyerCap cap wallet publisherFee = .ok (calculate wallet rate base) ∧
        IsGreatest (Affordable wallet rate cap) base) ∨
      quoteFromBuyerCap cap wallet publisherFee = .error belowMinimumFees ∧
        Affordable wallet rate cap = ∅ := by
  unfold quoteFromBuyerCap
  rw [hrate]
  rcases Bisection.last_spec (passes_of_le rate cap h) with
    ⟨step, hstep, hgreatest⟩ | ⟨hnone, hempty⟩
  · left
    refine ⟨step * wallet.increment, ?_, (mem_passing_iff rate cap h).mp hgreatest.1, ?_⟩
    · simp only [bind, Except.bind, hstep]
      rfl
    · rintro base ⟨⟨other, rfl⟩, hbase⟩
      rw [Nat.mul_comm] at hbase ⊢
      have hmem := (mem_passing_iff rate cap h).mpr ⟨Dvd.intro_left other rfl, hbase⟩
      exact Nat.mul_le_mul_right _ (hgreatest.2 hmem)
  · right
    constructor
    · simp only [bind, Except.bind, hnone]
    · apply Set.eq_empty_of_forall_notMem
      rintro base ⟨⟨other, rfl⟩, hbase⟩
      rw [Nat.mul_comm] at hbase
      have hmem := (mem_passing_iff rate cap h).mpr ⟨Dvd.intro_left other rfl, hbase⟩
      rw [hempty] at hmem
      exact hmem

/-- The quote from a cap has the largest base amount that the cap affords, and there is none if
and only if the cap affords no base amount at the fees of the wallet and of the publisher. -/
theorem quoteFromBuyerCap_optimal (h : parseWallet digits value = .ok wallet)
    (publisherFee : Option String) (cap : ℕ) :
    (∀ quote, quoteFromBuyerCap cap wallet publisherFee = .ok quote →
      ∃ rate, publisherRateOf wallet publisherFee = .ok rate ∧
        quote = calculate wallet rate quote.base ∧
          IsGreatest (Affordable wallet rate cap) quote.base) ∧
    ((∃ e, quoteFromBuyerCap cap wallet publisherFee = .error e) ↔
      ∀ rate, publisherRateOf wallet publisherFee = .ok rate → Affordable wallet rate cap = ∅) := by
  have hsound := sound_of_parseWallet h
  cases hrate : publisherRateOf wallet publisherFee with
  | error e =>
    have hthrows : quoteFromBuyerCap cap wallet publisherFee = .error e := by
      unfold quoteFromBuyerCap
      rw [hrate]
      rfl
    rw [hthrows]
    constructor
    · intro quote hquote
      cases hquote
    · constructor
      · intro _ rate hnone
        cases hnone
      · intro _
        exact ⟨e, rfl⟩
  | ok rate =>
    rcases quoteFromBuyerCap_cases cap hsound hrate with
      ⟨base, hquote, hgreatest⟩ | ⟨hthrows, hempty⟩
    · rw [hquote]
      constructor
      · intro quote heq
        obtain rfl := Except.ok.inj heq
        exact ⟨rate, rfl, rfl, hgreatest⟩
      · constructor
        · rintro ⟨e, he⟩
          cases he
        · intro hnone
          have hmem := hgreatest.1
          rw [hnone rate rfl] at hmem
          exact absurd hmem (Set.notMem_empty base)
    · rw [hthrows]
      constructor
      · intro quote hquote
        cases hquote
      · constructor
        · intro _ other hother
          obtain rfl := Except.ok.inj hother
          exact hempty
        · intro _
          exact ⟨_, rfl⟩

def euroWallet : Fields :=
  [("wallet_currency", .num (.integer 3)), ("wallet_country", .str "DE"),
    ("wallet_fee", .str "1"), ("wallet_fee_minimum", .str "1"), ("wallet_fee_percent", .str "0.05"),
    ("wallet_publisher_fee_percent_default", .str "0.10"), ("wallet_fee_base", .str "0")]

def euro : Wallet where
  currency := { id := 3, code := "EUR", minorUnit := 2, priceStep := some 1 }
  country := "DE"
  minimum := 1
  increment := 1
  steamRate := ⟨5, 100⟩
  publisherRate := ⟨10, 100⟩
  steamBase := 0

theorem parseWallet_euroWallet : parseWallet icuFractionDigits euroWallet = .ok euro := by rfl

theorem quoteFromBuyerCap_optimal_euro : ∃ wallet quote,
    parseWallet icuFractionDigits euroWallet = .ok wallet ∧
    quoteFromBuyerCap 115 wallet none = .ok quote ∧ quote.base = 100 ∧
      IsGreatest (Affordable wallet wallet.publisherRate 115) quote.base := by
  refine ⟨euro, ⟨100, 5, 10, 115⟩, parseWallet_euroWallet, by rfl, rfl, ?_⟩
  obtain ⟨rate, hrate, -, hgreatest⟩ :=
    (quoteFromBuyerCap_optimal parseWallet_euroWallet none 115).1 ⟨100, 5, 10, 115⟩ (by rfl)
  obtain rfl := Except.ok.inj hrate
  exact hgreatest

/-! ## Minor units -/

theorem toMinorUnitsSigned_natCast (amount : ℕ) (currency : MarketCurrency) :
    toMinorUnitsSigned amount currency = (toMinorUnits amount currency).map Nat.cast := by
  have hrest : (amount : ℤ) * 10 ^ currency.minorUnit % 100 =
      ((amount * 10 ^ currency.minorUnit % 100 : ℕ) : ℤ) := by
    push_cast
    rfl
  have hquotient : (amount : ℤ) * 10 ^ currency.minorUnit / 100 =
      ((amount * 10 ^ currency.minorUnit / 100 : ℕ) : ℤ) := by
    push_cast
    rfl
  unfold toMinorUnitsSigned toMinorUnits
  simp only [hrest, hquotient, Int.natAbs_natCast, ne_eq, Int.natCast_eq_zero]
  split_ifs <;> rfl

/-- Both conversions are exact, and each is the inverse of the other. -/
theorem toMinorUnitsSigned_eq_ok_iff {steamAmount amount : ℤ} :
    toMinorUnitsSigned steamAmount currency = .ok amount ↔
      fromMinorUnits amount currency = .ok steamAmount := by
  have hpos : (0 : ℤ) < 10 ^ currency.minorUnit := by positivity
  constructor
  · intro h
    unfold toMinorUnitsSigned at h
    obtain ⟨hinput, h⟩ := Outcome.of_guard h
    obtain ⟨hexact, h⟩ := Outcome.of_guard h
    obtain ⟨hsafe, h⟩ := Outcome.of_guard h
    obtain rfl := Except.ok.inj h
    push Not at hinput hexact
    have hback : steamAmount * 10 ^ currency.minorUnit / 100 * 100 =
        steamAmount * 10 ^ currency.minorUnit :=
      Int.ediv_mul_cancel (Int.dvd_of_emod_eq_zero hexact)
    unfold fromMinorUnits
    rw [hback, Int.mul_emod_left, Int.mul_ediv_cancel _ hpos.ne', if_neg (by omega),
      if_neg (by simp), if_neg (by omega)]
  · intro h
    unfold fromMinorUnits at h
    obtain ⟨hinput, h⟩ := Outcome.of_guard h
    obtain ⟨hexact, h⟩ := Outcome.of_guard h
    obtain ⟨hsafe, h⟩ := Outcome.of_guard h
    obtain rfl := Except.ok.inj h
    push Not at hinput hexact
    have hback : amount * 100 / 10 ^ currency.minorUnit * 10 ^ currency.minorUnit = amount * 100 :=
      Int.ediv_mul_cancel (Int.dvd_of_emod_eq_zero hexact)
    unfold toMinorUnitsSigned
    rw [hback, Int.mul_emod_left, Int.mul_ediv_cancel _ (by norm_num), if_neg (by omega),
      if_neg (by simp), if_neg (by omega)]

def Representable (currency : MarketCurrency) (amount : ℕ) : Prop :=
  100 ∣ amount * 10 ^ currency.minorUnit

theorem representable_of_dvd (h : wallet.Sound) (hdvd : wallet.increment ∣ amount) :
    Representable wallet.currency amount := by
  obtain ⟨k, rfl⟩ := hdvd
  unfold Representable
  rw [Nat.mul_right_comm]
  exact Dvd.dvd.mul_right (Nat.dvd_of_mod_eq_zero h.step) k

theorem increment_dvd_fee (base : ℕ) (rate : Rate) (h : wallet.Sound) :
    wallet.increment ∣ fee base rate wallet := by
  unfold fee
  dsimp only
  split_ifs
  · exact Nat.dvd_zero _
  · exact h.grid
  · exact Nat.dvd_mul_left _ _

/-- An amount that is not too large is converted, and back. -/
theorem toMinorUnits_of_representable (hunit : currency.minorUnit ≤ 3)
    (h : Representable currency amount) (hsmall : amount ≤ 10 ^ 12) :
    toMinorUnits amount currency = .ok (amount * 10 ^ currency.minorUnit / 100) := by
  have hpow : 10 ^ currency.minorUnit ≤ 10 ^ 3 := Nat.pow_le_pow_right (by norm_num) hunit
  have hmul : amount * 10 ^ currency.minorUnit ≤ 10 ^ 12 * 10 ^ 3 := Nat.mul_le_mul hsmall hpow
  have hdiv : amount * 10 ^ currency.minorUnit / 100 ≤ 10 ^ 12 * 10 ^ 3 / 100 :=
    Nat.div_le_div_right hmul
  have hsafe : maxSafeAmount = 9007199254740991 := by norm_num [maxSafeAmount]
  unfold toMinorUnits
  rw [if_neg (by omega), if_neg (by rw [not_not]; exact Nat.mod_eq_zero_of_dvd h),
    if_neg (by omega)]

theorem fromMinorUnits_of_toMinorUnits (h : toMinorUnits amount currency = .ok base) :
    fromMinorUnits base currency = .ok (amount : ℤ) := by
  rw [← toMinorUnitsSigned_eq_ok_iff, toMinorUnitsSigned_natCast, h]
  rfl

/-! ## Price rules -/

variable {settings : MarketPriceSettings} {reference quantity : ℕ} {publisherFee : Option String}
  {quote : Quote}

def WithinLimits (wallet : Wallet) (settings : MarketPriceSettings) (price : ℕ) : Prop :=
  ∃ amount, toMinorUnits price wallet.currency = .ok amount ∧
    (∀ minimum, settings.minBuyerPrice = some minimum → minimum ≤ amount) ∧
    ∀ maximum, settings.maxBuyerPrice = some maximum → amount ≤ maximum

theorem withinLimits_of_checkBounds {price : ℕ} (h : checkBounds wallet settings price = .ok ()) :
    WithinLimits wallet settings price := by
  unfold checkBounds at h
  obtain ⟨amount, hamount, h⟩ := Outcome.bind_eq_ok h
  obtain ⟨hbounds, -⟩ := Outcome.of_guard h
  simp only [Bool.or_eq_true, not_or, Bool.not_eq_true, Option.any_eq_false,
    decide_eq_false_iff_not, not_lt] at hbounds
  exact ⟨amount, hamount, hbounds.1, hbounds.2⟩

/-- What every quote under rules has passed. -/
theorem quoteWithRules_ok (h : quoteWithRules reference wallet publisherFee settings = .ok quote) :
    ∃ adjustment base, fromMinorUnits settings.adjustment wallet.currency = .ok adjustment ∧
      (quote.buyerCap : ℤ) = reference + adjustment ∧ quote.buyerCap ≤ 1000000000 ∧
      checkBounds wallet settings quote.buyerCap = .ok () ∧
      quoteFromBuyerCap quote.buyerCap wallet publisherFee = .ok base ∧
      checkBounds wallet settings base.buyerPays = .ok () ∧
      quote = { base := base.base, steamFee := base.steamFee, publisherFee := base.publisherFee,
                buyerPays := base.buyerPays, buyerCap := quote.buyerCap } := by
  unfold quoteWithRules at h
  obtain ⟨-, -, h⟩ := Outcome.bind_eq_ok h
  obtain ⟨-, h⟩ := Outcome.of_guard h
  obtain ⟨adjustment, hadjustment, h⟩ := Outcome.bind_eq_ok h
  dsimp only at h
  obtain ⟨hcap, h⟩ := Outcome.of_guard h
  obtain ⟨⟨⟩, hbounds, h⟩ := Outcome.bind_eq_ok h
  obtain ⟨base, hbase, h⟩ := Outcome.bind_eq_ok h
  obtain ⟨⟨⟩, hpays, h⟩ := Outcome.bind_eq_ok h
  obtain rfl := Except.ok.inj h
  refine ⟨adjustment, base, hadjustment, ?_, ?_, hbounds, hbase, hpays, rfl⟩
  · show ((reference + adjustment).toNat : ℤ) = _
    omega
  · show (reference + adjustment).toNat ≤ _
    omega

/-- The amounts that the preview of a sale shows, and what they were made from. -/
structure ExactPreview (quote : Quote) (currency : MarketCurrency) (quantity : ℕ)
    (preview : MarketSalePreview) : Prop where
  buyerPays : fromMinorUnits preview.buyerPaysPerItem currency = .ok (quote.buyerPays : ℤ)
  sellerReceives : fromMinorUnits preview.sellerReceivesPerItem currency = .ok (quote.base : ℤ)
  steamFee : fromMinorUnits preview.steamFeePerItem currency = .ok (quote.steamFee : ℤ)
  publisherFee : fromMinorUnits preview.publisherFeePerItem currency = .ok (quote.publisherFee : ℤ)
  totalBuyerPays : preview.totalBuyerPays = preview.buyerPaysPerItem * quantity
  totalSellerReceives : preview.totalSellerReceives = preview.sellerReceivesPerItem * quantity
  safe : preview.totalBuyerPays ≤ maxSafeAmount ∧ preview.totalSellerReceives ≤ maxSafeAmount

/-- What a quote under price rules keeps. -/
structure Honoured (reference : ℕ) (wallet : Wallet) (settings : MarketPriceSettings)
    (quote : Quote) : Prop where
  cap : ∃ adjustment, fromMinorUnits settings.adjustment wallet.currency = .ok adjustment ∧
    (quote.buyerCap : ℤ) = reference + adjustment
  within : quote.buyerPays ≤ quote.buyerCap
  capLimits : WithinLimits wallet settings quote.buyerCap
  priceLimits : WithinLimits wallet settings quote.buyerPays
  parts : quote.base + quote.steamFee + quote.publisherFee = quote.buyerPays
  preview : ∀ token expiresAt item quantity, quantity ≤ 100 → ∃ preview,
    salePreview token expiresAt item quantity quote wallet.currency = .ok preview ∧
      ExactPreview quote wallet.currency quantity preview

theorem total_of_representable (h : Representable currency amount) :
    amount * quantity * 10 ^ currency.minorUnit / 100 =
      amount * 10 ^ currency.minorUnit / 100 * quantity := by
  obtain ⟨k, hk⟩ := h
  rw [Nat.mul_right_comm, hk, Nat.mul_div_cancel_left _ (by norm_num), Nat.mul_assoc,
    Nat.mul_div_cancel_left _ (by norm_num)]

/-- All parts of a quote are whole minor units, so its preview is exact. -/
theorem exactPreview_of_representable (hunit : currency.minorUnit ≤ 3)
    (hpays : Representable currency quote.buyerPays) (hbase : Representable currency quote.base)
    (hsteam : Representable currency quote.steamFee)
    (hpublisher : Representable currency quote.publisherFee)
    (hparts : quote.base + quote.steamFee + quote.publisherFee = quote.buyerPays)
    (hsmall : quote.buyerPays ≤ 1000000000) (hquantity : quantity ≤ 100) (token : Uuid)
    (expiresAt : ℕ) (item : Item) : ∃ preview,
      salePreview token expiresAt item quantity quote currency = .ok preview ∧
        ExactPreview quote currency quantity preview := by
  have hconvert {amount : ℕ} (h : Representable currency amount) (hle : amount ≤ quote.buyerPays) :
      toMinorUnits amount currency = .ok (amount * 10 ^ currency.minorUnit / 100) :=
    toMinorUnits_of_representable hunit h (by omega)
  have htotal {amount : ℕ} (h : Representable currency amount) (hle : amount ≤ quote.buyerPays) :
      toMinorUnits (amount * quantity) currency =
        .ok (amount * 10 ^ currency.minorUnit / 100 * quantity) := by
    have hmul : amount * quantity ≤ 1000000000 * 100 := Nat.mul_le_mul (by omega) hquantity
    rw [toMinorUnits_of_representable hunit _ (by omega), total_of_representable h]
    unfold Representable
    rw [Nat.mul_right_comm]
    exact Dvd.dvd.mul_right h quantity
  have hsafe {amount : ℕ} (hle : amount ≤ quote.buyerPays) :
      amount * 10 ^ currency.minorUnit / 100 * quantity ≤ maxSafeAmount := by
    have hpow : 10 ^ currency.minorUnit ≤ 10 ^ 3 := Nat.pow_le_pow_right (by norm_num) hunit
    have hmul : amount * 10 ^ currency.minorUnit ≤ 1000000000 * 10 ^ 3 :=
      Nat.mul_le_mul (by omega) hpow
    have hdiv : amount * 10 ^ currency.minorUnit / 100 ≤ 10 ^ 10 := by omega
    calc amount * 10 ^ currency.minorUnit / 100 * quantity ≤ 10 ^ 10 * 100 :=
          Nat.mul_le_mul hdiv hquantity
      _ ≤ maxSafeAmount := by norm_num [maxSafeAmount]
  have hpaysOk := hconvert hpays le_rfl
  have hbaseOk := hconvert hbase (by omega)
  have hsteamOk := hconvert hsteam (by omega)
  have hpublisherOk := hconvert hpublisher (by omega)
  let shown (amount : ℕ) : ℕ := amount * 10 ^ currency.minorUnit / 100
  let preview : MarketSalePreview := {
    token, expiresAt
    assetId := item.assetId
    name := item.name
    quantity
    buyerPaysPerItem := shown quote.buyerPays
    sellerReceivesPerItem := shown quote.base
    steamFeePerItem := shown quote.steamFee
    publisherFeePerItem := shown quote.publisherFee
    totalBuyerPays := shown quote.buyerPays * quantity
    totalSellerReceives := shown quote.base * quantity
    currency }
  have hpreview : salePreview token expiresAt item quantity quote currency = .ok preview := by
    unfold salePreview
    rw [hpaysOk, hbaseOk, hsteamOk, hpublisherOk, htotal hpays le_rfl, htotal hbase (by omega)]
    rfl
  refine ⟨preview, hpreview, ?_⟩
  · constructor
    case buyerPays => exact fromMinorUnits_of_toMinorUnits hpaysOk
    case sellerReceives => exact fromMinorUnits_of_toMinorUnits hbaseOk
    case steamFee => exact fromMinorUnits_of_toMinorUnits hsteamOk
    case publisherFee => exact fromMinorUnits_of_toMinorUnits hpublisherOk
    case totalBuyerPays => rfl
    case totalSellerReceives => rfl
    case safe => exact ⟨hsafe le_rfl, hsafe (by omega)⟩

theorem honoured_of_quoteWithRules (h : wallet.Sound)
    (hquote : quoteWithRules reference wallet publisherFee settings = .ok quote) :
    Honoured reference wallet settings quote := by
  obtain ⟨adjustment, base, hadjustment, hcap, hsmall, hcapBounds, hbase, hpays, hparts⟩ :=
    quoteWithRules_ok hquote
  obtain ⟨rate, hrate⟩ : ∃ rate, publisherRateOf wallet publisherFee = .ok rate := by
    unfold quoteFromBuyerCap at hbase
    obtain ⟨rate, hrate, -⟩ := Outcome.bind_eq_ok hbase
    exact ⟨rate, hrate⟩
  rcases quoteFromBuyerCap_cases quote.buyerCap h hrate with
    ⟨amount, heq, hgreatest⟩ | ⟨hthrows, -⟩
  · obtain rfl := Except.ok.inj (heq.symm.trans hbase)
    obtain ⟨hgrid, -, hwithin⟩ := hgreatest.1
    obtain ⟨_, hamount, -⟩ := withinLimits_of_checkBounds hpays
    have hpaysRep : Representable wallet.currency (calculate wallet rate amount).buyerPays :=
      Nat.dvd_of_mod_eq_zero (toMinorUnits_ok hamount).2.1
    have hbaseRep := representable_of_dvd h hgrid
    have hpublisherRep := representable_of_dvd h (increment_dvd_fee amount rate h)
    -- Steam's fee is what is left of a whole number of minor units
    have hsteamRep : Representable wallet.currency (calculate wallet rate amount).steamFee := by
      unfold Representable at *
      have hsum : (calculate wallet rate amount).buyerPays * 10 ^ wallet.currency.minorUnit =
          (calculate wallet rate amount).steamFee * 10 ^ wallet.currency.minorUnit +
            (amount * 10 ^ wallet.currency.minorUnit +
              fee amount rate wallet * 10 ^ wallet.currency.minorUnit) := by
        simp only [calculate]
        ring
      rw [hsum] at hpaysRep
      exact (Nat.dvd_add_left (Nat.dvd_add hbaseRep hpublisherRep)).mp hpaysRep
    rw [hparts]
    constructor
    case cap => exact ⟨adjustment, hadjustment, hcap⟩
    case within => exact hwithin
    case capLimits => exact withinLimits_of_checkBounds hcapBounds
    case priceLimits => exact withinLimits_of_checkBounds hpays
    case parts => rfl
    case preview =>
      intro token expiresAt item quantity hquantity
      exact exactPreview_of_representable h.minorUnit hpaysRep hbaseRep hsteamRep hpublisherRep rfl
        (hwithin.trans hsmall) hquantity token expiresAt item
  · cases hthrows.symm.trans hbase

/-- Every quote under price rules keeps them, and the amounts that are shown of it are exact, as
the conversions between Steam's hundredths and minor units are inverse to each other. -/
theorem quoteWithRules_honours (h : parseWallet digits value = .ok wallet) (reference : ℕ)
    (publisherFee : Option String) (settings : MarketPriceSettings) :
    (∀ quote, quoteWithRules reference wallet publisherFee settings = .ok quote →
      Honoured reference wallet settings quote) ∧
    ∀ (steamAmount amount : ℤ) (currency : MarketCurrency),
      toMinorUnitsSigned steamAmount currency = .ok amount ↔
        fromMinorUnits amount currency = .ok steamAmount :=
  ⟨fun _ hquote => honoured_of_quoteWithRules (sound_of_parseWallet h) hquote,
    fun _ _ _ => toMinorUnitsSigned_eq_ok_iff⟩

theorem quoteWithRules_honours_euro : ∃ wallet,
    parseWallet icuFractionDigits euroWallet = .ok wallet ∧
    ∃ quote, quoteWithRules 115 wallet none { adjustment := -1, currencyId := some 3 } = .ok quote ∧
      quote.buyerPays = 112 ∧
      Honoured 115 wallet { adjustment := -1, currencyId := some 3 } quote := by
  refine ⟨euro, parseWallet_euroWallet, ⟨99, 4, 9, 112, 114⟩, by rfl, rfl, ?_⟩
  exact (quoteWithRules_honours parseWallet_euroWallet 115 none _).1 _ (by rfl)

end SteamBee.Inventory
