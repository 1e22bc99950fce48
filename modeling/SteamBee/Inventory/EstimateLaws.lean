import SteamBee.Inventory.CompleteListings
import SteamBee.Inventory.OrderBook

/-! The estimate that the price overview shows of an item and the quote of its sale: where they
agree on the same answers of Steam, and where they do not. -/
namespace SteamBee.Inventory
open Text SteamData Responses

variable {digits : String → Option ℕ} {wallet : Wallet} {source : OrderSource}
  {settings : MarketPriceSettings} {item : Item} {html : List Char} {data : Fields}
  {price reference quantity : ℕ} {quote : Quote} {preview : MarketSalePreview}
  {estimate : PriceEstimate} {name : String} {value : Fields} {publisherFee : Option String}

/-! ## Reads -/

/-- Both read the same text, though their errors differ. -/
theorem readPage_toOption (outcome : Except ActionError Response) :
    (readPage outcome).toOption = (outcome >>= responseText).toOption := by
  cases outcome with
  | error e => rfl
  | ok response =>
    simp only [readPage, bind, Except.bind, responseText]
    by_cases hlimited : response.status = 429
    · have hok : response.ok = false := by
        unfold Response.ok
        rw [hlimited]
        rfl
      rw [if_pos hlimited, hok]
      rfl
    · rw [if_neg hlimited]
      cases response.ok with
      | false => rfl
      | true =>
        simp only [Bool.not_true, Bool.false_eq_true, ↓reduceIte]
        cases response.body with
        | none => rfl
        | some body =>
          dsimp only
          have hbytes : maxBodyBytes = 8 * 1024 * 1024 := rfl
          by_cases hlarge : maxBodyBytes < body.1
          · rw [if_pos hlarge, if_pos (hbytes ▸ hlarge)]
            rfl
          · rw [if_neg hlarge, if_neg (hbytes ▸ hlarge)]
            rfl

theorem readPage_eq_ok_iff {outcome : Except ActionError Response} :
    readPage outcome = .ok html ↔ (outcome >>= responseText) = .ok html := by
  rw [← Outcome.toOption_eq_some_iff, readPage_toOption, Outcome.toOption_eq_some_iff]

theorem orderPrice_eq_some_iff {field : Option Json} :
    orderPrice field = .ok (some price) ↔ integer field maxAmount = .ok price ∧ 1 ≤ price := by
  have hnone {field : Option Json}
      (hlow : ∀ found, integer field maxAmount = .ok found → found = 0) :
      (Except.ok none : Except ReadPriceError (Option ℕ)) = .ok (some price) ↔
        integer field maxAmount = .ok price ∧ 1 ≤ price := by
    constructor
    · intro h
      cases h
    · rintro ⟨h, hprice⟩
      have hzero := hlow price h
      omega
  unfold orderPrice
  split
  · apply hnone
    intro found h
    cases h
  · apply hnone
    intro found h
    cases h
  · apply hnone
    rintro _ ⟨⟩
    rfl
  · apply hnone
    rintro _ ⟨⟩
    rfl
  · cases hfield : integer field maxAmount with
    | error e =>
      constructor
      · intro h
        cases h
      · rintro ⟨h, -⟩
        cases h
    | ok found =>
      dsimp only
      split_ifs with hsmall
      · constructor
        · intro h
          cases h
        · rintro ⟨h, hprice⟩
          obtain rfl := Except.ok.inj h
          omega
      · constructor
        · intro h
          obtain rfl := Option.some.inj (Except.ok.inj h)
          exact ⟨rfl, Nat.not_lt.mp hsmall⟩
        · rintro ⟨h, -⟩
          rw [Except.ok.inj h]

theorem fetch_eq_ok_iff {outcome : Except ActionError Response} : fetch outcome = .ok data ↔
    ∃ body, (outcome >>= responseText) = .ok body ∧ parseObject body = some data := by
  constructor
  · intro h
    obtain ⟨response, rfl, hjson⟩ := Outcome.bind_eq_ok h
    unfold responseJson at hjson
    obtain ⟨body, hbody, hjson⟩ := Outcome.bind_eq_ok hjson
    refine ⟨body, hbody, ?_⟩
    split at hjson
    next fields hobject => rw [hobject, Except.ok.inj hjson]
    next => cases hjson
  · rintro ⟨body, hbody, hobject⟩
    obtain ⟨response, rfl, htext⟩ := Outcome.bind_eq_ok hbody
    unfold fetch responseJson
    simp only [bind, Except.bind, htext, hobject]
    rfl

/-! ## The book -/

/-- The same item number is read from the page. -/
def SameItem (html : List Char) : Prop :=
  parseListingOrderBook html = none →
    firstMatch (spreadAt isId) html = firstMatch (spreadAt isDigits) html

def SamePrices (data data' : Fields) : Prop :=
  ∀ mode, get data (sideOf mode) = get data' (sideOf mode)

theorem readerOrderBook_of_listing (hsame : SameItem html)
    (h : listingOrderBook wallet source html = .ok data) (hsuccess : success (get data "success")) :
    ∃ data', readerOrderBook wallet source html = .ok data' ∧ SamePrices data data' := by
  unfold listingOrderBook at h
  unfold readerOrderBook
  cases hbook : parseListingOrderBook html with
  | some book =>
    rw [hbook] at h
    obtain ⟨hcurrency, h⟩ := Outcome.of_guard h
    obtain rfl := Except.ok.inj h
    dsimp only
    rw [if_neg hcurrency]
    refine ⟨_, rfl, ?_⟩
    intro mode
    cases mode with
    | lowestSellOrder => rfl
    | highestBuyOrder => rfl
  | none =>
    simp only [hbook, ← hsame hbook] at h
    dsimp only
    cases hitem : firstMatch (spreadAt isId) html with
    | none =>
      rw [hitem] at h
      cases h
    | some itemId =>
      rw [hitem] at h
      obtain ⟨body, hbody, hobject⟩ := fetch_eq_ok_iff.mp h
      simp only [readPage_eq_ok_iff.mpr hbody, bind, Except.bind, hobject, hsuccess, Bool.not_true,
        Bool.false_eq_true, ↓reduceIte]
      exact ⟨data, rfl, fun _ => rfl⟩

theorem listing_of_readerOrderBook (hsame : SameItem html)
    (h : readerOrderBook wallet source html = .ok data) :
    ∃ data', listingOrderBook wallet source html = .ok data' ∧
      success (get data' "success") = true ∧ SamePrices data data' := by
  unfold readerOrderBook at h
  unfold listingOrderBook
  cases hbook : parseListingOrderBook html with
  | some book =>
    rw [hbook] at h
    obtain ⟨hcurrency, h⟩ := Outcome.of_guard h
    obtain rfl := Except.ok.inj h
    dsimp only
    rw [if_neg hcurrency]
    refine ⟨_, rfl, rfl, ?_⟩
    intro mode
    cases mode with
    | lowestSellOrder => rfl
    | highestBuyOrder => rfl
  | none =>
    simp only [hbook, hsame hbook] at h
    dsimp only
    cases hitem : firstMatch (spreadAt isDigits) html with
    | none =>
      rw [hitem] at h
      cases h
    | some itemId =>
      rw [hitem] at h
      obtain ⟨body, hbody, h⟩ := Outcome.bind_eq_ok h
      cases hobject : parseObject body with
      | none =>
        rw [hobject] at h
        cases h
      | some fields =>
        rw [hobject] at h
        obtain ⟨hsuccess, h⟩ := Outcome.of_guard h
        obtain rfl := Except.ok.inj h
        exact ⟨fields, fetch_eq_ok_iff.mpr ⟨body, readPage_eq_ok_iff.mp hbody, hobject⟩,
          by simpa using hsuccess, fun _ => rfl⟩

theorem referencePrice_eq_ok_iff : referencePrice settings data = .ok price ↔
    success (get data "success") = true ∧
      orderPrice (get data (sideOf settings.priceMode)) = .ok (some price) := by
  rw [orderPrice_eq_some_iff]
  unfold referencePrice
  dsimp only
  constructor
  · intro h
    obtain ⟨hguard, h⟩ := Outcome.of_guard h
    obtain ⟨found, hfound, h⟩ := Outcome.bind_eq_ok h
    obtain ⟨hsmall, h⟩ := Outcome.of_guard h
    obtain rfl := Except.ok.inj h
    simp only [Bool.or_eq_true, Bool.not_eq_true', not_or, Bool.not_eq_false] at hguard
    exact ⟨hguard.1, hfound, Nat.not_lt.mp hsmall⟩
  · rintro ⟨hsuccess, hprice, hpositive⟩
    have hpresent : isMissing (get data (sideOf settings.priceMode)) = false := by
      unfold isMissing
      split
      next heq =>
        rw [heq] at hprice
        cases hprice
      next heq =>
        rw [heq] at hprice
        cases hprice
      next => rfl
    rw [hsuccess, hpresent, if_neg (by decide), hprice]
    simp only [bind, Except.bind]
    rw [if_neg (Nat.not_lt.mpr hpositive)]
    rfl

/-! ## The two quotes -/

theorem saleQuote_ok (h : saleQuote item wallet settings source = .ok quote) :
    ∃ name html data reference, item.marketHashName = some name ∧ name.isEmpty = false ∧
      item.marketable = true ∧ (source.listing >>= responseText) = .ok html ∧
      listingOrderBook wallet source html = .ok data ∧
      referencePrice settings data = .ok reference ∧
      quoteWithRules reference wallet item.publisherFee settings = .ok quote := by
  unfold saleQuote at h
  obtain ⟨_, hitem, h⟩ := Outcome.bind_eq_ok h
  obtain ⟨response, hresponse, h⟩ := Outcome.bind_eq_ok h
  obtain ⟨html, hhtml, h⟩ := Outcome.bind_eq_ok h
  obtain ⟨data, hdata, h⟩ := Outcome.bind_eq_ok h
  obtain ⟨reference, hreference, h⟩ := Outcome.bind_eq_ok h
  obtain ⟨hguard, -⟩ := Outcome.of_guard hitem
  simp only [Bool.or_eq_true, Bool.not_eq_true', not_or, Bool.not_eq_false] at hguard
  cases hname : item.marketHashName with
  | none =>
    rw [hname] at hguard
    exact absurd rfl hguard.2
  | some name =>
    rw [hname] at hguard
    refine ⟨name, html, data, reference, rfl, by simpa using hguard.2, hguard.1, ?_, hdata,
      hreference, h⟩
    rw [hresponse]
    exact hhtml

theorem saleQuote_eq_ok (hname : item.marketHashName = some name) (hfull : name.isEmpty = false)
    (hmarketable : item.marketable = true) (hhtml : (source.listing >>= responseText) = .ok html)
    (hdata : listingOrderBook wallet source html = .ok data)
    (hreference : referencePrice settings data = .ok reference)
    (hquote : quoteWithRules reference wallet item.publisherFee settings = .ok quote) :
    saleQuote item wallet settings source = .ok quote := by
  obtain ⟨response, hresponse, htext⟩ := Outcome.bind_eq_ok hhtml
  have hitem : assertMarketable item = .ok () := by
    unfold assertMarketable
    rw [hname, hmarketable, if_neg (by simp [hfull])]
  unfold saleQuote
  simp only [hitem, hresponse, htext, hdata, hreference, bind, Except.bind]
  exact hquote

theorem observation_ok (settings : MarketPriceSettings) {sides : Option ℕ × Option ℕ}
    (h : observation name wallet source = .ok sides) : ∃ html data,
      (source.listing >>= responseText) = .ok html ∧
      readerOrderBook wallet source html = .ok data ∧
      ∀ mode, orderPrice (get data (sideOf mode)) =
        .ok (referenceOf { settings with priceMode := mode } sides) := by
  unfold observation at h
  obtain ⟨-, h⟩ := Outcome.of_guard h
  obtain ⟨html, hhtml, h⟩ := Outcome.bind_eq_ok h
  obtain ⟨data, hdata, h⟩ := Outcome.bind_eq_ok h
  obtain ⟨lowest, hlowest, h⟩ := Outcome.bind_eq_ok h
  obtain ⟨highest, hhighest, h⟩ := Outcome.bind_eq_ok h
  obtain rfl := Except.ok.inj h
  refine ⟨html, data, readPage_eq_ok_iff.mp hhtml, hdata, ?_⟩
  intro mode
  cases mode with
  | lowestSellOrder => exact hlowest
  | highestBuyOrder => exact hhighest

/-- What the overview must have read for an estimate. -/
theorem estimate_eq_some_iff :
    (overviewRow (variantOf item) wallet settings source).estimate = some estimate ↔
      ∃ name sides reference, item.marketHashName = some name ∧ name.isEmpty = false ∧
        item.marketable = true ∧ observation name wallet source = .ok sides ∧
        referenceOf settings sides = some reference ∧ 1 ≤ reference ∧
        (∃ raw, toMinorUnits reference wallet.currency = .ok raw) ∧
        estimateOf reference wallet item.publisherFee settings = .ok estimate := by
  unfold overviewRow
  constructor
  · intro h
    split at h
    next => cases h
    next name hname =>
      rw [Option.filter_eq_some_iff] at hname
      obtain ⟨hname, hmarketable⟩ := hname
      simp only [Bool.and_eq_true, Bool.not_eq_true'] at hmarketable
      split at h
      next => cases h
      next sides hsides =>
        split at h
        next => cases h
        next reference hreference =>
          rw [Option.filter_eq_some_iff, decide_eq_true_eq] at hreference
          split at h
          next => cases h
          next raw hraw =>
            split at h
            next => cases h
            next found hfound =>
              obtain rfl := Option.some.inj h
              exact ⟨name, sides, reference, hname, hmarketable.2, hmarketable.1, hsides,
                hreference.1, hreference.2, ⟨raw, hraw⟩, hfound⟩
  · rintro ⟨name, sides, reference, hname, hfull, hmarketable, hsides, hreference, hpositive,
      ⟨raw, hraw⟩, hestimate⟩
    have hfilter : (variantOf item).marketHashName.filter
        (fun name => (variantOf item).marketable && !name.isEmpty) = some name := by
      rw [Option.filter_eq_some_iff]
      exact ⟨hname, by simp [variantOf, hmarketable, hfull]⟩
    have hprice : (referenceOf settings sides).filter (fun price => decide (1 ≤ price)) =
        some reference := by
      rw [Option.filter_eq_some_iff]
      exact ⟨hreference, decide_eq_true hpositive⟩
    have hestimate : estimateOf reference wallet (variantOf item).publisherFee settings =
        .ok estimate := hestimate
    simp only [hfilter, hsides, hprice, hraw, hestimate]

/-- What a sale shows of a quote is what an estimate shows of it. -/
theorem salePreview_ok {token : Uuid} {expiresAt : ℕ} {currency : MarketCurrency}
    (h : salePreview token expiresAt item quantity quote currency = .ok preview) :
    toMinorUnits quote.buyerPays currency = .ok preview.buyerPaysPerItem ∧
      toMinorUnits quote.base currency = .ok preview.sellerReceivesPerItem := by
  unfold salePreview at h
  obtain ⟨buyerPays, hbuyer, h⟩ := Outcome.bind_eq_ok h
  obtain ⟨sellerReceives, hseller, h⟩ := Outcome.bind_eq_ok h
  obtain ⟨steamFee, -, h⟩ := Outcome.bind_eq_ok h
  obtain ⟨publisherFee, -, h⟩ := Outcome.bind_eq_ok h
  obtain ⟨totalBuyerPays, -, h⟩ := Outcome.bind_eq_ok h
  obtain ⟨totalSellerReceives, -, h⟩ := Outcome.bind_eq_ok h
  obtain rfl := Except.ok.inj h
  exact ⟨hbuyer, hseller⟩

theorem reference_of_quoteWithRules
    (h : quoteWithRules reference wallet publisherFee settings = .ok quote) :
    1 ≤ reference ∧ reference ≤ 1000000000 ∧ wallet.increment ∣ reference := by
  unfold quoteWithRules at h
  obtain ⟨-, -, h⟩ := Outcome.bind_eq_ok h
  obtain ⟨hreference, -⟩ := Outcome.of_guard h
  push Not at hreference
  exact ⟨hreference.1, hreference.2.1, Nat.dvd_of_mod_eq_zero hreference.2.2⟩

/-- A reference that can be quoted can be shown. -/
theorem toMinorUnits_reference (h : wallet.Sound)
    (hquote : quoteWithRules reference wallet publisherFee settings = .ok quote) :
    ∃ raw, toMinorUnits reference wallet.currency = .ok raw := by
  obtain ⟨-, hsmall, hgrid⟩ := reference_of_quoteWithRules hquote
  exact ⟨_, toMinorUnits_of_representable h.minorUnit (representable_of_dvd h hgrid) (by omega)⟩

/-- The other side of the book, which a sale does not read, can be read too. -/
def BothSides (wallet : Wallet) (source : OrderSource) : Prop :=
  ∀ html data mode, (source.listing >>= responseText) = .ok html →
    readerOrderBook wallet source html = .ok data →
      ∃ found, orderPrice (get data (sideOf mode)) = .ok found

/-- An estimate is what the sale quotes, if both read the same item number from the page. A sale
that is quoted has an estimate, if moreover the name of the item and both sides of the book are
supported. -/
theorem estimate_agrees (h : parseWallet digits value = .ok wallet) (item : Item)
    (settings : MarketPriceSettings) (source : OrderSource)
    (hsame : ∀ html, (source.listing >>= responseText) = .ok html → SameItem html) :
    (∀ estimate, (overviewRow (variantOf item) wallet settings source).estimate = some estimate →
      ∃ quote, saleQuote item wallet settings source = .ok quote ∧
        ∀ token expiresAt quantity, quantity ≤ 100 → ∃ preview,
          salePreview token expiresAt item quantity quote wallet.currency = .ok preview ∧
            estimate = ⟨preview.buyerPaysPerItem, preview.sellerReceivesPerItem⟩) ∧
    (item.marketHashName.all isReadableName → BothSides wallet source →
      ∀ quote token expiresAt quantity preview, saleQuote item wallet settings source = .ok quote →
        salePreview token expiresAt item quantity quote wallet.currency = .ok preview →
          (overviewRow (variantOf item) wallet settings source).estimate =
            some ⟨preview.buyerPaysPerItem, preview.sellerReceivesPerItem⟩) := by
  have hsound := sound_of_parseWallet h
  constructor
  · intro estimate hestimate
    obtain ⟨name, sides, reference, hname, hfull, hmarketable, hsides, hreference, -, -,
      hestimate⟩ := estimate_eq_some_iff.mp hestimate
    obtain ⟨html, data, hhtml, hdata, hprices⟩ := observation_ok settings hsides
    obtain ⟨data', hdata', hsuccess, hboth⟩ := listing_of_readerOrderBook (hsame html hhtml) hdata
    have hprice := hprices settings.priceMode
    rw [hreference, hboth] at hprice
    obtain ⟨quote, hquote, hshown⟩ := Outcome.bind_eq_ok hestimate
    obtain ⟨buyerPays, hbuyer, hshown⟩ := Outcome.bind_eq_ok hshown
    obtain ⟨sellerReceives, hseller, hshown⟩ := Outcome.bind_eq_ok hshown
    obtain rfl := Except.ok.inj hshown
    refine ⟨quote, saleQuote_eq_ok hname hfull hmarketable hhtml hdata'
      (referencePrice_eq_ok_iff.mpr ⟨hsuccess, hprice⟩) hquote, ?_⟩
    intro token expiresAt quantity hquantity
    obtain ⟨preview, hpreview, -⟩ :=
      (honoured_of_quoteWithRules hsound hquote).preview token expiresAt item quantity hquantity
    obtain ⟨hbuyer', hseller'⟩ := salePreview_ok hpreview
    obtain rfl := Except.ok.inj (hbuyer.symm.trans hbuyer')
    obtain rfl := Except.ok.inj (hseller.symm.trans hseller')
    exact ⟨preview, hpreview, rfl⟩
  · intro hreadable hbothSides quote token expiresAt quantity preview hquote hpreview
    obtain ⟨name, html, data, reference, hname, hfull, hmarketable, hhtml, hdata, hreference,
      hrules⟩ := saleQuote_ok hquote
    obtain ⟨hsuccess, hprice⟩ := referencePrice_eq_ok_iff.mp hreference
    obtain ⟨data', hdata', hboth⟩ := readerOrderBook_of_listing (hsame html hhtml) hdata hsuccess
    rw [hboth] at hprice
    obtain ⟨lowest, hlowest⟩ := hbothSides html data' .lowestSellOrder hhtml hdata'
    obtain ⟨highest, hhighest⟩ := hbothSides html data' .highestBuyOrder hhtml hdata'
    rw [hname] at hreadable
    have hsides : observation name wallet source = .ok (lowest, highest) := by
      have hlowest : orderPrice (get data' "lowest_sell_order") = .ok lowest := hlowest
      have hhighest : orderPrice (get data' "highest_buy_order") = .ok highest := hhighest
      unfold observation
      rw [if_neg (by simpa using hreadable)]
      simp only [readPage_eq_ok_iff.mpr hhtml, hdata', hlowest, hhighest, bind, Except.bind]
      rfl
    have hside : referenceOf settings (lowest, highest) = some reference := by
      unfold referenceOf
      cases hmode : settings.priceMode with
      | lowestSellOrder =>
        rw [hmode] at hprice
        exact Except.ok.inj (hlowest.symm.trans hprice)
      | highestBuyOrder =>
        rw [hmode] at hprice
        exact Except.ok.inj (hhighest.symm.trans hprice)
    obtain ⟨hbuyer, hseller⟩ := salePreview_ok hpreview
    apply estimate_eq_some_iff.mpr
    refine ⟨name, (lowest, highest), reference, hname, hfull, hmarketable, hsides, hside,
      (reference_of_quoteWithRules hrules).1, toMinorUnits_reference hsound hrules, ?_⟩
    unfold estimateOf
    simp only [hrules, hbuyer, hseller, bind, Except.bind]
    rfl

/-! ## Where they differ -/

def cardNamed (marketHashName : String) : Item where
  assetId := "1"
  variantId := "753:6:9:0"
  name := "Card"
  marketHashName := some marketHashName
  quantity := 2
  marketable := true
  group := "9_0"
  publisherFee := none

def spreadSource (page highest : String) (hasZero : Bool) : OrderSource where
  listing := .ok { status := 200, body := some (0, page.toList) }
  histogram := fun itemId =>
    if itemId = "0" ∧ !hasZero then respond []
    else respond [("success", .bool true), ("lowest_sell_order", .str "115"),
      ("highest_buy_order", .str highest)]

def pageZero : String := "Market_LoadOrderSpread(0)"

def pageSeven : String := "Market_LoadOrderSpread(7)"

theorem sameItem_pageSeven (highest : String) (hasZero : Bool) (html : List Char)
    (h : ((spreadSource pageSeven highest hasZero).listing >>= responseText) = .ok html) :
    SameItem html := by
  obtain rfl : pageSeven.toList = html := Except.ok.inj h
  intro _
  decide +kernel

theorem estimate_agrees_pageSeven : ∃ quote,
    saleQuote (cardNamed "9-Card") euro {} (spreadSource pageSeven "100" true) = .ok quote ∧
      ∃ preview, salePreview 1 0 (cardNamed "9-Card") 1 quote euro.currency = .ok preview ∧
        preview.buyerPaysPerItem = 115 ∧ preview.sellerReceivesPerItem = 100 := by
  have hestimate : (overviewRow (variantOf (cardNamed "9-Card")) euro {}
      (spreadSource pageSeven "100" true)).estimate = some ⟨115, 100⟩ := by decide +kernel
  obtain ⟨quote, hquote, hpreview⟩ := (estimate_agrees parseWallet_euroWallet (cardNamed "9-Card")
    {} _ (sameItem_pageSeven "100" true)).1 _ hestimate
  obtain ⟨preview, hpreview, heq⟩ := hpreview 1 0 1 (by decide)
  obtain ⟨hbuyer, hseller⟩ := PriceEstimate.mk.inj heq
  exact ⟨quote, hquote, preview, hpreview, hbuyer.symm, hseller.symm⟩

def pricesOf (item : Item) (source : OrderSource) : Option ℕ × Option ℕ :=
  ((saleQuote item euro {} source).toOption.map fun quote => quote.buyerPays,
    (overviewRow (variantOf item) euro {} source).estimate.map fun estimate =>
      estimate.buyerPaysPerItem)

/-- Sales without an estimate, for an unsupported buy order, an item number 0 and a line end in the
name; and an estimate without a sale, on a page with two numbers. -/
theorem not_estimate_agrees :
    pricesOf (cardNamed "9-Card") (spreadSource pageSeven "1.15" true) = (some 115, none) ∧
    pricesOf (cardNamed "9-Card") (spreadSource pageZero "100" true) = (some 115, none) ∧
    pricesOf (cardNamed "9-Card\n") (spreadSource pageSeven "100" true) = (some 115, none) ∧
    pricesOf (cardNamed "9-Card") (spreadSource (pageZero ++ pageSeven) "100" false) =
      (none, some 115) := by
  decide +kernel

end SteamBee.Inventory
