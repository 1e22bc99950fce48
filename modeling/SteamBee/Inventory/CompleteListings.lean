import SteamBee.Inventory.CompleteInventory
import SteamBee.Inventory.ListingPages
import SteamBee.Inventory.QuoteLaws
import SteamBee.Text.JsonRoundTrip

/-! Market listings are complete or an error: the active listings of all pages are distinct and
as many as Steam reports, and those of the community inventory are returned. -/
namespace SteamBee.Inventory.Responses
open Text SteamData

variable {wallet : Wallet} {outcomes : Outcomes} {scan scan' : ListingScan} {data : Fields}
  {listings listings' : List LoadedListing} {loaded listing : LoadedListing} {e : Entry}
  {entries : List Entry} {ids ids' : List ListingId} {raws : List Json} {active : List Json}
  {isLast : Bool} {count remaining : ℕ} {paths : List String}

/-! ## What is read of a listing -/

def Priced (wallet : Wallet) (fields : Fields) (base fees : ℕ) : Prop :=
  ∃ currency, integer (get fields "currencyid") 3000 = .ok currency ∧
    (currency % 1000 = wallet.currency.id ∧
        integer (get fields "price") maxAmount = .ok base ∧
          integer (get fields "fee") maxAmount = .ok fees ∨
      currency % 1000 ≠ wallet.currency.id ∧
        (∃ converted, integer (get fields "converted_currencyid") 3000 = .ok converted ∧
          converted % 1000 = wallet.currency.id) ∧
        integer (get fields "converted_price") maxAmount = .ok base ∧
          integer (get fields "converted_fee") maxAmount = .ok fees)

theorem priced_of_amountsOf {fields : Fields} {base fees : ℕ}
    (h : amountsOf wallet fields = .ok (base, fees)) : Priced wallet fields base fees := by
  unfold amountsOf at h
  obtain ⟨currency, hcurrency, h⟩ := Outcome.bind_eq_ok h
  refine ⟨currency, hcurrency, ?_⟩
  split_ifs at h with hsame
  · obtain ⟨price, hprice, h⟩ := Outcome.bind_eq_ok h
    obtain ⟨fee, hfee, h⟩ := Outcome.bind_eq_ok h
    obtain ⟨rfl, rfl⟩ := Prod.mk.inj (Except.ok.inj h)
    exact .inl ⟨hsame, hprice, hfee⟩
  · obtain ⟨converted, hconverted, h⟩ := Outcome.bind_eq_ok h
    obtain ⟨hwallet, h⟩ := Outcome.of_guard h
    obtain ⟨price, hprice, h⟩ := Outcome.bind_eq_ok h
    obtain ⟨fee, hfee, h⟩ := Outcome.bind_eq_ok h
    obtain ⟨rfl, rfl⟩ := Prod.mk.inj (Except.ok.inj h)
    exact .inr ⟨hsame, ⟨converted, hconverted, not_not.mp hwallet⟩, hprice, hfee⟩

theorem toMinorUnits_exact {amount units : ℕ} {currency : MarketCurrency}
    (h : toMinorUnits amount currency = .ok units) :
    units * 100 = amount * 10 ^ currency.minorUnit := by
  obtain ⟨-, hexact, rfl⟩ := toMinorUnits_ok h
  exact Nat.div_mul_cancel (Nat.dvd_of_mod_eq_zero hexact)

def IsListing (e : Entry) (fields asset : Fields) : Prop :=
  e.raw = .obj fields ∧ object (get fields "asset") = .ok asset ∧ isCommunityItem asset = .ok true

structure ReadFrom (wallet : Wallet) (e : Entry) (loaded : LoadedListing) : Prop where
  fields : ∃ fields asset base fees, IsListing e fields asset ∧ Priced wallet fields base fees ∧
    loaded.sellerReceives * 100 = base * 10 ^ wallet.currency.minorUnit ∧
    loaded.buyerPays * 100 = (base + fees) * 10 ^ wallet.currency.minorUnit ∧
    idOfText (orElse (get asset "id") (get asset "assetid")) = .ok loaded.assetId ∧
    integer (orElse (get asset "amount") (some (.num (.integer 1)))) 1000000 = .ok loaded.quantity
  listingId : listingIdOf e.raw = .ok loaded.listingId
  pending : loaded.pendingConfirmation = e.pending

theorem loadEntry_of_isListing {fields asset : Fields} (h : IsListing e fields asset) :
    loadEntry wallet e = (loadListing wallet e fields asset).map some := by
  obtain ⟨hraw, hasset, hinside⟩ := h
  have hfields : object (some (.obj fields)) = .ok fields := rfl
  unfold loadEntry
  rw [hraw]
  simp only [bind, Except.bind, hfields, hasset, hinside]
  cases loadListing wallet e fields asset <;> rfl

theorem readFrom_of_loadEntry (h : loadEntry wallet e = .ok (some loaded)) :
    ReadFrom wallet e loaded := by
  unfold loadEntry at h
  obtain ⟨fields, hfields, h⟩ := Outcome.bind_eq_ok h
  obtain ⟨asset, hasset, h⟩ := Outcome.bind_eq_ok h
  obtain ⟨inside, hinside, h⟩ := Outcome.bind_eq_ok h
  cases inside with
  | false => cases h
  | true =>
    obtain ⟨found, hfound, h⟩ := Outcome.bind_eq_ok h
    obtain rfl := Option.some.inj (Except.ok.inj h)
    unfold loadListing at hfound
    obtain ⟨listingId, hlistingId, hfound⟩ := Outcome.bind_eq_ok hfound
    obtain ⟨assetId, hassetId, hfound⟩ := Outcome.bind_eq_ok hfound
    obtain ⟨details, -, hfound⟩ := Outcome.bind_eq_ok hfound
    obtain ⟨⟨base, fees⟩, hamounts, hfound⟩ := Outcome.bind_eq_ok hfound
    obtain ⟨quantity, hquantity, hfound⟩ := Outcome.bind_eq_ok hfound
    obtain ⟨sellerReceives, hseller, hfound⟩ := Outcome.bind_eq_ok hfound
    obtain ⟨buyerPays, hbuyer, hfound⟩ := Outcome.bind_eq_ok hfound
    obtain rfl := Except.ok.inj hfound
    constructor
    case fields =>
      exact ⟨fields, asset, base, fees, ⟨object_eq_ok hfields, hasset, hinside⟩,
        priced_of_amountsOf hamounts, toMinorUnits_exact hseller, toMinorUnits_exact hbuyer,
        hassetId, hquantity⟩
    case listingId => exact hlistingId
    case pending => rfl

/-! ## The loop over a page -/

structure Kept (wallet : Wallet) (entries : List Entry) (listings : List LoadedListing) : Prop where
  distinct : (listings.map fun listing => listing.listingId).Nodup
  read : ∀ listing ∈ listings, ∃ e ∈ entries, loadEntry wallet e = .ok (some listing)
  every : ∀ e ∈ entries, ∀ fields asset, IsListing e fields asset →
    ∃ listing ∈ listings, listingIdOf e.raw = .ok listing.listingId

theorem kept_nil : Kept wallet [] [] :=
  ⟨List.nodup_nil, fun _ h => absurd h List.not_mem_nil, fun _ h => absurd h List.not_mem_nil⟩

theorem mem_listingIds_put {listingId : ListingId} :
    listingId ∈ (put listings (some loaded)).map (fun listing => listing.listingId) ↔
      listingId ∈ listings.map (fun listing => listing.listingId) ∨
        listingId = loaded.listingId := by
  unfold put
  rw [List.map_key_upsert (k := loaded.listingId) (fun (_ : LoadedListing) _ => rfl) rfl]
  split_ifs with hmem
  · constructor
    · exact .inl
    · rintro (hold | rfl)
      · exact hold
      · exact hmem
  · rw [List.mem_append, List.mem_singleton]

theorem Kept.put (h : Kept wallet entries listings) {found : Option LoadedListing}
    (hfound : loadEntry wallet e = .ok found) : Kept wallet (entries ++ [e]) (put listings found) := by
  cases found with
  | none =>
    refine ⟨h.distinct, ?_, ?_⟩
    · intro listing hlisting
      obtain ⟨e', he', hread⟩ := h.read listing hlisting
      exact ⟨e', List.mem_append_left _ he', hread⟩
    · intro e' he' fields asset hlisting
      rcases List.mem_append.mp he' with he' | he'
      · exact h.every e' he' fields asset hlisting
      · obtain rfl := List.mem_singleton.mp he'
        rw [loadEntry_of_isListing hlisting] at hfound
        cases hload : loadListing wallet e' fields asset with
        | error _ => rw [hload] at hfound; cases hfound
        | ok _ => rw [hload] at hfound; cases hfound
  | some loaded =>
    have hread := readFrom_of_loadEntry hfound
    have hkept {listingId : ListingId}
        (hmem : listingId ∈ (Responses.put listings (some loaded)).map fun listing =>
          listing.listingId) :
        ∃ listing ∈ Responses.put listings (some loaded), listingId = listing.listingId := by
      obtain ⟨listing, hlisting, heq⟩ := List.mem_map.mp hmem
      exact ⟨listing, hlisting, heq.symm⟩
    refine ⟨List.nodup_upsert h.distinct (fun _ _ => rfl) rfl, ?_, ?_⟩
    · intro listing hlisting
      rcases List.mem_upsert hlisting with ⟨hold, -⟩ | ⟨other, -, -, rfl⟩ | ⟨-, rfl⟩
      · obtain ⟨e', he', hload⟩ := h.read listing hold
        exact ⟨e', List.mem_append_left _ he', hload⟩
      · exact ⟨e, List.mem_append_right _ (List.mem_singleton_self e), hfound⟩
      · exact ⟨e, List.mem_append_right _ (List.mem_singleton_self e), hfound⟩
    · intro e' he' fields asset hlisting
      rcases List.mem_append.mp he' with he' | he'
      · obtain ⟨listing, hmem, hid⟩ := h.every e' he' fields asset hlisting
        obtain ⟨listing', hmem', heq⟩ := hkept
          (mem_listingIds_put.mpr (.inl (List.mem_map_of_mem hmem)))
        rw [heq] at hid
        exact ⟨listing', hmem', hid⟩
      · obtain rfl := List.mem_singleton.mp he'
        obtain ⟨listing', hmem', heq⟩ := hkept (mem_listingIds_put.mpr (.inr rfl))
        have hid := hread.listingId
        rw [heq] at hid
        exact ⟨listing', hmem', hid⟩

/-- By induction on the entries of the page. -/
theorem Kept.addEntries {page : List Entry} (h : Kept wallet entries listings)
    (hn : addEntries wallet listings page = .ok listings') :
    Kept wallet (entries ++ page) listings' := by
  induction page generalizing entries listings with
  | nil =>
    obtain rfl := Except.ok.inj hn
    rwa [List.append_nil]
  | cons e page ih =>
    obtain ⟨found, hfound, hn⟩ := Outcome.bind_eq_ok hn
    have hrest := ih (h.put hfound) hn
    rwa [List.append_assoc] at hrest

/-- By induction on the active listings of the page. -/
theorem addActiveIds_ok (hids : ids.Nodup) (h : addActiveIds ids raws = .ok ids') :
    ids'.Nodup ∧ ∃ new, ids' = ids ++ new ∧ raws.map listingIdOf = new.map .ok := by
  induction raws generalizing ids with
  | nil =>
    obtain rfl := Except.ok.inj h
    exact ⟨hids, [], (List.append_nil ids).symm, rfl⟩
  | cons raw raws ih =>
    obtain ⟨listingId, hlistingId, h⟩ := Outcome.bind_eq_ok h
    obtain ⟨hfresh, h⟩ := Outcome.of_guard h
    have hnodup : (ids ++ [listingId]).Nodup := by
      rw [List.nodup_append]
      refine ⟨hids, List.nodup_singleton _, ?_⟩
      rintro a ha b hb rfl
      obtain rfl := List.mem_singleton.mp hb
      exact hfresh ha
    obtain ⟨hall, new, rfl, hnew⟩ := ih hnodup h
    refine ⟨hall, listingId :: new, by rw [List.append_assoc]; rfl, ?_⟩
    rw [List.map_cons, List.map_cons, hlistingId, hnew]

/-! ## The pages -/

def pageEntries (outcome : Except ActionError Response) : List Entry :=
  ((fetch outcome >>= fun data => (activeOf data).map (entriesOf data)).toOption).getD []

def entriesUpTo (outcomes : Outcomes) (count : ℕ) : List Entry :=
  (List.range count).flatMap fun k => pageEntries (outcomes k)

def activeEntries (entries : List Entry) : List Entry := entries.filter fun e => !e.pending

theorem activeEntries_entriesOf : activeEntries (entriesOf data active) =
    active.map (⟨data, ·, false⟩) := by
  simp [activeEntries, entriesOf, List.filter_map, Function.comp_def]

theorem addListingPage_ok (h : addListingPage wallet scan data = .ok (scan', isLast)) :
    ∃ total active, reportedTotal data = .ok total ∧ activeOf data = .ok active ∧
      addActiveIds scan.activeIds active = .ok scan'.activeIds ∧
      addEntries wallet scan.listings (entriesOf data active) = .ok scan'.listings ∧
      (isLast = true → scan'.activeIds.length = total) ∧ (isLast = false → active ≠ []) := by
  unfold addListingPage at h
  obtain ⟨-, h⟩ := Outcome.of_guard h
  obtain ⟨total, htotal, h⟩ := Outcome.bind_eq_ok h
  obtain ⟨active, hactive, h⟩ := Outcome.bind_eq_ok h
  obtain ⟨activeIds, hids, h⟩ := Outcome.bind_eq_ok h
  obtain ⟨listings, hlistings, h⟩ := Outcome.bind_eq_ok h
  dsimp only at h
  by_cases hlast : total ≤ scan.start + active.length
  · rw [if_pos hlast] at h
    obtain ⟨hlength, h⟩ := Outcome.of_guard h
    obtain ⟨rfl, rfl⟩ := Prod.mk.inj (Except.ok.inj h)
    refine ⟨total, active, htotal, hactive, hids, hlistings, fun _ => not_not.mp hlength, ?_⟩
    intro hne
    cases hne
  · rw [if_neg hlast] at h
    obtain ⟨hempty, h⟩ := Outcome.of_guard h
    obtain ⟨rfl, rfl⟩ := Prod.mk.inj (Except.ok.inj h)
    refine ⟨total, active, htotal, hactive, hids, hlistings, ?_, ?_⟩
    · intro hne
      cases hne
    · rintro - rfl
      exact hempty rfl

structure Listed (wallet : Wallet) (outcomes : Outcomes) (count : ℕ) (scan : ListingScan) :
    Prop where
  kept : Kept wallet (entriesUpTo outcomes count) scan.listings
  nodup : scan.activeIds.Nodup
  ids : (activeEntries (entriesUpTo outcomes count)).map (fun e => listingIdOf e.raw) =
    scan.activeIds.map .ok

theorem listed_start : Listed wallet outcomes 0 ⟨[], [], 0⟩ := ⟨kept_nil, List.nodup_nil, rfl⟩

theorem pageEntries_of_fetch {outcome : Except ActionError Response}
    (hfetch : fetch outcome = .ok data) (hactive : activeOf data = .ok active) :
    pageEntries outcome = entriesOf data active := by
  unfold pageEntries
  rw [hfetch]
  simp only [bind, Except.bind, hactive]
  rfl

theorem Listed.addListingPage (h : Listed wallet outcomes count scan)
    (hfetch : fetch (outcomes count) = .ok data)
    (hpage : addListingPage wallet scan data = .ok (scan', isLast)) :
    Listed wallet outcomes (count + 1) scan' := by
  obtain ⟨total, active, -, hactive, hids, hlistings, -, -⟩ := addListingPage_ok hpage
  have hentries : entriesUpTo outcomes (count + 1) =
      entriesUpTo outcomes count ++ entriesOf data active := by
    unfold entriesUpTo
    rw [List.range_succ, List.flatMap_append, List.flatMap_singleton,
      pageEntries_of_fetch hfetch hactive]
  obtain ⟨hnodup, new, hnew, hraws⟩ := addActiveIds_ok h.nodup hids
  constructor
  case kept =>
    rw [hentries]
    exact h.kept.addEntries hlistings
  case nodup => exact hnodup
  case ids =>
    have hactiveEntries : activeEntries (entriesUpTo outcomes (count + 1)) =
        activeEntries (entriesUpTo outcomes count) ++ active.map (⟨data, ·, false⟩) := by
      rw [hentries, ← activeEntries_entriesOf]
      exact List.filter_append _ _
    rw [hactiveEntries, List.map_append, h.ids, hnew, List.map_append, ← hraws, List.map_map]
    rfl

/-- One round of the loop. -/
theorem readListings_succ (h : readListings wallet outcomes scan (remaining + 1) =
    (paths, .ok scan')) : ∃ data next isLast,
      fetch (outcomes (maxListingPages - (remaining + 1))) = .ok data ∧
      addListingPage wallet scan data = .ok (next, isLast) ∧
      (isLast = true ∧ paths.length = 1 ∧ scan' = next ∨
        isLast = false ∧ ∃ rest, paths.length = rest.length + 1 ∧
          readListings wallet outcomes next remaining = (rest, .ok scan')) := by
  unfold readListings at h
  dsimp only at h
  cases hpage : fetch (outcomes (maxListingPages - (remaining + 1))) >>=
      addListingPage wallet scan with
  | error _ =>
    rw [hpage] at h
    cases (Prod.mk.inj h).2
  | ok page =>
    obtain ⟨next, isLast⟩ := page
    rw [hpage] at h
    obtain ⟨data, hfetch, hadd⟩ := Outcome.bind_eq_ok hpage
    refine ⟨data, next, isLast, hfetch, hadd, ?_⟩
    cases isLast with
    | true =>
      obtain ⟨rfl, hscan⟩ := Prod.mk.inj h
      exact .inl ⟨rfl, rfl, (Except.ok.inj hscan).symm⟩
    | false =>
      obtain ⟨rfl, hrest⟩ := Prod.mk.inj h
      exact .inr ⟨rfl, _, rfl, Prod.ext rfl hrest⟩

/-- No more pages are asked for than may be. By induction on these. -/
theorem length_readListings : (readListings wallet outcomes scan remaining).1.length ≤ remaining := by
  induction remaining generalizing scan with
  | zero => exact le_rfl
  | succ remaining ih =>
    unfold readListings
    dsimp only
    split
    · exact Nat.le_add_left 1 remaining
    · exact Nat.le_add_left 1 remaining
    · exact Nat.succ_le_succ ih

/-- The last page that was read reports `total`, and each page before it has an active listing. -/
structure Ended (outcomes : Outcomes) (first last total : ℕ) : Prop where
  total : ∃ data, fetch (outcomes last) = .ok data ∧ reportedTotal data = .ok total
  progress : ∀ k, first ≤ k → k < last → activeEntries (pageEntries (outcomes k)) ≠ []

/-- By induction on the pages that may still be asked for. -/
theorem readListings_listed (hcount : count + remaining = maxListingPages)
    (hscan : Listed wallet outcomes count scan)
    (h : readListings wallet outcomes scan remaining = (paths, .ok scan')) :
    ∃ last, count + paths.length = last + 1 ∧ Listed wallet outcomes (last + 1) scan' ∧
      Ended outcomes count last scan'.activeIds.length := by
  induction remaining generalizing scan paths count with
  | zero => cases (Prod.mk.inj h).2
  | succ remaining ih =>
    obtain ⟨data, next, isLast, hfetch, hpage, hcases⟩ := readListings_succ h
    have hindex : maxListingPages - (remaining + 1) = count := by omega
    rw [hindex] at hfetch
    have hnext := hscan.addListingPage hfetch hpage
    obtain ⟨total, active, htotal, hactive, -, -, hend, hprogress⟩ := addListingPage_ok hpage
    rcases hcases with ⟨hlast, hlength, rfl⟩ | ⟨hmore, rest, hlength, hrest⟩
    · refine ⟨count, by rw [hlength], hnext, ?_, ?_⟩
      · rw [hend hlast]
        exact ⟨data, hfetch, htotal⟩
      · intro k hfirst hk
        omega
    · obtain ⟨last, hlast, hlisted, hended⟩ := ih (by omega) hnext hrest
      refine ⟨last, by omega, hlisted, hended.total, ?_⟩
      intro k hfirst hk
      rcases Nat.eq_or_lt_of_le hfirst with rfl | hlt
      · rw [pageEntries_of_fetch hfetch hactive, activeEntries_entriesOf]
        exact fun hnil => hprogress hmore (List.map_eq_nil_iff.mp hnil)
      · exact hended.progress k hlt hk

/-! ## The listings -/

/-- What a load that succeeds has read with its last request, and what it returns. -/
structure CompleteListings (wallet : Wallet) (outcomes : Outcomes) (last : ℕ)
    (listings : List LoadedListing) : Prop where
  total : ∃ (data : Fields) (ids : List ListingId), fetch (outcomes last) = .ok data ∧ 
    reportedTotal data = .ok ids.length ∧ ids.Nodup ∧ (activeEntries (entriesUpTo outcomes (last + 1))).map
      (fun e => listingIdOf e.raw) = ids.map .ok
  progress : ∀ k < last, activeEntries (pageEntries (outcomes k)) ≠ []
  distinct : (listings.map fun listing => listing.listingId).Nodup
  read : ∀ listing ∈ listings, ∃ e ∈ entriesUpTo outcomes (last + 1), ReadFrom wallet e listing
  active : ∀ e ∈ activeEntries (entriesUpTo outcomes (last + 1)), ∀ fields asset,
    IsListing e fields asset → ∃ listing ∈ listings,
      listingIdOf e.raw = .ok listing.listingId ∧
        ((∀ other ∈ entriesUpTo outcomes (last + 1), other.pending = true →
          listingIdOf other.raw ≠ listingIdOf e.raw) → ReadFrom wallet e listing)

/-- An active listing is the only active one with its identifier. -/
theorem Listed.entry_unique (h : Listed wallet outcomes count scan) {other : Entry}
    (he : e ∈ activeEntries (entriesUpTo outcomes count))
    (hother : other ∈ activeEntries (entriesUpTo outcomes count))
    (hsame : listingIdOf other.raw = listingIdOf e.raw) : other = e := by
  have hnodup : ((activeEntries (entriesUpTo outcomes count)).map
      fun e => listingIdOf e.raw).Nodup := by
    rw [h.ids]
    exact h.nodup.map fun _ _ heq => Except.ok.inj heq
  exact List.inj_on_of_nodup_map hnodup hother he hsame

theorem completeListings_of_listed {last : ℕ} (h : Listed wallet outcomes (last + 1) scan)
    (hended : Ended outcomes 0 last scan.activeIds.length) :
    CompleteListings wallet outcomes last scan.listings := by
  constructor
  case total =>
    obtain ⟨data, hfetch, htotal⟩ := hended.total
    exact ⟨data, scan.activeIds, hfetch, htotal, h.nodup, h.ids⟩
  case progress => exact fun k hk => hended.progress k (Nat.zero_le k) hk
  case distinct => exact h.kept.distinct
  case read =>
    intro listing hlisting
    obtain ⟨e, he, hload⟩ := h.kept.read listing hlisting
    exact ⟨e, he, readFrom_of_loadEntry hload⟩
  case active =>
    intro e he fields asset hfields
    obtain ⟨hmem, hactive⟩ := List.mem_filter.mp he
    obtain ⟨listing, hlisting, hid⟩ := h.kept.every e hmem fields asset hfields
    refine ⟨listing, hlisting, hid, ?_⟩
    intro halone
    obtain ⟨other, hother, hload⟩ := h.kept.read listing hlisting
    have hread := readFrom_of_loadEntry hload
    have hsame : listingIdOf other.raw = listingIdOf e.raw := hread.listingId.trans hid.symm
    have hotherActive : other ∈ activeEntries (entriesUpTo outcomes (last + 1)) := by
      apply List.mem_filter.mpr ⟨hother, ?_⟩
      cases hpending : other.pending with
      | false => rfl
      | true => exact absurd hsame (halone other hother hpending)
    rwa [h.entry_unique he hotherActive hsame] at hread

/-- Whatever Steam answers, no more than 20 pages are asked for, and the listings of the community
inventory are complete or an error. A listing that is also on hold or to be confirmed may be
returned as such. -/
theorem loadListings_complete (wallet : Wallet) (outcomes : Outcomes) :
    (loadListings wallet outcomes).1.length ≤ 20 ∧
      ∀ listings, (loadListings wallet outcomes).2 = .ok listings →
        ∃ last, (loadListings wallet outcomes).1.length = last + 1 ∧
          CompleteListings wallet outcomes last listings := by
  constructor
  · show (readListings wallet outcomes ⟨[], [], 0⟩ maxListingPages).1.length ≤ maxListingPages
    exact length_readListings
  · intro listings h
    unfold loadListings at h ⊢
    dsimp only at h ⊢
    cases hresult : (readListings wallet outcomes ⟨[], [], 0⟩ maxListingPages).2 with
    | error _ =>
      rw [hresult] at h
      cases h
    | ok scan =>
      rw [hresult] at h
      obtain rfl := Except.ok.inj h
      obtain ⟨last, hlast, hlisted, hended⟩ := readListings_listed (Nat.zero_add _) listed_start
        (Prod.ext rfl hresult)
      exact ⟨last, by rw [← hlast, Nat.zero_add], completeListings_of_listed hlisted hended⟩

/-! ## Listings of other inventories, and listings on hold -/

def respond (data : Fields) : Except ActionError Response :=
  .ok { status := 200, body := some (0, Json.stringify (.obj data)) }

theorem fetch_respond (h : Json.Printable (.obj data)) : fetch (respond data) = .ok data := by
  have hparse : parseObject (Json.stringify (.obj data)) = some data := by
    unfold parseObject
    rw [Json.parse_stringify h]
  have htext : responseText { status := 200, body := some (0, Json.stringify (.obj data)) } =
      .ok (Json.stringify (.obj data)) := rfl
  unfold fetch respond responseJson
  simp only [bind, Except.bind, htext, hparse]
  rfl

def listingFields (contextId price : String) : Fields :=
  [("listingid", .str "5"), ("currencyid", .str "2003"), ("price", .str price), ("fee", .str "15"),
    ("asset", .obj [("appid", .str "753"), ("contextid", .str contextId), ("id", .str "8")])]

def listingPage (active confirmations : List Json) : Fields :=
  [("success", .bool true), ("num_active_listings", .str "1"), ("listings", .arr active),
    ("listings_to_confirm", .arr confirmations)]

def giftPage : Fields := listingPage [.obj (listingFields "1" "100")] []

def confirmedPage : Fields :=
  listingPage [.obj (listingFields "6" "100")] [.obj (listingFields "6" "200")]

/-- Every active listing of the app is returned at its own amounts. -/
def ReturnsEvery (wallet : Wallet) (outcomes : Outcomes) (last : ℕ)
    (listings : List LoadedListing) : Prop :=
  ∀ e ∈ activeEntries (entriesUpTo outcomes (last + 1)), ∀ fields asset, e.raw = .obj fields →
    object (get fields "asset") = .ok asset → integer (get asset "appid") maxAmount = .ok 753 →
      ∃ listing ∈ listings, listingIdOf e.raw = .ok listing.listingId ∧
        ∃ base fees, Priced wallet fields base fees ∧
          listing.sellerReceives * 100 = base * 10 ^ wallet.currency.minorUnit ∧
          listing.buyerPays * 100 = (base + fees) * 10 ^ wallet.currency.minorUnit

theorem loadListings_onePage {next : ListingScan} (h : Json.Printable (.obj data))
    (hpage : addListingPage wallet ⟨[], [], 0⟩ data = .ok (next, true)) :
    (loadListings wallet fun _ => respond data).2 = .ok next.listings := by
  unfold loadListings maxListingPages readListings
  simp only [fetch_respond h, bind, Except.bind, hpage]
  rfl

theorem mem_activeEntries_onePage (h : Json.Printable (.obj data))
    (hactive : activeOf data = .ok active) {raw : Json} (hraw : raw ∈ active) :
    ⟨data, raw, false⟩ ∈ activeEntries (entriesUpTo (fun _ => respond data) 1) := by
  have hentries : entriesUpTo (fun _ => respond data) 1 = entriesOf data active := by
    unfold entriesUpTo
    rw [List.range_one, List.flatMap_singleton, pageEntries_of_fetch (fetch_respond h) hactive]
  rw [hentries, activeEntries_entriesOf]
  exact List.mem_map_of_mem hraw

theorem not_returnsEvery :
    (∃ listings, (loadListings euro fun _ => respond giftPage).2 = .ok listings ∧
      ¬ReturnsEvery euro (fun _ => respond giftPage) 0 listings) ∧
    ∃ listings, (loadListings euro fun _ => respond confirmedPage).2 = .ok listings ∧
      ¬ReturnsEvery euro (fun _ => respond confirmedPage) 0 listings := by
  have hgift : Json.Printable (.obj giftPage) := by
    simp [giftPage, listingPage, listingFields, Json.Printable, Json.PrintableFields,
      Json.PrintableItems]
  have hconfirmed : Json.Printable (.obj confirmedPage) := by
    simp [confirmedPage, listingPage, listingFields, Json.Printable, Json.PrintableFields,
      Json.PrintableItems]
  constructor
  · have hpage : addListingPage euro ⟨[], [], 0⟩ giftPage = .ok (⟨[], ["5"], 1⟩, true) := by rfl
    refine ⟨_, loadListings_onePage hgift hpage, ?_⟩
    intro hevery
    obtain ⟨listing, hlisting, -⟩ := hevery _
      (mem_activeEntries_onePage hgift rfl List.mem_cons_self) _ _ rfl rfl (by rfl)
    cases hlisting
  · have hpage : addListingPage euro ⟨[], [], 0⟩ confirmedPage = .ok (⟨[{
        listingId := "5"
        assetId := "8"
        name := "Steam item"
        quantity := 1
        buyerPays := 215
        sellerReceives := 200
        type := ""
        iconUrl := none
        pendingConfirmation := true }], ["5"], 1⟩, true) := by rfl
    refine ⟨_, loadListings_onePage hconfirmed hpage, ?_⟩
    intro hevery
    obtain ⟨listing, hlisting, -, base, fees, ⟨currency, hcurrency, hprice⟩, hseller, -⟩ := hevery _
      (mem_activeEntries_onePage hconfirmed rfl List.mem_cons_self) _ _ rfl rfl (by rfl)
    obtain rfl := List.mem_singleton.mp hlisting
    obtain rfl : 2003 = currency := Except.ok.inj hcurrency
    rcases hprice with ⟨-, hbase, -⟩ | ⟨hother, -⟩
    · obtain rfl : 100 = base := Except.ok.inj hbase
      exact absurd hseller (by decide)
    · exact hother rfl

theorem loadListings_complete_confirmed : ∃ listings,
    (loadListings euro fun _ => respond confirmedPage).2 = .ok listings ∧
      ∃ last, CompleteListings euro (fun _ => respond confirmedPage) last listings := by
  have hconfirmed : Json.Printable (.obj confirmedPage) := by
    simp [confirmedPage, listingPage, listingFields, Json.Printable, Json.PrintableFields,
      Json.PrintableItems]
  have hpage : ∃ next, addListingPage euro ⟨[], [], 0⟩ confirmedPage = .ok (next, true) :=
    ⟨_, by rfl⟩
  obtain ⟨next, hpage⟩ := hpage
  have hload := loadListings_onePage hconfirmed hpage
  obtain ⟨last, -, hcomplete⟩ := (loadListings_complete euro _).2 _ hload
  exact ⟨_, hload, last, hcomplete⟩

end SteamBee.Inventory.Responses
