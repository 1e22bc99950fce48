import SteamBee.Inventory.PriceReader
import SteamBee.Inventory.QuoteLaws

/-! The age and the currency of the observations that the price reader returns, against what
Steam has shown and when. -/
namespace SteamBee.Inventory
namespace PriceReader
open Text SteamData Transition

/-- An order book as Steam has shown it: on a listing page in the currency that it names, in a
histogram in the currency that was asked for. -/
structure Shown where
  marketHashName : String
  currencyId : ℕ
  data : Fields
  shownAt : ℕ

def shows (s : PriceReader) : PriceReaderAction → List Shown
  | .listing _ marketHashName (.ok html) =>
    match parseListingOrderBook html with
    | some book => [⟨marketHashName, book.currencyId, bookData book, s.now⟩]
    | none => []
  | .histogram key (.ok body) =>
    match s.observationFlights.lookup key, histogramData body with
    | some flight, .ok data =>
      [⟨key.marketHashName, flight.call.wallet.currency.id, data, s.now⟩]
    | _, _ => []
  | _ => []

/-- The prices were shown for the item in the currency when the observation says so, and it ends
its life on time. -/
structure Genuine (shown : List Shown) (marketHashName : String) (currencyId : ℕ)
    (o : Observation) : Prop where
  shown : ∃ q ∈ shown, q.marketHashName = marketHashName ∧ q.currencyId = currencyId ∧
    q.shownAt = o.observedAt ∧ sides q.data = .ok (o.lowestSellOrder, o.highestBuyOrder)
  freshUntil : o.freshUntil = o.observedAt + priceTtl
  displayUntil : o.displayUntil = o.observedAt + displayTtl

/-- What the reader may return: it is less than five minutes old, at most a minute unless it is
marked as stale, and in the currency of the caller's wallet. -/
structure Honest (shown : List Shown) (r : Returned) : Prop where
  genuine : Genuine shown r.call.marketHashName r.call.wallet.currency.id r.observation
  past : r.observation.observedAt ≤ r.returnedAt
  young : r.returnedAt < r.observation.observedAt + 5 * 60000
  fresh : r.observation.stale = false → r.returnedAt ≤ r.observation.observedAt + 60000

section Cache
variable {K V : Type} [DecidableEq K] {cache : Cache K V} {key : K} {value : V} {limit : ℕ}

theorem mem_of_find (h : find cache key = some value) : (key, value) ∈ cache := by
  obtain ⟨e, he, rfl⟩ := Option.map_eq_some_iff.mp h
  have hkey : e.1 = key := by simpa using List.find?_some he
  rw [← hkey]
  exact List.mem_of_find?_eq_some he

theorem mem_of_delete {e : K × V} (h : e ∈ delete cache key) : e ∈ cache :=
  List.mem_of_mem_filter h

theorem mem_of_remember {e : K × V} (h : e ∈ remember cache key value limit) :
    e ∈ cache ∨ e = (key, value) := by
  have hmem := (List.newest_sublist _ _).subset h
  rcases List.mem_append.mp hmem with hmem | hmem
  · exact .inl (mem_of_delete hmem)
  · exact .inr (List.mem_singleton.mp hmem)

end Cache

variable {s t : PriceReader} {shown : List Shown} {action : PriceReaderAction} {flight : Flight}
  {call : PriceCall} {o : Observation} {key : ObservationKey}

structure Held (shown : List Shown) (now : ℕ) (key : ObservationKey) (o : Observation) : Prop where
  genuine : Genuine shown key.marketHashName key.currencyId o
  past : o.observedAt ≤ now
  stale : o.stale = false

/-- A flight serves the callers of its key, and holds on to what the cache kept. -/
structure Serves (shown : List Shown) (now : ℕ) (key : ObservationKey) (flight : Flight) :
    Prop where
  own : flight.call.key = key
  callers : ∀ call ∈ flight.callers, call.key = key
  cached : ∀ cached, flight.cached = some cached → Held shown now key cached

/-- The reader keeps and returns genuine observations only. -/
structure Sound (shown : List Shown) (s : PriceReader) : Prop where
  observations : ∀ e ∈ s.observations, Held shown s.now e.1 e.2
  flights : ∀ key flight, s.observationFlights.lookup key = some flight →
    Serves shown s.now key flight
  returned : ∀ r ∈ s.returned, Honest shown r

theorem Genuine.mono {shown' : List Shown} {name : String} {currencyId : ℕ}
    (h : Genuine shown name currencyId o) (hle : shown ⊆ shown') :
    Genuine shown' name currencyId o := by
  obtain ⟨q, hq, hshown⟩ := h.shown
  exact ⟨⟨q, hle hq, hshown⟩, h.freshUntil, h.displayUntil⟩

theorem Held.mono {shown' : List Shown} {now now' : ℕ} (h : Held shown now key o)
    (hle : shown ⊆ shown') (hnow : now ≤ now') : Held shown' now' key o :=
  ⟨h.genuine.mono hle, h.past.trans hnow, h.stale⟩

theorem Serves.mono {shown' : List Shown} {now now' : ℕ} (h : Serves shown now key flight)
    (hle : shown ⊆ shown') (hnow : now ≤ now') : Serves shown' now' key flight :=
  ⟨h.own, h.callers, fun cached hc => (h.cached cached hc).mono hle hnow⟩

theorem Sound.mono {shown' : List Shown} (h : Sound shown s) (hle : shown ⊆ shown') :
    Sound shown' s where
  observations e he := (h.observations e he).mono hle le_rfl
  flights key flight hlook := (h.flights key flight hlook).mono hle le_rfl
  returned r hr := ⟨(h.returned r hr).genuine.mono hle, (h.returned r hr).past,
    (h.returned r hr).young, (h.returned r hr).fresh⟩

/-- What a step leaves of the flights and the cache. -/
theorem Sound.keep (h : Sound shown s) (hnow : t.now = s.now)
    (hobservations : ∀ e ∈ t.observations, e ∈ s.observations ∨ Held shown s.now e.1 e.2)
    (hflights : ∀ key flight, t.observationFlights.lookup key = some flight →
      s.observationFlights.lookup key = some flight ∨ Serves shown s.now key flight)
    (hreturned : ∀ r ∈ t.returned, r ∈ s.returned ∨ Honest shown r) : Sound shown t where
  observations e he := by
    rw [hnow]
    exact (hobservations e he).elim (h.observations e) id
  flights key flight hlook := by
    rw [hnow]
    exact (hflights key flight hlook).elim (h.flights key flight) id
  returned r hr := (hreturned r hr).elim (h.returned r) id

/-- Callers of the key may be given a held observation while it lives. -/
theorem Held.honest {now : ℕ} (h : Held shown now key o) (hlive : now < o.displayUntil)
    (hcall : call.key = key) {o' : Observation} (hgenuine : Genuine shown key.marketHashName
      key.currencyId o') (hsame : o'.observedAt = o.observedAt)
    (hfresh : o'.stale = false → now < o.freshUntil) : Honest shown ⟨call, o', now⟩ where
  genuine := by
    subst hcall
    exact hgenuine
  past := hsame ▸ h.past
  young := by
    rw [hsame]
    exact h.genuine.displayUntil ▸ hlive
  fresh hstale := by
    have hlt := hfresh hstale
    rw [h.genuine.freshUntil] at hlt
    rw [hsame]
    exact hlt.le

theorem mem_resolve {callers : List PriceCall} {r : Returned}
    (h : r ∈ (s.resolve callers o).returned) :
    r ∈ s.returned ∨ ∃ call ∈ callers, r = ⟨call, o, s.now⟩ := by
  rcases List.mem_append.mp h with h | h
  · exact .inl h
  · obtain ⟨call, hcall, rfl⟩ := List.mem_map.mp h
    exact .inr ⟨call, hcall, rfl⟩

def ShowsNow (shown : List Shown) (now : ℕ) (key : ObservationKey)
    (data : Except PriceReadError Fields) : Prop :=
  ∀ fields, data = .ok fields → ∃ q ∈ shown, q.marketHashName = key.marketHashName ∧
    q.currencyId = key.currencyId ∧ q.shownAt = now ∧ q.data = fields

theorem held_observedNow {now : ℕ} {data : Except PriceReadError Fields}
    {prices : Option ℕ × Option ℕ} (hshows : ShowsNow shown now key data)
    (hprices : data.bind sides = .ok prices) : Held shown now key (observedNow now prices) := by
  obtain ⟨fields, rfl, hsides⟩ : ∃ fields, data = .ok fields ∧ sides fields = .ok prices := by
    cases data with
    | error failure => cases hprices
    | ok fields => exact ⟨fields, rfl, hprices⟩
  obtain ⟨q, hq, hname, hcurrency, hat, rfl⟩ := hshows fields rfl
  exact ⟨⟨⟨q, hq, hname, hcurrency, hat, hsides⟩, rfl, rfl⟩, le_rfl, rfl⟩

/-- The end of a flight. -/
theorem Sound.settle (h : Sound shown s) {data : Except PriceReadError Fields}
    (hserves : Serves shown s.now flight.call.key flight)
    (hshows : ShowsNow shown s.now flight.call.key data) : Sound shown (s.settle flight data) := by
  have hflights (key : ObservationKey) (other : Flight)
      (hlook : (s.observationFlights.erase flight.call.key).lookup key = some other) :
      s.observationFlights.lookup key = some other := by
    rw [Table.lookup_erase_eq] at hlook
    split_ifs at hlook
    exact hlook
  unfold PriceReader.settle
  dsimp only
  split
  next prices hprices =>
    have hheld := held_observedNow hshows hprices
    refine h.keep rfl (fun e he => ?_) (fun key other hlook => .inl (hflights key other hlook))
      fun r hr => ?_
    · rcases mem_of_remember he with hold | rfl
      · exact .inl hold
      · exact .inr hheld
    · rcases mem_resolve hr with hold | ⟨call, hcall, rfl⟩
      · exact .inl hold
      · refine .inr (hheld.honest ?_ (hserves.callers call hcall) hheld.genuine rfl fun _ => ?_)
        · exact Nat.lt_add_of_pos_right (by decide)
        · exact Nat.lt_add_of_pos_right (by decide)
  next failure hfailed =>
    split
    next cached hcached =>
      have hheld := hserves.cached cached hcached
      split_ifs with hlive
      · refine h.keep rfl (fun e he => .inl he)
          (fun key other hlook => .inl (hflights key other hlook)) fun r hr => ?_
        rcases mem_resolve hr with hold | ⟨call, hcall, rfl⟩
        · exact .inl hold
        · have hgenuine : Genuine shown flight.call.key.marketHashName
              flight.call.key.currencyId (cached.failed failure) :=
            ⟨hheld.genuine.shown, hheld.genuine.freshUntil, hheld.genuine.displayUntil⟩
          exact .inr (hheld.honest hlive (hserves.callers call hcall) hgenuine rfl
            fun he => by cases he)
      · exact h.keep rfl (fun e he => .inl he)
          (fun key other hlook => .inl (hflights key other hlook)) fun r hr => .inl hr
    next =>
      exact h.keep rfl (fun e he => .inl he)
        (fun key other hlook => .inl (hflights key other hlook)) fun r hr => .inl hr

theorem settle_now (s : PriceReader) (flight : Flight) (data : Except PriceReadError Fields) :
    (s.settle flight data).now = s.now := by
  unfold PriceReader.settle
  dsimp only
  split
  · rfl
  · split
    · split_ifs <;> rfl
    · rfl

/-- The flights end one after the other. By induction on them. -/
theorem Sound.settle_all (h : Sound shown s) {flights : List Flight}
    {data : Flight → Except PriceReadError Fields}
    (hserves : ∀ flight ∈ flights, Serves shown s.now flight.call.key flight)
    (hshows : ∀ flight ∈ flights, ShowsNow shown s.now flight.call.key (data flight)) :
    Sound shown (flights.foldl (fun s flight => s.settle flight (data flight)) s) := by
  induction flights generalizing s with
  | nil => exact h
  | cons flight flights ih =>
    have hfirst := h.settle (hserves flight List.mem_cons_self) (hshows flight List.mem_cons_self)
    refine ih hfirst (fun other hother => ?_) fun other hother => ?_
    · rw [settle_now]
      exact hserves other (List.mem_cons_of_mem flight hother)
    · rw [settle_now]
      exact hshows other (List.mem_cons_of_mem flight hother)

/-- A flight that begins or goes on is entered under its key. -/
theorem Sound.enter (h : Sound shown s) (hserves : Serves shown s.now key flight)
    (hnow : t.now = s.now) (hobservations : t.observations = s.observations)
    (hreturned : t.returned = s.returned)
    (hflights : t.observationFlights = s.observationFlights.insert key flight) :
    Sound shown t := by
  refine h.keep hnow (fun e he => .inl (hobservations ▸ he)) (fun other found hlook => ?_)
    fun r hr => .inl (hreturned ▸ hr)
  rw [hflights, Table.lookup_insert_eq] at hlook
  split_ifs at hlook with hother
  · obtain rfl := Option.some.inj hlook
    exact .inr (hother ▸ hserves)
  · exact .inl hlook

theorem Sound.proceed_all (h : Sound shown s) {flights : List Flight} (itemId : String)
    (hserves : ∀ flight ∈ flights, Serves shown s.now flight.call.key flight) :
    Sound shown (flights.foldl (proceed itemId) s) := by
  induction flights generalizing s with
  | nil => exact h
  | cons flight flights ih =>
    have hflight := hserves flight List.mem_cons_self
    have hserves' : Serves shown s.now flight.call.key
        { flight with stage := .histogram itemId } := ⟨rfl, hflight.callers, hflight.cached⟩
    exact ih (h.enter hserves' rfl rfl rfl rfl) fun other hother =>
      hserves other (List.mem_cons_of_mem flight hother)

theorem serves_depart {now : ℕ} {cached : Option Observation} (stage : FlightStage)
    (hcached : ∀ o, cached = some o → Held shown now call.key o) :
    Serves shown now call.key ⟨call, cached, stage, [call]⟩ where
  own := rfl
  callers other hother := by rw [List.mem_singleton.mp hother]
  cached := hcached

theorem Sound.share (h : Sound shown s) {cached : Option Observation}
    (hcached : ∀ o, cached = some o → Held shown s.now call.key o) :
    Sound shown (s.share call cached) := by
  unfold PriceReader.share
  split
  next flight hlook =>
    have hflight := h.flights call.key flight hlook
    have hserves : Serves shown s.now call.key
        { flight with callers := flight.callers ++ [call] } := by
      refine ⟨hflight.own, fun other hother => ?_, hflight.cached⟩
      rcases List.mem_append.mp hother with hother | hother
      · exact hflight.callers other hother
      · rw [List.mem_singleton.mp hother]
    exact h.enter hserves rfl rfl rfl rfl
  next =>
    unfold depart
    dsimp only
    split
    next =>
      split_ifs
      · exact h.enter (serves_depart _ hcached) rfl rfl rfl rfl
      · exact h.enter (serves_depart _ hcached) rfl rfl rfl rfl
    next => exact h.enter (serves_depart _ hcached) rfl rfl rfl rfl

theorem Sound.observation (h : Sound shown s) (call : PriceCall) :
    Sound shown (s.observation call) := by
  unfold PriceReader.observation
  split_ifs with hname
  · exact h
  · split
    next => exact h.share fun o ho => by cases ho
    next cached hfound =>
      have hheld := h.observations _ (mem_of_find hfound)
      split_ifs with hover hfresh
      · have hdeleted : Sound shown
            { s with observations := delete s.observations call.key } :=
          h.keep rfl (fun e he => .inl (mem_of_delete he)) (fun _ _ hlook => .inl hlook)
            fun r hr => .inl hr
        exact hdeleted.share fun o ho => by cases ho
      · refine h.keep rfl (fun e he => ?_) (fun _ _ hlook => .inl hlook) fun r hr => ?_
        · rcases mem_of_remember he with hold | rfl
          · exact .inl hold
          · exact .inr hheld
        · rcases mem_resolve hr with hold | ⟨caller, hcaller, rfl⟩
          · exact .inl hold
          · rw [List.mem_singleton.mp hcaller]
            exact .inr (hheld.honest (not_le.mp hover) rfl hheld.genuine rfl fun _ => hfresh)
      · exact h.share fun o ho => by
          obtain rfl := Option.some.inj ho
          exact hheld

theorem mem_awaitingItemId {accountId : AccountId} {name : String}
    (h : flight ∈ s.awaitingItemId accountId name) :
    (∃ key, s.observationFlights.lookup key = some flight) ∧
      flight.call.marketHashName = name := by
  obtain ⟨hmem, htest⟩ := List.mem_filter.mp h
  obtain ⟨entry, hentry, rfl⟩ := List.mem_map.mp hmem
  simp only [decide_eq_true_eq] at htest
  exact ⟨⟨entry.1, Table.lookup_eq_some_iff.mpr hentry⟩, htest.2.2⟩

theorem showsNow_error {now : ℕ} (failure : PriceReadError) :
    ShowsNow shown now key (.error failure) := fun _ h => by cases h

theorem showsNow_bookFor {now : ℕ} {book : ListingOrderBook}
    (hmem : ⟨flight.call.marketHashName, book.currencyId, bookData book, now⟩ ∈ shown) :
    ShowsNow shown now flight.call.key (bookFor flight.call.wallet book) := by
  intro fields hfields
  unfold bookFor at hfields
  split_ifs at hfields with hcurrency
  obtain rfl := Except.ok.inj hfields
  exact ⟨_, hmem, rfl, not_not.mp hcurrency, rfl, rfl⟩

/-- The end of the read of a listing page. -/
theorem Sound.listing {accountId : AccountId} {name : String}
    {page : Except PriceReadError (List Char)} (h : Sound shown s)
    (hn : s.listing accountId name page = some t) :
    Sound (shown ++ shows s (.listing accountId name page)) t := by
  have h := h.mono (List.subset_append_left shown (shows s (.listing accountId name page)))
  have hserves : ∀ flight ∈ s.awaitingItemId accountId name,
      Serves (shown ++ shows s (.listing accountId name page)) s.now flight.call.key flight := by
    intro flight hflight
    obtain ⟨⟨key, hlook⟩, -⟩ := mem_awaitingItemId hflight
    have hserve := h.flights key flight hlook
    exact ⟨rfl, hserve.own ▸ hserve.callers, hserve.own ▸ hserve.cached⟩
  have hstart (flights : List (AccountId × String)) (itemIds : Cache String (String × ℕ)) :
      Sound (shown ++ shows s (.listing accountId name page))
        { s with itemIdFlights := flights, itemIds } :=
    h.keep rfl (fun e he => .inl he) (fun _ _ hlook => .inl hlook) fun r hr => .inl hr
  unfold PriceReader.listing at hn
  split_ifs at hn
  dsimp only at hn
  obtain rfl := Option.some.inj hn
  split
  next failure =>
    exact (hstart _ _).settle_all hserves fun _ _ => showsNow_error failure
  next html =>
    split
    next book _ hbook =>
      refine (hstart _ _).settle_all hserves fun flight hflight => showsNow_bookFor ?_
      rw [(mem_awaitingItemId hflight).2]
      exact List.mem_append_right _ (by simp [shows, hbook])
    next => exact (hstart _ _).settle_all hserves fun _ _ => showsNow_error _
    next itemId hbook hitem => exact (hstart _ _).proceed_all itemId hserves

/-- The end of the read of a histogram. -/
theorem Sound.histogram {body : Except PriceReadError (List Char)} (h : Sound shown s)
    (hn : s.histogram key body = some t) : Sound (shown ++ shows s (.histogram key body)) t := by
  have h := h.mono (List.subset_append_left shown (shows s (.histogram key body)))
  unfold PriceReader.histogram at hn
  split at hn
  next flight hlook =>
    split at hn
    next itemId hstage =>
      obtain rfl := Option.some.inj hn
      have hserves := h.flights key flight hlook
      refine h.settle ⟨rfl, hserves.own ▸ hserves.callers, hserves.own ▸ hserves.cached⟩ ?_
      intro fields hfields
      cases body with
      | error failure => cases hfields
      | ok body =>
        have hdata : histogramData body = .ok fields := hfields
        refine ⟨⟨key.marketHashName, flight.call.wallet.currency.id, fields, s.now⟩, ?_,
          ?_, rfl, rfl, rfl⟩
        · exact List.mem_append_right _ (by simp [shows, hlook, hdata])
        · rw [hserves.own]
    next => cases hn
  next => cases hn

/-- What a step keeps. -/
theorem Sound.next (h : Sound shown s) (hn : priceReaderMachine.next s action = some t) :
    Sound (shown ++ shows s action) t := by
  cases action with
  | observation call =>
    obtain rfl := Option.some.inj hn
    exact (h.observation call).mono (List.subset_append_left shown _)
  | listing accountId name page => exact h.listing hn
  | histogram key body => exact h.histogram hn
  | tick elapsed =>
    obtain rfl := Option.some.inj hn
    have h := h.mono (List.subset_append_left shown (shows s (.tick elapsed)))
    have hle : s.now ≤ s.now + elapsed := Nat.le_add_right _ _
    exact ⟨fun e he => (h.observations e he).mono (List.Subset.refl _) hle,
      fun key flight hlook => (h.flights key flight hlook).mono (List.Subset.refl _) hle,
      h.returned⟩

def watchedReader : Machine (PriceReader × List Shown) PriceReaderAction :=
  priceReaderMachine.recording [] fun shown s action => shown ++ shows s action

/-- In every run of calls, reads that bring something or fail, and passing time: what is returned
is less than five minutes old, at most a minute when it is not marked as stale, and in the
currency of the caller's wallet; neither it nor what is kept lives longer than from when Steam
has shown it. -/
theorem observations_honest {w : PriceReader × List Shown} (h : watchedReader.Reachable w) :
    (∀ r ∈ w.1.returned, Honest w.2 r) ∧
      ∀ e ∈ w.1.observations, Genuine w.2 e.1.marketHashName e.1.currencyId e.2 := by
  have hsound : Sound w.2 w.1 := by
    refine h.invariant (I := fun w => Sound w.2 w.1) ?_ ?_
    · rintro ⟨s, shown⟩ ⟨⟨now, rfl⟩, -⟩
      exact ⟨fun _ he => (List.not_mem_nil he).elim, fun _ _ hlook => (by cases hlook),
        fun _ hr => (List.not_mem_nil hr).elim⟩
    · intro w action w' hw _ hn
      obtain ⟨hnext, hshown⟩ := Machine.recording_next hn
      rw [hshown]
      exact hw.next hnext
  exact ⟨hsound.returned, fun e he => (hsound.observations e he).genuine⟩

def cardCall : PriceCall := ⟨"account", "753-Card", euro⟩

def readTwice : List PriceReaderAction :=
  [.observation cardCall,
    .listing "account" "753-Card" (.ok "Market_LoadOrderSpread( 123 )".toList),
    .histogram cardCall.key
      (.ok "\x7b\"success\":1,\"lowest_sell_order\":\"12\",\"highest_buy_order\":\"9\"\x7d".toList),
    .tick 61000, .observation cardCall, .histogram cardCall.key (.error unavailable)]

theorem observations_honest_readTwice : ∃ w, watchedReader.Reachable w ∧
    w.1.returned = [⟨cardCall, observedNow 0 (some 12, some 9), 0⟩,
      ⟨cardCall, (observedNow 0 (some 12, some 9)).failed unavailable, 61000⟩] ∧
    (∀ r ∈ w.1.returned, Honest w.2 r) ∧
      ∀ e ∈ w.1.observations, Genuine w.2 e.1.marketHashName e.1.currencyId e.2 := by
  have hreturned : (watchedReader.exec (.empty 0, []) readTwice).map (fun w => w.1.returned) =
      some [⟨cardCall, observedNow 0 (some 12, some 9), 0⟩,
        ⟨cardCall, (observedNow 0 (some 12, some 9)).failed unavailable, 61000⟩] := by
    decide +kernel
  obtain ⟨w, hw, heq⟩ := Option.map_eq_some_iff.mp hreturned
  have hreach : watchedReader.Reachable w := ⟨_, ⟨⟨0, rfl⟩, rfl⟩, Machine.leads_of_exec hw⟩
  exact ⟨w, hreach, heq, observations_honest hreach⟩

end PriceReader
end SteamBee.Inventory
