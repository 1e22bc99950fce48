import SteamBee.Data.Sorting
import SteamBee.Farming.Turns

/-! The order of the farming games: the pinned ones in their order, then the chosen strategy,
then the badge pages. It depends on the games alone, in every run of the controller. -/
namespace SteamBee.Farming
open Transition

section MapIndex
variable {ids : List AppId} {appId other : AppId} {i : ℕ}

theorem getElem?_of_mapIndex (h : mapIndex ids appId = some i) : ids[i]? = some appId := by
  obtain ⟨e, he, rfl⟩ := Option.map_eq_some_iff.mp h
  have hmem := List.mem_reverse.mp (List.mem_of_find?_eq_some he)
  have hid : e.1 = appId := by simpa using List.find?_some he
  rw [← hid]
  exact List.mem_zipIdx_iff_getElem?.mp hmem

theorem mapIndex_isSome (h : appId ∈ ids) : (mapIndex ids appId).isSome = true := by
  obtain ⟨i, hi⟩ := List.mem_iff_getElem?.mp h
  have hmem : (appId, i) ∈ ids.zipIdx.reverse :=
    List.mem_reverse.mpr (List.mem_zipIdx_iff_getElem?.mpr hi)
  simp only [mapIndex, Option.isSome_map, List.find?_isSome]
  exact ⟨(appId, i), hmem, by simp⟩

/-- Two ids of the list have different positions. -/
theorem mapIndex_inj (h : appId ∈ ids) (h' : other ∈ ids)
    (heq : (mapIndex ids appId).getD maxSafeInteger = (mapIndex ids other).getD maxSafeInteger) :
    appId = other := by
  obtain ⟨i, hi⟩ := Option.isSome_iff_exists.mp (mapIndex_isSome h)
  obtain ⟨j, hj⟩ := Option.isSome_iff_exists.mp (mapIndex_isSome h')
  rw [hi, hj, Option.getD_some, Option.getD_some] at heq
  have hids := getElem?_of_mapIndex hi
  rw [heq, getElem?_of_mapIndex hj] at hids
  exact (Option.some.inj hids).symm

end MapIndex

section Compare
variable (setup : Setup) (config : FarmingConfig) (badgeOrder : List AppId)
  (left right : FarmingGame)

/-- The position that a game is pinned at; games that are not pinned come after all others. -/
def pinOf (config : FarmingConfig) (game : FarmingGame) : ℕ :=
  (mapIndex config.priority game.appId).getD maxSafeInteger

def badgeOf (badgeOrder : List AppId) (game : FarmingGame) : ℕ :=
  (mapIndex badgeOrder game.appId).getD maxSafeInteger

/-- The order that is meant: the pinned list, the strategy, the badge pages. -/
def InOrder : Prop :=
  pinOf config left < pinOf config right ∨ pinOf config left = pinOf config right ∧
    (strategy setup config.order left right = .lt ∨
      strategy setup config.order left right = .eq ∧
        badgeOf badgeOrder left ≤ badgeOf badgeOrder right)

theorem compareGames_eq : compareGames setup config badgeOrder left right =
    (compare (pinOf config left) (pinOf config right)).then
      ((strategy setup config.order left right).then
        (compare (badgeOf badgeOrder left) (badgeOf badgeOrder right))) := rfl

theorem precedes_iff_inOrder : Sorting.Precedes (compareGames setup config badgeOrder) left right ↔
    InOrder setup config badgeOrder left right := by
  unfold Sorting.Precedes InOrder
  rw [compareGames_eq]
  rcases lt_trichotomy (pinOf config left) (pinOf config right) with hpin | hpin | hpin
  · simp [compare_lt_iff_lt.mpr hpin, hpin]
  · rw [hpin, compare_eq_iff_eq.mpr rfl]
    cases strategy setup config.order left right with
    | lt => simp
    | gt => simp
    | eq => simp [compare_le_iff_le]
  · simp [compare_gt_iff_gt.mpr hpin, hpin.not_gt, hpin.ne']

variable [Std.TransCmp setup.localeCompare]

instance transCmp_strategy (order : FarmingOrder) : Std.TransCmp (strategy setup order) := by
  cases order with
  | cardValue =>
    exact @Std.TransCmp.opposite _ (compareOn fun game : FarmingGame =>
      (game.cardValue.map CardValue.average).getD (-1)) _
  | dropsDesc => exact @Std.TransCmp.opposite _ (compareOn FarmingGame.remainingDrops) _
  | dropsAsc => exact inferInstanceAs (Std.TransCmp (compareOn FarmingGame.remainingDrops))
  | hoursDesc =>
    exact @Std.TransCmp.opposite _ (compareOn fun game : FarmingGame =>
      game.playtimeMinutes.getD 0) _
  | acquiredAsc =>
    exact inferInstanceAs (Std.TransCmp (compareOn fun game : FarmingGame =>
      game.acquiredAt.getD maxSafeInteger))
  | name =>
    exact { eq_swap := fun {_ _} => @Std.OrientedCmp.eq_swap _ setup.localeCompare _ _ _
            isLE_trans := fun {_ _ _} => @Std.TransCmp.isLE_trans _ setup.localeCompare _ _ _ _ }
  | default => exact { eq_swap := rfl, isLE_trans := fun _ _ => rfl }

instance transCmp_compareGames : Std.TransCmp (compareGames setup config badgeOrder) :=
  inferInstanceAs (Std.TransCmp (compareLex (compareOn (pinOf config))
    (compareLex (strategy setup config.order) (compareOn (badgeOf badgeOrder)))))

end Compare

/-- What happens to the games of a session between two scans: prices arrive, the games are
filtered again, or the settings change. -/
inductive Resort where
  | prices (now : ℕ) (values : List (AppId × Option CardValue))
  | filter (now : ℕ) (shuttingDown : Bool)
  | configure (config : FarmingConfig) (now : ℕ) (shuttingDown : Bool)

structure SameGame (a b : FarmingGame) : Prop where
  appId : b.appId = a.appId
  name : b.name = a.name
  remainingDrops : b.remainingDrops = a.remainingDrops
  playtimeMinutes : b.playtimeMinutes = a.playtimeMinutes
  acquiredAt : b.acquiredAt = a.acquiredAt

theorem SameGame.trans {a b c : FarmingGame} (h : SameGame a b) (h' : SameGame b c) :
    SameGame a c :=
  ⟨h'.appId.trans h.appId, h'.name.trans h.name, h'.remainingDrops.trans h.remainingDrops,
    h'.playtimeMinutes.trans h.playtimeMinutes, h'.acquiredAt.trans h.acquiredAt⟩

namespace Session
variable {setup : Setup} {s t : Session} {r : Resort} {now : ℕ} {shuttingDown : Bool}
  {l : List FarmingGame}

def resort (setup : Setup) (s : Session) : Resort → Session
  | .prices now values => s.setPrices setup now values
  | .filter now shuttingDown => (s.filterGames setup now shuttingDown).1
  | .configure config now shuttingDown =>
    ((s.configure config).filterGames setup now shuttingDown).1

structure Distinct (s : Session) : Prop where
  ids : (s.snapshot.games.map FarmingGame.appId).Nodup
  badges : ∀ game ∈ s.snapshot.games, game.appId ∈ s.badgeOrder

/-- The games stand in the order that is meant. -/
def Ordered (setup : Setup) (s : Session) : Prop :=
  s.snapshot.games.Pairwise (InOrder setup s.snapshot.config s.badgeOrder)

theorem Distinct.of_perm (h : s.Distinct) (hbadge : t.badgeOrder = s.badgeOrder)
    (hids : (t.snapshot.games.map FarmingGame.appId).Perm
      (s.snapshot.games.map FarmingGame.appId)) : t.Distinct where
  ids := hids.nodup_iff.mpr h.ids
  badges game hgame := by
    have hmem := hids.subset (List.mem_map_of_mem hgame)
    obtain ⟨old, hold, heq⟩ := List.mem_map.mp hmem
    rw [hbadge, ← heq]
    exact h.badges old hold

/-- No two games of a session compare equal: their badge positions differ. -/
theorem Distinct.separates (h : s.Distinct) (config : FarmingConfig) :
    Sorting.Separates (compareGames setup config s.badgeOrder) s.snapshot.games := by
  intro a ha b hb heq
  rw [compareGames_eq, Ordering.then_eq_eq, Ordering.then_eq_eq] at heq
  have hids := mapIndex_inj (h.badges a ha) (h.badges b hb) (compare_eq_iff_eq.mp heq.2.2)
  exact List.inj_on_of_nodup_map h.ids ha hb hids

theorem orderGames_perm (setup : Setup) (s : Session) :
    (s.orderGames setup).snapshot.games.Perm s.snapshot.games := Sorting.sort_perm _ _

theorem ordered_iff : s.Ordered setup ↔ s.snapshot.games.Pairwise
    (Sorting.Precedes (compareGames setup s.snapshot.config s.badgeOrder)) :=
  ⟨fun h => h.imp (precedes_iff_inOrder ..).mpr, fun h => h.imp (precedes_iff_inOrder ..).mp⟩

/-- What the filter works on, and what it leaves once the games are ordered. -/
def skipped (now : ℕ) (s : Session) : Session :=
  s.setGames <| s.snapshot.games.map fun game =>
    { game with skipReason := skipReasonOf s.snapshot.config now game }

def knownPrices (now : ℕ) (values : List (AppId × Option CardValue)) (s : Session) :
    Table AppId CardPrice :=
  values.foldl (fun known e => known.insert e.1 ⟨e.2, now⟩) s.cardValues

def withPrice (cardValues : Table AppId CardPrice) (game : FarmingGame) : FarmingGame :=
  { game with cardValue := (cardValues.lookup game.appId).bind CardPrice.value }

def priced (now : ℕ) (values : List (AppId × Option CardValue)) (s : Session) : Session :=
  { s.setGames (s.snapshot.games.map (withPrice (s.knownPrices now values))) with
    cardValues := s.knownPrices now values }

theorem filterGames_eq (setup : Setup) (now : ℕ) (shuttingDown : Bool) (s : Session) :
    s.filterGames setup now shuttingDown =
      ((s.skipped now).orderGames setup).priceGames setup now shuttingDown := rfl

theorem setPrices_eq (setup : Setup) (now : ℕ) (values : List (AppId × Option CardValue))
    (s : Session) : s.setPrices setup now values = (s.priced now values).orderGames setup := rfl

theorem sameGames_priceGames (setup : Setup) (now : ℕ) (shuttingDown : Bool) (s : Session) :
    s.SameGames (s.priceGames setup now shuttingDown).1 := by
  unfold priceGames
  dsimp only
  split_ifs <;> exact ⟨rfl, rfl, rfl⟩

theorem SameGames.ordered (h : s.SameGames t) (ho : s.Ordered setup) : t.Ordered setup := by
  unfold Ordered
  rw [h.games, h.config, h.badgeOrder]
  exact ho

theorem SameGames.distinct (h : s.SameGames t) (hd : s.Distinct) : t.Distinct := by
  refine ⟨?_, ?_⟩
  · rw [h.games]
    exact hd.ids
  · rw [h.games, h.badgeOrder]
    exact hd.badges

structure Relabels (s t : Session) : Prop where
  badgeOrder : t.badgeOrder = s.badgeOrder
  games : ∃ f : FarmingGame → FarmingGame, (∀ game, SameGame game (f game)) ∧
    t.snapshot.games.Perm (s.snapshot.games.map f)

theorem Relabels.distinct (h : s.Relabels t) (hs : s.Distinct) : t.Distinct := by
  obtain ⟨f, hf, hperm⟩ := h.games
  refine hs.of_perm h.badgeOrder ((hperm.map _).trans ?_)
  rw [List.map_map]
  exact (List.map_congr_left fun game _ => (hf game).appId) ▸ .refl _

theorem Relabels.refl (s : Session) : s.Relabels s :=
  ⟨rfl, id, fun _ => ⟨rfl, rfl, rfl, rfl, rfl⟩, by rw [List.map_id]⟩

theorem Relabels.of_sameGames {u : Session} (h : s.Relabels t) (hsame : t.SameGames u) :
    s.Relabels u where
  badgeOrder := hsame.badgeOrder.trans h.badgeOrder
  games := by
    rw [hsame.games]
    exact h.games

theorem Relabels.trans {u : Session} (h : s.Relabels t) (h' : t.Relabels u) : s.Relabels u where
  badgeOrder := h'.badgeOrder.trans h.badgeOrder
  games := by
    obtain ⟨f, hf, hperm⟩ := h.games
    obtain ⟨g, hg, hperm'⟩ := h'.games
    refine ⟨g ∘ f, fun game => (hf game).trans (hg (f game)), ?_⟩
    rw [← List.map_map]
    exact hperm'.trans (hperm.map g)

theorem relabels_orderGames {f : FarmingGame → FarmingGame} (hf : ∀ game, SameGame game (f game))
    (hgames : t.snapshot.games = s.snapshot.games.map f) (hbadge : t.badgeOrder = s.badgeOrder) :
    s.Relabels (t.orderGames setup) :=
  ⟨hbadge, f, hf, hgames ▸ t.orderGames_perm setup⟩

theorem relabels_filterGames (setup : Setup) (now : ℕ) (shuttingDown : Bool) (s : Session) :
    s.Relabels (s.filterGames setup now shuttingDown).1 := by
  rw [filterGames_eq]
  have hsort : s.Relabels ((s.skipped now).orderGames setup) :=
    relabels_orderGames (f := fun game =>
      { game with skipReason := skipReasonOf s.snapshot.config now game })
      (fun _ => ⟨rfl, rfl, rfl, rfl, rfl⟩) rfl rfl
  exact hsort.of_sameGames (sameGames_priceGames ..)

theorem relabels_setPrices (setup : Setup) (now : ℕ) (values : List (AppId × Option CardValue))
    (s : Session) : s.Relabels (s.setPrices setup now values) :=
  relabels_orderGames (f := withPrice (s.knownPrices now values)) (t := s.priced now values)
    (fun _ => ⟨rfl, rfl, rfl, rfl, rfl⟩) rfl rfl

theorem relabels_configure (config : FarmingConfig) (s : Session) :
    s.Relabels (s.configure config) :=
  ⟨rfl, id, fun _ => ⟨rfl, rfl, rfl, rfl, rfl⟩, by simp [configure]⟩

theorem Refreshes.relabels (h : s.Refreshes setup now t) : s.Relabels t := by
  cases h with
  | same hsame => exact (Relabels.refl s).of_sameGames hsame
  | filtered config down hsame =>
    exact ((relabels_configure config s).trans (relabels_filterGames ..)).of_sameGames hsame
  | priced values hsame => exact (relabels_setPrices ..).of_sameGames hsame

structure Resorts (setup : Setup) (s t : Session) : Prop extends s.Relabels t where
  ordered : t.Ordered setup

variable [Std.TransCmp setup.localeCompare]

theorem ordered_orderGames (s : Session) : (s.orderGames setup).Ordered setup :=
  ordered_iff.mpr (Sorting.pairwise_sort _)

/-- The order does not depend on the one before. -/
theorem orderGames_congr (h : s.Distinct) (hl : l.Perm s.snapshot.games) :
    (s.setGames l).orderGames setup = s.orderGames setup :=
  congrArg s.setGames (Sorting.sort_congr (h.separates s.snapshot.config) hl)

/-- Sorting again changes nothing. -/
theorem orderGames_of_ordered (h : s.Distinct) (ho : s.Ordered setup) :
    s.orderGames setup = s := by
  have hsort := Sorting.sort_of_pairwise (h.separates s.snapshot.config) (ordered_iff.mp ho)
  exact congrArg s.setGames hsort

/-- Two ordered sessions with the same games have them in the same order. -/
theorem Ordered.unique (h : s.Distinct) (hs : s.Ordered setup) (ht : t.Ordered setup)
    (hconfig : t.snapshot.config = s.snapshot.config) (hbadge : t.badgeOrder = s.badgeOrder)
    (hperm : t.snapshot.games.Perm s.snapshot.games) : t.snapshot.games = s.snapshot.games := by
  rw [ordered_iff, hconfig, hbadge] at ht
  exact Sorting.eq_of_perm (h.separates s.snapshot.config) hperm (ordered_iff.mp hs) ht

theorem ordered_filterGames (now : ℕ) (shuttingDown : Bool) (s : Session) :
    (s.filterGames setup now shuttingDown).1.Ordered setup := by
  rw [filterGames_eq]
  exact (sameGames_priceGames ..).ordered (ordered_orderGames _)

theorem ordered_setPrices (now : ℕ) (values : List (AppId × Option CardValue)) (s : Session) :
    (s.setPrices setup now values).Ordered setup := ordered_orderGames (s.priced now values)

theorem resorts_resort (s : Session) (r : Resort) : Resorts setup s (s.resort setup r) := by
  cases r with
  | prices now values => exact ⟨relabels_setPrices .., ordered_setPrices ..⟩
  | filter now shuttingDown => exact ⟨relabels_filterGames .., ordered_filterGames ..⟩
  | configure config now shuttingDown =>
    exact ⟨(relabels_configure config s).trans (relabels_filterGames ..), ordered_filterGames ..⟩

/-- A resort does not see in which order the games stood. -/
theorem resort_setGames (h : s.Distinct) (hl : l.Perm s.snapshot.games) (r : Resort) :
    (s.setGames l).resort setup r = s.resort setup r := by
  have hskipped {s : Session} (h : s.Distinct) (hl : l.Perm s.snapshot.games) (now : ℕ)
      (shuttingDown : Bool) : (s.setGames l).filterGames setup now shuttingDown =
        s.filterGames setup now shuttingDown := by
    have hd : (s.skipped now).Distinct :=
      h.of_perm rfl (by simp [skipped, setGames, Function.comp_def])
    rw [filterGames_eq, filterGames_eq, ← orderGames_congr hd
      (hl.map fun game => { game with skipReason := skipReasonOf s.snapshot.config now game })]
    rfl
  cases r with
  | prices now values =>
    have hd : (s.priced now values).Distinct :=
      h.of_perm rfl (by simp [priced, setGames, withPrice, Function.comp_def])
    simp only [resort]
    rw [setPrices_eq, setPrices_eq,
      ← orderGames_congr hd (hl.map (withPrice (s.knownPrices now values)))]
    rfl
  | filter now shuttingDown => exact congrArg Prod.fst (hskipped h hl now shuttingDown)
  | configure config now shuttingDown =>
    exact congrArg Prod.fst
      (hskipped ((relabels_configure config s).distinct h) hl now shuttingDown)

/-- A sequence of resorts is one resort. By induction on the sequence. -/
theorem resorts_foldl (s : Session) (r : Resort) (rest : List Resort) :
    Resorts setup s ((r :: rest).foldl (resort setup) s) := by
  induction rest generalizing s r with
  | nil => exact resorts_resort s r
  | cons next rest ih =>
    have hrest := ih (s.resort setup r) next
    exact ⟨(resorts_resort s r).toRelabels.trans hrest.toRelabels, hrest.ordered⟩

theorem foldl_setGames (h : s.Distinct) (hl : l.Perm s.snapshot.games) (r : Resort)
    (rest : List Resort) :
    (r :: rest).foldl (resort setup) (s.setGames l) = (r :: rest).foldl (resort setup) s := by
  rw [List.foldl_cons, resort_setGames h hl, List.foldl_cons]

end Session

def unplayed (game : FarmingGame) : FarmingGame := { game with playtimeMinutes := none }

theorem unplayed_creditGame (elapsed : ℚ) (appId : AppId) (games : List FarmingGame) :
    (creditGame elapsed appId games).map unplayed = games.map unplayed := by
  induction games with
  | nil => rfl
  | cons game games ih =>
    simp only [creditGame]
    split_ifs
    · rfl
    · rw [List.map_cons, List.map_cons, ih]

theorem unplayed_creditGames (elapsed : ℚ) (appIds : List AppId) (games : List FarmingGame) :
    (appIds.foldl (fun games appId => creditGame elapsed appId games) games).map unplayed =
      games.map unplayed := by
  induction appIds generalizing games with
  | nil => rfl
  | cons appId appIds ih => rw [List.foldl_cons, ih, unplayed_creditGame]

/-- The games stand where they stood under the same settings; at most they were played. -/
structure InPlace (s t : Session) : Prop where
  games : t.snapshot.games.map unplayed = s.snapshot.games.map unplayed
  config : t.snapshot.config = s.snapshot.config
  badgeOrder : t.badgeOrder = s.badgeOrder

theorem Session.SameGames.inPlace {s t : Session} (h : s.SameGames t) : InPlace s t :=
  ⟨congrArg _ h.games, h.config, h.badgeOrder⟩

theorem InPlace.trans {s t u : Session} (h : InPlace s t) (h' : InPlace t u) : InPlace s u :=
  ⟨h'.games.trans h.games, h'.config.trans h.config, h'.badgeOrder.trans h.badgeOrder⟩

theorem inPlace_creditPlaytime (now : ℕ) (s : Session) : InPlace s (s.creditPlaytime now) := by
  unfold Session.creditPlaytime
  split
  next => exact ⟨rfl, rfl, rfl⟩
  next => exact ⟨unplayed_creditGames _ _ _, rfl, rfl⟩

theorem InPlace.ids {s t : Session} (h : InPlace s t) :
    t.snapshot.games.map FarmingGame.appId = s.snapshot.games.map FarmingGame.appId := by
  have hids := congrArg (List.map FarmingGame.appId) h.games
  simpa only [List.map_map, Function.comp_def, unplayed] using hids

theorem InPlace.distinct {s t : Session} (h : InPlace s t) (hd : s.Distinct) : t.Distinct :=
  hd.of_perm h.badgeOrder (h.ids ▸ .refl _)

/-- Steam's badge pages list a game once: `discover` collects them in a map by id. -/
def DistinctDiscovery (_ : Controller) : Action → Prop
  | .settle _ (.discovery discovery) => (discovery.games.map FarmingGame.appId).Nodup
  | _ => True

namespace Controller
variable {setup : Setup} {c d : Controller} {s s' : Session} {action : Action}

theorem observed_nodup (h : DistinctDiscovery c action) :
    ((c.observed action).map FarmingGame.appId).Nodup := by
  unfold observed
  split
  next id discovery =>
    have hnil : (([] : List FarmingGame).map FarmingGame.appId).Nodup := List.nodup_nil
    split
    · split_ifs
      · exact h
      · exact hnil
    · split_ifs
      · exact h
      · exact hnil
    · exact hnil
  next => exact List.nodup_nil

/-- The games of a scan before they are filtered. -/
theorem updateGames_eq (setup : Setup) (now : ℕ) (shuttingDown : Bool) (discovery : Discovery)
    (s : Session) : ∃ t : Session,
      s.updateGames setup now shuttingDown discovery = t.filterGames setup now shuttingDown ∧
        t.badgeOrder = discovery.games.map FarmingGame.appId ∧
        t.snapshot.games.map FarmingGame.appId = discovery.games.map FarmingGame.appId := by
  refine ⟨_, rfl, rfl, ?_⟩
  simp [Function.comp_def]

theorem distinct_updateGames {now : ℕ} {shuttingDown : Bool} {discovery : Discovery}
    (h : (discovery.games.map FarmingGame.appId).Nodup) :
    (s.updateGames setup now shuttingDown discovery).1.Distinct := by
  obtain ⟨t, ht, hbadge, hids⟩ := updateGames_eq setup now shuttingDown discovery s
  rw [ht]
  refine (Session.relabels_filterGames setup now shuttingDown t).distinct
    ⟨hids ▸ h, fun game hgame => ?_⟩
  rw [hbadge, ← hids]
  exact List.mem_map_of_mem hgame

/-- The games that are credited or scanned before a choice. -/
theorem distinct_of_source {t : Session} (hs : s.Distinct) (haction : DistinctDiscovery c action)
    (hsource : ((s.creditPlaytime c.now).SameGames t ∧ c.Counting s) ∨ ∃ discovery,
      (s.updateGames setup c.now c.shuttingDown discovery).1.SameGames t ∧
        c.observed action = discovery.games) : t.Distinct := by
  rcases hsource with ⟨hcredit, -⟩ | ⟨discovery, hscan, hseen⟩
  · exact hcredit.distinct ((inPlace_creditPlaytime c.now s).distinct hs)
  · exact hscan.distinct (distinct_updateGames (hseen ▸ observed_nodup haction))

/-- After a step the games are different still. -/
theorem Turn.distinct (h : c.Turn setup action d s s') (hs : s.Distinct)
    (haction : DistinctDiscovery c action) : s'.Distinct := by
  cases h with
  | stays hgames h => exact hgames.relabels.distinct hs
  | rests hgames h => exact hgames.relabels.distinct hs
  | scans discovery shuttingDown hseen hgames h =>
    exact hgames.distinct (distinct_updateGames (hseen ▸ observed_nodup haction))
  | begins limit hgames => exact hgames.distinct hs
  | credits limit hgames =>
    exact hgames.distinct ((inPlace_creditPlaytime c.now s).distinct hs)
  | chooses t limit hsource hlimit hgames hactive h =>
    exact hgames.distinct
      ((Session.relabels_filterGames ..).distinct (distinct_of_source hs haction hsource))
  | arms appIds warmingUp hgames => exact hgames.distinct hs

theorem Begins.distinct (h : c.Begins setup s) (hc : ∀ s, c.session = some s → s.Distinct) :
    s.Distinct := by
  rcases h with hs | ⟨-, config, rfl⟩
  · exact hc s hs
  · exact ⟨List.nodup_nil, fun _ h => by cases h⟩

theorem distinct_of_reachable (h : (controllerMachine setup).ReachableWhen DistinctDiscovery c) :
    ∀ s, c.session = some s → s.Distinct := by
  refine h.invariant_of (I := fun c => ∀ s, c.session = some s → s.Distinct) ?_ ?_
  · rintro _ rfl s hs
    cases hs
  · intro c action d hr hi hC hn s' hs'
    obtain ⟨s, hbegins, hturn⟩ := turn_of_reachable hr.reachable hn hs'
    exact hturn.distinct (hbegins.distinct hi) hC

variable [Std.TransCmp setup.localeCompare]

theorem ordered_of_refreshes (h : s.Refreshes setup c.now s') :
    InPlace s s' ∨ s'.Ordered setup := by
  cases h with
  | same hsame => exact .inl hsame.inPlace
  | filtered config shuttingDown hsame =>
    exact .inr (hsame.ordered (Session.ordered_filterGames ..))
  | priced values hsame => exact .inr (hsame.ordered (Session.ordered_setPrices ..))

/-- After a step the games are ordered, unless it left them in place. -/
theorem Turn.ordered (h : c.Turn setup action d s s') : InPlace s s' ∨ s'.Ordered setup := by
  cases h with
  | stays hgames h => exact ordered_of_refreshes hgames
  | rests hgames h => exact ordered_of_refreshes hgames
  | scans discovery shuttingDown hseen hgames h =>
    obtain ⟨t, ht, -⟩ := updateGames_eq setup c.now shuttingDown discovery s
    exact .inr (hgames.ordered (ht ▸ Session.ordered_filterGames ..))
  | begins limit hgames => exact .inl hgames.inPlace
  | credits limit hgames => exact .inl ((inPlace_creditPlaytime c.now s).trans hgames.inPlace)
  | chooses t limit hsource hlimit hgames hactive h =>
    exact .inr (hgames.ordered (Session.ordered_filterGames ..))
  | arms appIds warmingUp hgames => exact .inl hgames.inPlace

/-- In every run in which Steam lists a game once: whatever prices arrive and however often the
games are filtered or their settings change, they are the same games, in the order that is
meant, which neither the order before nor another sort changes and which any other history with
the same games leads to; and no step of the controller itself leaves them in another one. -/
theorem canonicalOrder (h : (controllerMachine setup).ReachableWhen DistinctDiscovery c)
    (hs : c.session = some s) :
    (∀ (r : Resort) (rest : List Resort),
      Session.Resorts setup s ((r :: rest).foldl (Session.resort setup) s) ∧
      ((r :: rest).foldl (Session.resort setup) s).orderGames setup =
        (r :: rest).foldl (Session.resort setup) s ∧
      (∀ l, l.Perm s.snapshot.games → (r :: rest).foldl (Session.resort setup) (s.setGames l) =
        (r :: rest).foldl (Session.resort setup) s) ∧
      ∀ (r' : Resort) (rest' : List Resort) (t : Session),
        t = (r' :: rest').foldl (Session.resort setup) s →
        t.snapshot.config = ((r :: rest).foldl (Session.resort setup) s).snapshot.config →
        t.snapshot.games.Perm ((r :: rest).foldl (Session.resort setup) s).snapshot.games →
        t.snapshot.games = ((r :: rest).foldl (Session.resort setup) s).snapshot.games) ∧
    ∀ action d s', DistinctDiscovery c action → (controllerMachine setup).next c action = some d →
      d.session = some s' → InPlace s s' ∨ s'.Ordered setup := by
  have hdistinct := distinct_of_reachable h s hs
  refine ⟨fun r rest => ?_, fun action d s' hC hn hs' => ?_⟩
  · have hsort : Session.Resorts setup s _ := Session.resorts_foldl s r rest
    have hd := hsort.distinct hdistinct
    refine ⟨hsort, Session.orderGames_of_ordered hd hsort.ordered,
      fun l hl => Session.foldl_setGames hdistinct hl r rest, ?_⟩
    rintro r' rest' t rfl hconfig hperm
    have hsort' : Session.Resorts setup s _ := Session.resorts_foldl s r' rest'
    exact Session.Ordered.unique hd hsort.ordered hsort'.ordered hconfig
      (hsort'.badgeOrder.trans hsort.badgeOrder.symm) hperm
  · obtain ⟨s₀, hbegins, hturn⟩ := turn_of_reachable h.reachable hn hs'
    rcases hbegins with hs₀ | ⟨hnone, -⟩
    · obtain rfl := Option.some.inj (hs₀.symm.trans hs)
      exact hturn.ordered
    · simp [hnone] at hs

def farmByValue : List Action :=
  [.start { skipRefundable := false, order := .cardValue, priority := [30] } none false,
    .settle 0 (.availability ⟨true, none, 32⟩), .act 0, .settle 0 .done,
    .settle 0 (.discovery ⟨[⟨10, "b", 3, some 200, none, none, none⟩,
      ⟨20, "a", 1, some 200, none, none, none⟩, ⟨30, "c", 2, some 200, none, none, none⟩], false⟩)]

def valuedRun : Controller :=
  ((controllerMachine plainSetup).exec .empty farmByValue).getD .empty

theorem canonicalOrder_valuedRun : ∃ s, valuedRun.session = some s ∧
    (([Resort.prices 0 [(20, some ⟨5, "5"⟩)], .filter 0 false].foldl (Session.resort plainSetup)
      s).snapshot.games.map FarmingGame.appId) = [30, 20, 10] ∧
    Session.Resorts plainSetup s ([Resort.prices 0 [(20, some ⟨5, "5"⟩)],
      .filter 0 false].foldl (Session.resort plainSetup) s) := by
  have hdistinct : ∀ a ∈ farmByValue, ∀ c, DistinctDiscovery c a := by
    intro a ha c
    simp only [farmByValue, List.mem_cons, List.not_mem_nil, or_false] at ha
    rcases ha with rfl | rfl | rfl | rfl | rfl
    · trivial
    · trivial
    · trivial
    · trivial
    · show List.Nodup _
      decide
  have hreach : (controllerMachine plainSetup).ReachableWhen DistinctDiscovery valuedRun :=
    Machine.reachableWhen_exec hdistinct rfl (by decide +kernel)
  have htrans : Std.TransCmp plainSetup.localeCompare :=
    inferInstanceAs (Std.TransCmp (compare : String → String → Ordering))
  obtain ⟨s, hs⟩ : ∃ s, valuedRun.session = some s :=
    Option.isSome_iff_exists.mp (by decide +kernel)
  have hids : (valuedRun.session.map fun s => ([Resort.prices 0 [(20, some ⟨5, "5"⟩)],
      .filter 0 false].foldl (Session.resort plainSetup) s).snapshot.games.map FarmingGame.appId) =
        some [30, 20, 10] := by decide +kernel
  rw [hs] at hids
  exact ⟨s, hs, Option.some.inj hids, ((canonicalOrder hreach hs).1 _ _).1⟩

end Controller
end SteamBee.Farming
