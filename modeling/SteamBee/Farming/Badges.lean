import SteamBee.Farming.Order

/-! The games that Steam's badge pages list: `discover` walks the pages it is told of, collects
the games in a map by id and adds what the library knows. No game is listed twice. -/
namespace SteamBee.Farming

def maxBadgePages : ℕ := 20

def maxBadgeGames : ℕ := 1000

structure BadgePage where
  games : List FarmingGame
  pageCount : ℕ

/-- `Map.set` on the games by id: a known id keeps its place. -/
def setGame (game : FarmingGame) : List FarmingGame → List FarmingGame
  | [] => [game]
  | first :: games => if first.appId = game.appId then game :: games else first :: setGame game games

/-- Games beyond the bound are left out, and the discovery says so. -/
def collectGame (found : Discovery) (game : FarmingGame) : Discovery :=
  if maxBadgeGames ≤ found.games.length ∧ ∀ known ∈ found.games, known.appId ≠ game.appId then
    { found with truncated := true }
  else { found with games := setGame game found.games }

/-- The loop over the pages from `page` on, with the pages that may follow counted down. -/
def discoverPages (requestPage : ℕ → BadgePage) : ℕ → ℕ → ℕ → Discovery → Discovery
  | 0, _, _, found => found
  | left + 1, page, pageCount, found =>
    if min pageCount maxBadgePages < page then found
    else
      let parsed := requestPage page
      let pageCount := max pageCount parsed.pageCount
      discoverPages requestPage left (page + 1) pageCount <|
        parsed.games.foldl collectGame
          { found with truncated := found.truncated || decide (maxBadgePages < pageCount) }

def discoverBadgeDrops (requestPage : ℕ → BadgePage) : Discovery :=
  discoverPages requestPage maxBadgePages 1 1 ⟨[], false⟩

structure LibraryGame where
  appId : AppId
  name : String
  playtimeMinutes : Option ℚ

/-- The last entry of an id is the one that the map by id keeps. -/
def enrichBadgeGame (library : List LibraryGame) (game : FarmingGame) : FarmingGame :=
  match library.reverse.find? fun entry => entry.appId = game.appId with
  | none => game
  | some entry =>
    { game with
      name := entry.name
      playtimeMinutes := some (max (game.playtimeMinutes.getD 0) (entry.playtimeMinutes.getD 0)) }

/-- `discover` of the farming service: `acquired` is `none` when the dates are unavailable. -/
def discover (requestPage : ℕ → BadgePage) (library : List LibraryGame)
    (acquired : Option (AppId → Option ℕ)) : Discovery :=
  let discovery := discoverBadgeDrops requestPage
  { discovery with
    games := discovery.games.map fun game =>
      let game := enrichBadgeGame library game
      match acquired with
      | none => game
      | some acquired => { game with acquiredAt := acquired game.appId } }

theorem ids_setGame (game : FarmingGame) (games : List FarmingGame) :
    (setGame game games).map FarmingGame.appId =
      if game.appId ∈ games.map FarmingGame.appId then games.map FarmingGame.appId
      else games.map FarmingGame.appId ++ [game.appId] := by
  induction games with
  | nil => simp [setGame]
  | cons first games ih =>
    simp only [setGame]
    split_ifs with hsame hmem hmem
    · simp [hsame]
    · simp [hsame] at hmem
    · have hrest : game.appId ∈ games.map FarmingGame.appId := by
        simpa [Ne.symm hsame] using hmem
      simp [ih, hrest]
    · have hrest : game.appId ∉ games.map FarmingGame.appId := by
        simpa [Ne.symm hsame] using hmem
      simp [ih, hrest]

theorem nodup_setGame {game : FarmingGame} {games : List FarmingGame}
    (h : (games.map FarmingGame.appId).Nodup) :
    ((setGame game games).map FarmingGame.appId).Nodup := by
  rw [ids_setGame]
  split_ifs with hmem
  · exact h
  · exact List.nodup_append.mpr ⟨h, List.nodup_singleton _, fun a ha b hb =>
      fun heq => hmem (by rw [List.mem_singleton] at hb; rw [← hb, ← heq]; exact ha)⟩

/-- Collecting games keeps their ids different. -/
theorem nodup_collectGames (games : List FarmingGame) {found : Discovery}
    (h : (found.games.map FarmingGame.appId).Nodup) :
    ((games.foldl collectGame found).games.map FarmingGame.appId).Nodup := by
  induction games generalizing found with
  | nil => exact h
  | cons game games ih =>
    refine ih ?_
    unfold collectGame
    split_ifs
    · exact h
    · exact nodup_setGame h

theorem nodup_discoverPages (requestPage : ℕ → BadgePage) (left page pageCount : ℕ)
    {found : Discovery} (h : (found.games.map FarmingGame.appId).Nodup) :
    ((discoverPages requestPage left page pageCount found).games.map FarmingGame.appId).Nodup := by
  induction left generalizing page pageCount found with
  | zero => exact h
  | succ left ih =>
    simp only [discoverPages]
    split_ifs
    · exact h
    · refine ih _ _ (nodup_collectGames _ ?_)
      exact h

theorem appId_enrichBadgeGame (library : List LibraryGame) (game : FarmingGame) :
    (enrichBadgeGame library game).appId = game.appId := by
  unfold enrichBadgeGame
  split <;> rfl

/-- What the service discovers is what the runs of the controller are promised. -/
theorem distinctDiscovery_discover (c : Controller) (id : TaskId)
    (requestPage : ℕ → BadgePage) (library : List LibraryGame)
    (acquired : Option (AppId → Option ℕ)) :
    DistinctDiscovery c (.settle id (.discovery (discover requestPage library acquired))) := by
  have hids : (discover requestPage library acquired).games.map FarmingGame.appId =
      (discoverBadgeDrops requestPage).games.map FarmingGame.appId := by
    simp only [discover, List.map_map]
    refine List.map_congr_left fun game _ => ?_
    cases acquired <;> exact appId_enrichBadgeGame library game
  show List.Nodup _
  rw [hids]
  exact nodup_discoverPages requestPage _ _ _ List.nodup_nil

end SteamBee.Farming
