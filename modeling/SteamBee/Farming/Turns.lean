import SteamBee.Farming.Tracks

/-! What one step of the controller does to the games of its session, to the clock of their
playtime and to the selection: the later results about games are read off from this. -/
namespace SteamBee.Farming

/-- Where an `advance` waits before it reports its selection, with what it carries. -/
inductive Place where
  | availability
  | begin (gameLimit : ℕ)
  | discover (gameLimit : ℕ)
  | apply (appIds : List AppId) (warmingUp : Bool)

def Point.place : Point → Option Place
  | .availability => some .availability
  | .begin _ gameLimit => some (.begin gameLimit)
  | .discover gameLimit => some (.discover gameLimit)
  | .apply _ appIds warmingUp => some (.apply appIds warmingUp)
  | _ => none

namespace Session

structure SameGames (s t : Session) : Prop where
  games : t.snapshot.games = s.snapshot.games
  config : t.snapshot.config = s.snapshot.config
  badgeOrder : t.badgeOrder = s.badgeOrder

structure SameClock (s t : Session) : Prop extends s.SameControl t where
  activeSince : t.activeSince = s.activeSince
  gameLimit : t.snapshot.gameLimit = s.snapshot.gameLimit

def configure (config : FarmingConfig) (s : Session) : Session :=
  { s with snapshot := { s.snapshot with config } }

/-- What a step that lets no time count makes of the games. -/
inductive Refreshes (setup : Setup) (now : ℕ) (s t : Session) : Prop
  | same (h : s.SameGames t)
  | filtered (config : FarmingConfig) (shuttingDown : Bool)
      (h : ((s.configure config).filterGames setup now shuttingDown).1.SameGames t)
  | priced (values : List (AppId × Option CardValue))
      (h : (s.setPrices setup now values).SameGames t)

variable {setup : Setup} {now : ℕ} {shuttingDown : Bool} {s t u : Session}

theorem SameGames.refl (s : Session) : s.SameGames s := ⟨rfl, rfl, rfl⟩

theorem SameGames.trans (h : s.SameGames t) (h' : t.SameGames u) : s.SameGames u :=
  ⟨h'.games.trans h.games, h'.config.trans h.config, h'.badgeOrder.trans h.badgeOrder⟩

theorem SameClock.refl (s : Session) : s.SameClock s := ⟨.refl s, rfl, rfl⟩

theorem Refreshes.trans_same (h : s.Refreshes setup now t) (h' : t.SameGames u) :
    s.Refreshes setup now u := by
  cases h with
  | same h => exact .same (h.trans h')
  | filtered config down h => exact .filtered config down (h.trans h')
  | priced values h => exact .priced values (h.trans h')

theorem sameClock_filterGames (setup : Setup) (now : ℕ) (shuttingDown : Bool) (s : Session) :
    s.SameClock (s.filterGames setup now shuttingDown).1 := by
  refine ⟨sameControl_filterGames setup now shuttingDown s, ?_, ?_⟩
  · unfold filterGames priceGames
    dsimp only
    split_ifs <;> rfl
  · unfold filterGames priceGames
    dsimp only
    split_ifs <;> rfl

theorem config_filterGames (setup : Setup) (now : ℕ) (shuttingDown : Bool) (s : Session) :
    (s.filterGames setup now shuttingDown).1.snapshot.config = s.snapshot.config := by
  unfold filterGames priceGames
  dsimp only
  split_ifs <;> rfl

theorem gameLimit_creditPlaytime (now : ℕ) (s : Session) :
    (s.creditPlaytime now).snapshot.gameLimit = s.snapshot.gameLimit := by
  unfold creditPlaytime
  split <;> rfl

theorem sameGames_halt (reason : String) (s : Session) : s.SameGames (s.halt reason) := by
  unfold Session.halt
  dsimp only
  split_ifs <;> exact ⟨rfl, rfl, rfl⟩

theorem SameGames.creditPlaytime (h : s.SameGames t) (hsince : t.activeSince = s.activeSince)
    (hactive : t.snapshot.activeAppIds = s.snapshot.activeAppIds) :
    (s.creditPlaytime now).SameGames (t.creditPlaytime now) := by
  unfold Session.creditPlaytime
  rw [hsince]
  cases s.activeSince with
  | none => exact h
  | some activeSince => exact ⟨by simp only [setGames, hactive, h.games], h.config, h.badgeOrder⟩

theorem gameLimit_updateGames (setup : Setup) (now : ℕ) (shuttingDown : Bool)
    (discovery : Discovery) (s : Session) :
    (s.updateGames setup now shuttingDown discovery).1.snapshot.gameLimit =
      s.snapshot.gameLimit := by
  unfold updateGames
  rw [(sameClock_filterGames setup now shuttingDown _).gameLimit]

end Session

namespace Controller
variable {setup : Setup} {c d e : Controller} {s s' t : Session} {id : TaskId} {a : Advance}
  {action : Action} {place : Place}

def Stands (c : Controller) (s : Session) (place : Place) : Prop :=
  ∃ k a point, c.tasks.lookup k = some (.advance a point) ∧ a.generation = s.generation ∧
    point.place = some place

/-- The next thing that happens to the playtimes may be a credit. -/
def Counting (c : Controller) (s : Session) : Prop :=
  s.timer ≠ none ∨ c.Stands s .availability ∨ ∃ gameLimit, c.Stands s (.begin gameLimit)

def NoNew (c d : Controller) : Prop := ∀ (k : TaskId) (a : Advance) (point : Point),
  d.tasks.lookup k = some (.advance a point) → c.tasks.lookup k = some (.advance a point)

/-- Every selection that waits to be applied in `d` waited in `c` already. -/
def NoCall (c d : Controller) : Prop :=
  ∀ (k : TaskId) (a : Advance) (appIds : List AppId) (warmingUp : Bool),
    d.tasks.lookup k = some (.advance a (.apply .pending appIds warmingUp)) →
      c.tasks.lookup k = some (.advance a (.apply .pending appIds warmingUp))

theorem NoNew.refl (c : Controller) : c.NoNew c := fun _ _ _ h => h

theorem NoNew.trans (h : c.NoNew d) (h' : d.NoNew e) : c.NoNew e :=
  fun k a point hk => h k a point (h' k a point hk)

theorem NoNew.noCall (h : c.NoNew d) : c.NoCall d := fun k a _ _ hk => h k a _ hk

theorem NoNew.stands (h : c.NoNew d) (hg : s'.generation = s.generation)
    (hs : d.Stands s' place) : c.Stands s place := by
  obtain ⟨k, a, point, hk, ha, hp⟩ := hs
  exact ⟨k, a, point, h k a point hk, ha.trans hg, hp⟩

theorem noNew_of_tasks (h : d.tasks = c.tasks) : c.NoNew d := fun _ _ _ hk => h ▸ hk

theorem Backs.noNew (h : c.Backs d) : c.NoNew d := by
  intro k a point hk
  rcases h.tasks k _ hk with hk | ⟨-, -, appIds, he⟩
  · exact hk
  · cases he

theorem noNew_await {task : Task} (h : ∀ a point, task ≠ .advance a point) :
    c.NoNew (c.await id task) := by
  intro k a point hk
  rw [lookup_await] at hk
  split_ifs at hk
  · exact absurd (Option.some.inj hk) (h a point)
  · exact hk

theorem noNew_finish : c.NoNew (c.finish id) := by
  intro k a point hk
  rw [lookup_finish] at hk
  split_ifs at hk
  exact hk

theorem noNew_returns : c.NoNew (c.returns id a) := by
  intro k b point hk
  rw [lookup_returns] at hk
  split_ifs at hk
  · obtain ⟨resumed, -, he⟩ := Option.map_eq_some_iff.mp hk
    cases he
  · exact hk

theorem noNew_spawn {task : Task} (h : ∀ a point, task ≠ .advance a point) :
    c.NoNew (c.spawn task) := by
  intro k a point hk
  rw [lookup_spawn] at hk
  split_ifs at hk
  · exact absurd (Option.some.inj hk) (h a point)
  · exact hk

structure Stays (c d : Controller) (s s' : Session) : Prop where
  activeAppIds : s'.snapshot.activeAppIds = s.snapshot.activeAppIds
  activeSince : s'.activeSince = s.activeSince
  gameLimit : s'.snapshot.gameLimit = s.snapshot.gameLimit
  counting : d.Counting s' → c.Counting s
  stands : ∀ place, d.Stands s' place → place ≠ .availability → c.Stands s place
  calls : c.NoCall d

/-- Nothing is played, and at most a new `advance` has begun. -/
structure Rests (c d : Controller) (s' : Session) : Prop where
  activeAppIds : s'.snapshot.activeAppIds = []
  activeSince : s'.activeSince = none
  stands : ∀ place, d.Stands s' place → place = .availability
  calls : c.NoCall d

inductive Chooses (c d : Controller) (t s' : Session) (selection : Selection) : Prop
  | rests (h : c.Rests d s')
  | calls (k : TaskId) (a : Advance) (hnonempty : selection.appIds ≠ [])
      (hcall : d.tasks.lookup k =
        some (.advance a (.apply .pending selection.appIds selection.warmingUp)))
      (hothers : ∀ k' a' appIds warmingUp, k' ≠ k →
        d.tasks.lookup k' = some (.advance a' (.apply .pending appIds warmingUp)) →
          c.tasks.lookup k' = some (.advance a' (.apply .pending appIds warmingUp)))
      (hactive : s'.snapshot.activeAppIds = t.snapshot.activeAppIds) (htimer : s'.timer = none)
      (hstands : ∀ place, d.Stands s' place → place = .apply selection.appIds selection.warmingUp)
  | arms (hsince : s'.activeSince = some c.now) (hactive : s'.snapshot.activeAppIds = selection.appIds)
      (hsame : selection.appIds = t.snapshot.activeAppIds)
      (hstands : ∀ place, ¬ d.Stands s' place) (hcalls : c.NoCall d)

/-- The games that Steam shows in this step, if the session takes them over. -/
def observed (c : Controller) : Action → List FarmingGame
  | .settle id (.discovery discovery) =>
    match c.tasks.lookup id with
    | some (.scan generation) => if c.isCurrent generation then discovery.games else []
    | some (.advance a (.discover _)) => if c.isCurrent a.generation then discovery.games else []
    | _ => []
  | _ => []

inductive Turn (setup : Setup) (c : Controller) (action : Action) (d : Controller)
    (s s' : Session) : Prop
  | stays (hgames : s.Refreshes setup c.now s') (h : c.Stays d s s')
  | rests (hgames : s.Refreshes setup c.now s') (h : c.Rests d s')
  | scans (discovery : Discovery) (shuttingDown : Bool)
      (hseen : c.observed action = discovery.games)
      (hgames : (s.updateGames setup c.now shuttingDown discovery).1.SameGames s')
      (h : c.Rests d s')
  | begins (gameLimit : ℕ) (hgames : s.SameGames s') (hcounting : c.Counting s)
      (hactive : s'.snapshot.activeAppIds = s.snapshot.activeAppIds)
      (hsince : s'.activeSince = s.activeSince) (hlimit : s'.snapshot.gameLimit = gameLimit)
      (hstands : ∀ place, d.Stands s' place → place = .begin gameLimit) (hcalls : c.NoCall d)
  | credits (gameLimit : ℕ) (hgames : (s.creditPlaytime c.now).SameGames s')
      (hcounting : c.Counting s) (htimer : s'.timer = none)
      (hactive : s'.snapshot.activeAppIds = s.snapshot.activeAppIds)
      (hlimit : s'.snapshot.gameLimit = gameLimit)
      (hstands : ∀ place, d.Stands s' place → place = .discover gameLimit) (hcalls : c.NoCall d)
  | chooses (t : Session) (gameLimit : ℕ)
      (hsource : ((s.creditPlaytime c.now).SameGames t ∧ c.Counting s) ∨ ∃ discovery,
        (s.updateGames setup c.now c.shuttingDown discovery).1.SameGames t ∧
          c.observed action = discovery.games)
      (hlimit : s'.snapshot.gameLimit = gameLimit)
      (hgames : (t.filterGames setup c.now c.shuttingDown).1.SameGames s')
      (hactive : t.snapshot.activeAppIds = s.snapshot.activeAppIds)
      (h : c.Chooses d t s' (select s'.snapshot.config gameLimit s'.snapshot.games))
  | arms (appIds : List AppId) (warmingUp : Bool) (hgames : s.SameGames s')
      (hcall : c.Stands s (.apply appIds warmingUp))
      (hlimit : s'.snapshot.gameLimit = s.snapshot.gameLimit)
      (hsince : s'.activeSince = some c.now) (hactive : s'.snapshot.activeAppIds = appIds)
      (hstands : ∀ place, ¬ d.Stands s' place) (hcalls : c.NoCall d)

/-- The session that a step begins with: the calls that come first make one. -/
def Begins (setup : Setup) (c : Controller) (s : Session) : Prop :=
  c.session = some s ∨ c.session = none ∧ ∃ config, s = Session.new setup config

/-- A step after which the worker stands where it stood. -/
theorem NoNew.stays (h : c.NoNew d) (hg : s'.generation = s.generation) (htimer : s'.timer = s.timer)
    (hactive : s'.snapshot.activeAppIds = s.snapshot.activeAppIds)
    (hsince : s'.activeSince = s.activeSince)
    (hlimit : s'.snapshot.gameLimit = s.snapshot.gameLimit) : c.Stays d s s' where
  activeAppIds := hactive
  activeSince := hsince
  gameLimit := hlimit
  counting hcount := by
    rcases hcount with ht | hs | ⟨gameLimit, hs⟩
    · exact .inl (htimer ▸ ht)
    · exact .inr (.inl (h.stands hg hs))
    · exact .inr (.inr ⟨gameLimit, h.stands hg hs⟩)
  stands _ hs _ := h.stands hg hs
  calls := h.noCall

theorem NoNew.stays_of_sameClock (h : c.NoNew d) (hclock : s.SameClock s') : c.Stays d s s' :=
  h.stays hclock.generation hclock.timer hclock.activeAppIds hclock.activeSince hclock.gameLimit

/-- Every `advance` stands in a generation that has begun. -/
theorem stands_le (h : Shape c s) (hs : ∃ k point, c.tasks.lookup k = some (.advance a point) ∧
    point.place = some place) : a.generation ≤ s.generation := by
  obtain ⟨k, point, hk, -⟩ := hs
  have hfit := (h.fits k _ hk).bounded
  cases point <;> first | exact hfit | exact hfit.1.le.trans hfit.2

/-- A new generation has no `advance` but new ones. -/
theorem NoNew.not_stands (h : c.NoNew d) (hc : Shape c s) (hg : s.generation < s'.generation) :
    ¬ d.Stands s' place := by
  rintro ⟨k, a, point, hk, ha, hp⟩
  have hle := stands_le hc ⟨k, point, h k a point hk, hp⟩
  omega

theorem NoNew.rests (h : c.NoNew d) (hc : Shape c s) (hg : s.generation < s'.generation)
    (hactive : s'.snapshot.activeAppIds = []) (hsince : s'.activeSince = none) : c.Rests d s' where
  activeAppIds := hactive
  activeSince := hsince
  stands _ hs := absurd hs (h.not_stands hc hg)
  calls := h.noCall

theorem drives_of_place {point : Point} (h : point.place = some place) :
    (Task.advance a point).drives a.generation = true := by
  cases point with
  | availability | begin | discover | apply => simp [Task.drives, Task.works]
  | _ => cases h

/-- Where the worker stands after it went on to await `point`. -/
theorem Working.stands_await {point : Point} (h : Working c t id a) (htasks : d.tasks = c.tasks)
    (hg : s'.generation = t.generation) (hs : (d.await id (.advance a point)).Stands s' place) :
    point.place = some place := by
  obtain ⟨k, b, q, hk, hb, hq⟩ := hs
  rw [lookup_await] at hk
  split_ifs at hk with hid
  · obtain ⟨rfl, rfl⟩ := Task.advance.inj (Option.some.inj hk)
    exact hq
  · obtain ⟨task, hlook, hdrives⟩ := h.task
    have hdrives' := drives_of_place (a := b) hq
    rw [hb, hg] at hdrives'
    exact absurd (h.shape.one k id _ _ (htasks ▸ hk) hlook hdrives' hdrives) hid

theorem Working.stands_returns (h : Working c t id a) (htasks : d.tasks = c.tasks)
    (hg : s'.generation = t.generation) : ¬ (d.returns id a).Stands s' place := by
  rintro ⟨k, b, q, hk, hb, hq⟩
  rw [lookup_returns] at hk
  split_ifs at hk with hid
  · obtain ⟨resumed, -, he⟩ := Option.map_eq_some_iff.mp hk
    cases he
  · obtain ⟨task, hlook, hdrives⟩ := h.task
    have hdrives' := drives_of_place (a := b) hq
    rw [hb, hg] at hdrives'
    exact absurd (h.shape.one k id _ _ (htasks ▸ hk) hlook hdrives' hdrives) hid

theorem noCall_await {point : Point} (h : c.NoNew d)
    (hpoint : ∀ appIds warmingUp, point ≠ .apply .pending appIds warmingUp) :
    c.NoCall (d.await id (.advance a point)) := by
  intro k b appIds warmingUp hk
  rw [lookup_await] at hk
  split_ifs at hk
  · exact absurd (Task.advance.inj (Option.some.inj hk)).2 (hpoint appIds warmingUp)
  · exact h k b _ hk

theorem noCall_returns (h : c.NoNew d) : c.NoCall (d.returns id a) := (h.trans noNew_returns).noCall

/-- Only the selection that was shown before matters. -/
theorem Chooses.congr {u : Session} {selection : Selection} (h : c.Chooses d u s' selection)
    (hactive : u.snapshot.activeAppIds = t.snapshot.activeAppIds) :
    c.Chooses d t s' selection := by
  cases h with
  | rests h => exact .rests h
  | calls k a hnonempty hcall hothers hshown htimer hstands =>
    exact .calls k a hnonempty hcall hothers (hshown.trans hactive) htimer hstands
  | arms hsince hshown hsame hstands hcalls =>
    exact .arms hsince hshown (hsame.trans hactive) hstands hcalls

section Chooses
variable {selection : Selection} {gameLimit : ℕ}

theorem Working.chooses_complete (h : Working d t id a) (hnew : c.NoNew d) (noneEligible : Bool) :
    ∃ s', (d.complete t id a noneEligible).session = some s' ∧ t.SameGames s' ∧
      s'.snapshot.gameLimit = t.snapshot.gameLimit ∧
      c.Chooses (d.complete t id a noneEligible) t s' selection := by
  refine ⟨t.complete noneEligible, ?_, ⟨rfl, rfl, rfl⟩, rfl, .rests ?_⟩
  · unfold complete
    dsimp only
    split_ifs
    · rfl
    · exact returns_session
  · unfold complete
    dsimp only
    split_ifs
    · refine ⟨rfl, rfl, fun place hs => ?_, noCall_await hnew (fun _ _ he => by cases he)⟩
      have hplace := h.stands_await (by rfl) (by rfl) hs
      cases hplace
    · exact ⟨rfl, rfl, fun place hs => absurd hs (h.stands_returns (by rfl) (by rfl)),
        noCall_returns (hnew.trans (noNew_of_tasks (by rfl)))⟩

/-- What `arm` leaves: the selection is shown, its clock starts and nothing waits. -/
theorem Working.arm_spec (setup : Setup) (h : Working d t id a) (hnew : c.NoNew d)
    (appIds : List AppId) (warmingUp : Bool) : ∃ s', (d.arm setup t id a appIds warmingUp).session = some s' ∧
      t.SameGames s' ∧ s'.snapshot.gameLimit = t.snapshot.gameLimit ∧
      s'.activeSince = some d.now ∧ s'.snapshot.activeAppIds = appIds ∧
      (∀ place, ¬ (d.arm setup t id a appIds warmingUp).Stands s' place) ∧
      c.NoCall (d.arm setup t id a appIds warmingUp) :=
  ⟨_, returns_session, ⟨rfl, rfl, rfl⟩, rfl, rfl, rfl,
    fun _ => h.stands_returns (by rfl) (by rfl),
    noCall_returns (hnew.trans (noNew_of_tasks (by rfl)))⟩

theorem Working.chooses (setup : Setup) (gameLimit : ℕ) (h : Working d t id a)
    (hnew : c.NoNew d) (hnow : d.now = c.now) :
    ∃ s', (d.choose setup t id a gameLimit).session = some s' ∧ t.SameGames s' ∧
      s'.snapshot.gameLimit = t.snapshot.gameLimit ∧
      c.Chooses (d.choose setup t id a gameLimit) t s'
        (select t.snapshot.config gameLimit t.snapshot.games) := by
  unfold choose
  dsimp only
  split_ifs with hnone hsame
  · exact h.chooses_complete hnew _
  · refine ⟨{ t with applied := true }, rfl, ⟨rfl, rfl, rfl⟩, rfl,
      .calls id a hnone ?_ ?_ rfl h.active.2 ?_⟩
    · rw [lookup_await, if_pos rfl]
    · intro k b appIds warmingUp hk hlook
      rw [lookup_await, if_neg hk] at hlook
      exact hnew k b _ hlook
    · intro place hs
      have hplace := h.stands_await (by rfl) (by rfl) hs
      exact (Option.some.inj hplace).symm
  · obtain ⟨s', hs', hgames, hlimit, hsince, hactive, hstands, hcalls⟩ :=
      h.arm_spec setup hnew (select t.snapshot.config gameLimit t.snapshot.games).appIds
        (select t.snapshot.config gameLimit t.snapshot.games).warmingUp
    exact ⟨s', hs', hgames, hlimit,
      .arms (hsince.trans (by rw [hnow])) hactive (not_not.mp hsame) hstands hcalls⟩

end Chooses

section Turn
variable {gameLimit : ℕ}

/-- Filter and choose, with games that were credited or rescanned in this step. -/
theorem Working.turn_refilter (h : Working d t id a) (hnew : c.NoNew d) (hnow : d.now = c.now)
    (hdown : d.shuttingDown = c.shuttingDown)
    (hsource : ((s.creditPlaytime c.now).SameGames t ∧ c.Counting s) ∨ ∃ discovery,
      (s.updateGames setup c.now c.shuttingDown discovery).1.SameGames t ∧
        c.observed action = discovery.games)
    (hlimit : t.snapshot.gameLimit = gameLimit)
    (hactive : t.snapshot.activeAppIds = s.snapshot.activeAppIds) :
    ∃ s', (d.refilter setup t id a gameLimit).session = some s' ∧
      c.Turn setup action (d.refilter setup t id a gameLimit) s s' := by
  have hclock := Session.sameClock_filterGames setup d.now d.shuttingDown t
  have hw := h.backs (backs_putFiltered d (t.filterGames setup d.now d.shuttingDown))
    hclock.toSameControl (putFiltered_session _ _)
  obtain ⟨s', hs', hgames, hlimit', hchooses⟩ := hw.chooses setup gameLimit
    (hnew.trans (backs_putFiltered d _).noNew) ((backs_putFiltered d _).now.trans hnow)
  refine ⟨s', hs', .chooses t gameLimit hsource ?_ ?_ hactive ?_⟩
  · rw [hlimit', hclock.gameLimit, hlimit]
  · rw [← hnow, ← hdown]
    exact hgames
  · rw [hgames.config, hgames.games]
    exact hchooses.congr hclock.activeAppIds

theorem Working.turn_proceed (h : Working d t id a) (hnew : c.NoNew d) (hnow : d.now = c.now)
    (hdown : d.shuttingDown = c.shuttingDown) (hgames : s.SameGames t)
    (hsince : t.activeSince = s.activeSince)
    (hactive : t.snapshot.activeAppIds = s.snapshot.activeAppIds) (hcounting : c.Counting s)
    (hlimit : t.snapshot.gameLimit = gameLimit) :
    ∃ s', (d.proceed setup t id a gameLimit).session = some s' ∧
      c.Turn setup action (d.proceed setup t id a gameLimit) s s' := by
  have hsame := Session.sameControl_creditPlaytime c.now t
  have hcredit : (s.creditPlaytime c.now).SameGames (t.creditPlaytime c.now) :=
    hgames.creditPlaytime hsince hactive
  have hw : Working (d.put (t.creditPlaytime c.now)) (t.creditPlaytime c.now) id a :=
    h.backs (backs_put d _) hsame rfl
  unfold proceed
  dsimp only
  rw [hnow]
  split_ifs
  · refine ⟨t.creditPlaytime c.now, rfl, .credits gameLimit hcredit hcounting hw.active.2
      (hsame.activeAppIds.trans hactive) ((Session.gameLimit_creditPlaytime c.now t).trans hlimit)
      (fun place hs => ?_) (noCall_await (hnew.trans (noNew_of_tasks rfl)) fun _ _ he => by cases he)⟩
    have hplace := hw.stands_await (by rfl) (by rfl) hs
    exact (Option.some.inj hplace).symm
  · exact hw.turn_refilter (hnew.trans (noNew_of_tasks rfl)) hnow hdown (.inl ⟨hcredit, hcounting⟩)
      ((Session.gameLimit_creditPlaytime c.now t).trans hlimit) (hsame.activeAppIds.trans hactive)

theorem noCall_of_place {point : Point} (h : c.NoNew d) (hpoint : point.place = none) :
    c.NoCall (d.await id (.advance a point)) :=
  noCall_await h fun _ _ he => by simp [he, Point.place] at hpoint

/-- After a halt of the `advance` itself: it cleans up what was applied, or returns. -/
theorem rests_cleanup {point : Point} {b : Bool} (hnew : c.NoNew d) (hc : Shape c s)
    (hg : s.generation < s'.generation) (hactive : s'.snapshot.activeAppIds = [])
    (hsince : s'.activeSince = none) (hpoint : point.place = none) :
    c.Rests (if b = true then d.await id (.advance a point) else d.returns id a) s' := by
  split_ifs
  · refine ⟨hactive, hsince, fun place hs => ?_, noCall_of_place hnew hpoint⟩
    obtain ⟨k, a', q, hk, ha, hq⟩ := hs
    rw [lookup_await] at hk
    split_ifs at hk with hid
    · obtain ⟨rfl, rfl⟩ := Task.advance.inj (Option.some.inj hk)
      simp [hq] at hpoint
    · exact absurd ⟨k, a', q, hk, ha, hq⟩ (hnew.not_stands hc hg)
  · exact (hnew.trans noNew_returns).rests hc hg hactive hsince

theorem session_cleanup {task : Task} {b : Bool} (hd : d.session = some s') :
    (if b = true then d.await id task else d.returns id a).session = some s' := by
  split_ifs
  · exact hd
  · exact returns_session.trans hd

/-- A step that does not touch the session. -/
theorem NoNew.turn_same (h : c.NoNew d) : c.Turn setup action d s s :=
  .stays (.same (.refl s)) (h.stays_of_sameClock (.refl s))

theorem turn_whenCurrent {k : Session → Controller} (hs : c.session = some s)
    (hk : c.isCurrent a.generation = true →
      ∃ s', (k s).session = some s' ∧ c.Turn setup action (k s) s s') :
    ∃ s', (c.whenCurrent id a k).session = some s' ∧
      c.Turn setup action (c.whenCurrent id a k) s s' := by
  simp only [whenCurrent, hs]
  split_ifs with hcur
  · exact hk hcur
  · exact ⟨s, returns_session.trans hs, noNew_returns.turn_same⟩

theorem turn_fail (hs : c.session = some s) (hc : Shape c s) :
    ∃ s', (c.fail id a).session = some s' ∧ c.Turn setup action (c.fail id a) s s' := by
  refine turn_whenCurrent hs fun _ => ?_
  have hh := halts_halt hs "farming_failed" .failure
  refine ⟨_, session_cleanup (by rfl), .rests (.same ?_) (rests_cleanup (noNew_of_tasks ?_) hc ?_ ?_ rfl
    (by rfl))⟩
  · exact (Session.sameGames_halt "farming_failed" s).trans ⟨rfl, rfl, rfl⟩
  · exact hh.tasks
  · exact Nat.lt_succ_self _
  · exact s.halt_activeAppIds "farming_failed"

theorem turn_available (hw : Working c s id a)
    (hcounting : c.Counting s) (value : FarmingAvailability) :
    ∃ s', (c.available setup s id a value).session = some s' ∧
      c.Turn setup action (c.available setup s id a value) s s' := by
  have hput : Working (c.put (s.observe value)) (s.observe value) id a :=
    hw.backs (backs_put c _) ⟨rfl, rfl, rfl, rfl, rfl⟩ rfl
  unfold available
  dsimp only
  split_ifs
  · have hh := halts_halt (c := c.put (s.observe value)) rfl
      (value.reason.getD "account_unavailable") .unavailability
    exact ⟨_, session_cleanup hh.session, .rests
      (.same (Session.SameGames.trans (t := s.observe value) ⟨rfl, rfl, rfl⟩ (Session.sameGames_halt _ (s.observe value))))
      (rests_cleanup (noNew_of_tasks hh.tasks) hw.shape (Nat.lt_succ_self _)
        ((s.observe value).halt_activeAppIds _) rfl (by rfl))⟩
  · refine ⟨{ s.observe value with applied := true }, rfl, .begins value.gameLimit ⟨rfl, rfl, rfl⟩
      hcounting rfl rfl rfl (fun place hst => ?_)
      (noCall_await (noNew_of_tasks rfl) fun _ _ he => by cases he)⟩
    have hplace := hput.stands_await (by rfl) (by rfl) hst
    exact (Option.some.inj hplace).symm
  · exact hput.turn_proceed (noNew_of_tasks rfl) rfl rfl ⟨rfl, rfl, rfl⟩ rfl rfl hcounting rfl

/-- An `advance` that resumes before it called `apply`, while it is current. -/
theorem working_of_place {point : Point} (hs : c.session = some s) (hc : Shape c s)
    (ht : c.tasks.lookup id = some (.advance a point)) (hcur : c.isCurrent a.generation = true)
    (hp : point.place = some place) : Working c s id a ∧ c.Stands s place := by
  have hg := ((isCurrent_iff hs a.generation).mp hcur).2
  exact ⟨working_of_current hc hs ht hg (drives_of_place hp), id, a, point, ht, hg, hp⟩

/-- The gameLimit that waiting calls carry is the one that was read last. -/
def Limited (c : Controller) (s : Session) : Prop := ∀ gameLimit,
  c.Stands s (.begin gameLimit) ∨ c.Stands s (.discover gameLimit) → s.snapshot.gameLimit = gameLimit

theorem turn_settleAdvance {point : Point} {outcome : Outcome} (hs : c.session = some s)
    (hc : Shape c s) (hlimited : c.Limited s)
    (ht : c.tasks.lookup id = some (.advance a point))
    (hd : c.settleAdvance setup id a point outcome = some d) :
    ∃ s', d.session = some s' ∧ c.Turn setup (.settle id outcome) d s s' := by
  have hreturns : ∃ s', (c.returns id a).session = some s' ∧
      c.Turn setup (.settle id outcome) (c.returns id a) s s' :=
    ⟨s, returns_session.trans hs, noNew_returns.turn_same⟩
  unfold settleAdvance at hd
  split at hd
  next => obtain rfl := Option.some.inj hd; exact hreturns
  next => obtain rfl := Option.some.inj hd; exact turn_fail hs hc
  next value =>
    obtain rfl := Option.some.inj hd
    refine turn_whenCurrent hs fun hcur => ?_
    obtain ⟨hw, hst⟩ := working_of_place hs hc ht hcur rfl
    exact turn_available hw (.inr (.inl hst)) value
  next call gameLimit =>
    split_ifs at hd
    obtain rfl := Option.some.inj hd
    refine turn_whenCurrent hs fun hcur => ?_
    obtain ⟨hw, hst⟩ := working_of_place hs hc ht hcur rfl
    exact hw.turn_proceed (.refl c) rfl rfl (.refl s) rfl rfl (.inr (.inr ⟨gameLimit, hst⟩))
      (hlimited gameLimit (.inl hst))
  next gameLimit discovery =>
    obtain rfl := Option.some.inj hd
    refine turn_whenCurrent hs fun hcur => ?_
    obtain ⟨hw, hst⟩ := working_of_place hs hc ht hcur rfl
    have hsame := Session.sameControl_updateGames setup c.now c.shuttingDown discovery s
    have hseen : c.observed (.settle id (.discovery discovery)) = discovery.games := by
      simp [observed, ht, hcur]
    exact (hw.backs (backs_putFiltered c _) hsame (putFiltered_session _ _)).turn_refilter
      (backs_putFiltered c _).noNew (backs_putFiltered c _).now (backs_putFiltered c _).shuttingDown
      (.inr ⟨discovery, .refl _, hseen⟩)
      ((Session.gameLimit_updateGames ..).trans (hlimited gameLimit (.inr hst))) hsame.activeAppIds
  next call appIds warmingUp =>
    split_ifs at hd
    obtain rfl := Option.some.inj hd
    refine turn_whenCurrent hs fun hcur => ?_
    obtain ⟨hw, hst⟩ := working_of_place hs hc ht hcur rfl
    obtain ⟨s', hs', hgames, hlimit, hsince, hactive, hstands, hcalls⟩ :=
      hw.arm_spec setup (.refl c) appIds warmingUp
    exact ⟨s', hs', .arms appIds warmingUp hgames hst hlimit hsince hactive hstands hcalls⟩
  next => split_ifs at hd; obtain rfl := Option.some.inj hd; exact hreturns
  next => split_ifs at hd; obtain rfl := Option.some.inj hd; exact hreturns
  next => split_ifs at hd; obtain rfl := Option.some.inj hd; exact hreturns
  next => cases hd

/-- A session that scans plays nothing. -/
theorem rests_of_scan {generation : ℕ} (hc : Shape c s) (hT : Tracks c s)
    (ht : c.tasks.lookup id = some (.scan generation)) (hcur : generation = s.generation) :
    s.snapshot.activeAppIds = [] ∧ s.activeSince = none ∧ ∀ place, ¬ c.Stands s place := by
  have hdrives : (Task.scan generation).drives s.generation = true := by
    simp [Task.drives, hcur]
  have hactive := (hc.fits id _ ht).driver hdrives
  have hplays : s.snapshot.phase.plays = false := by
    by_contra hplays
    obtain ⟨k, t, hk, hd, hworks⟩ := hT.driven hactive.1 hactive.2
    obtain rfl := hc.one k id _ _ hk ht hd hdrives
    obtain rfl := Option.some.inj (hk.symm.trans ht)
    simpa [Task.works] using hworks (by simpa using hplays)
  obtain ⟨hids, hsince⟩ := hT.rests hplays
  refine ⟨hids, hsince, fun place hst => ?_⟩
  obtain ⟨k, b, point, hk, hb, hp⟩ := hst
  have hd := drives_of_place (a := b) hp
  rw [hb] at hd
  obtain rfl := hc.one k id _ _ hk ht hd hdrives
  simp [hk] at ht

theorem turn_settleScan {generation : ℕ} {outcome : Outcome} (hs : c.session = some s)
    (hc : Shape c s) (hT : Tracks c s) (ht : c.tasks.lookup id = some (.scan generation))
    (hd : c.settleScan setup id generation outcome = some d) :
    ∃ s', d.session = some s' ∧ c.Turn setup (.settle id outcome) d s s' := by
  have hfinish : ∃ s', (c.finish id).session = some s' ∧
      c.Turn setup (.settle id outcome) (c.finish id) s s' := ⟨s, hs, noNew_finish.turn_same⟩
  unfold settleScan at hd
  split at hd
  next discovery =>
    rw [hs] at hd
    dsimp only at hd
    split_ifs at hd with hcur
    · obtain rfl := Option.some.inj hd
      have hg := ((isCurrent_iff hs generation).mp hcur).2
      obtain ⟨hids, hsince, hstands⟩ := rests_of_scan hc hT ht hg
      have hsame := Session.sameTrack_updateGames setup c.now c.shuttingDown s discovery
      have hnew : c.NoNew (((c.putFiltered (s.updateGames setup c.now c.shuttingDown discovery)).put
          { (s.updateGames setup c.now c.shuttingDown discovery).1 with
            snapshot := { (s.updateGames setup c.now c.shuttingDown discovery).1.snapshot with
              phase := .stopped } }).finish id) :=
        ((backs_putFiltered c _).noNew.trans (noNew_of_tasks rfl)).trans noNew_finish
      refine ⟨_, rfl, .scans discovery c.shuttingDown (by simp [observed, ht, hcur]) ⟨rfl, rfl, rfl⟩
        ⟨hsame.activeAppIds.trans hids, hsame.activeSince hsince, fun place hst => ?_, hnew.noCall⟩⟩
      exact absurd (hnew.stands hsame.generation hst) (hstands place)
    · obtain rfl := Option.some.inj hd
      exact hfinish
  next =>
    rw [hs] at hd
    dsimp only at hd
    split_ifs at hd
    · obtain rfl := Option.some.inj hd
      have hnew : c.NoNew ((c.put { s with snapshot := { s.snapshot with
          phase := .error, reason := some "badge_scan_failed" } }).finish id) :=
        (noNew_of_tasks (by rfl)).trans noNew_finish
      exact ⟨_, rfl, .stays (.same ⟨rfl, rfl, rfl⟩) (hnew.stays rfl rfl rfl rfl rfl)⟩
    · obtain rfl := Option.some.inj hd
      exact hfinish
  next => cases hd

theorem turn_settleStarted {resumed : Bool} (hs : c.session = some s) :
    ∃ s', (c.settleStarted id resumed).session = some s' ∧
      c.Turn setup action (c.settleStarted id resumed) s s' := by
  unfold settleStarted
  rw [hs]
  dsimp only
  split_ifs
  · exact ⟨_, rfl, .stays (.same ⟨rfl, rfl, rfl⟩)
      (((noNew_of_tasks (by rfl)).trans noNew_finish).stays rfl rfl rfl rfl rfl)⟩
  · exact ⟨s, rfl, ((noNew_of_tasks (by rfl)).trans noNew_finish).turn_same⟩
  · exact ⟨s, hs, noNew_finish.turn_same⟩

theorem turn_settlePricing {outcome : Outcome} (hs : c.session = some s)
    (hd : c.settlePricing setup id outcome = some d) :
    ∃ s', d.session = some s' ∧ c.Turn setup action d s s' := by
  have hnew (e : Controller) (he : e.tasks = c.tasks) : c.NoNew (e.await id .priced) :=
    (noNew_of_tasks he).trans (noNew_await fun _ _ he => by cases he)
  unfold settlePricing at hd
  rw [hs] at hd
  split at hd
  next values =>
    obtain rfl := Option.some.inj hd
    exact ⟨s.setPrices setup c.now values, rfl, .stays (.priced values (.refl _))
      ((hnew (c.put (s.setPrices setup c.now values)) rfl).stays rfl rfl rfl rfl rfl)⟩
  next =>
    obtain rfl := Option.some.inj hd
    exact ⟨s, hs, (hnew c rfl).turn_same⟩
  next => cases hd

theorem turn_settlePriced (hs : c.session = some s) :
    ∃ s', (c.settlePriced id).session = some s' ∧
      c.Turn setup action (c.settlePriced id) s s' := by
  unfold settlePriced
  rw [hs]
  exact ⟨_, rfl, .stays (.same ⟨rfl, rfl, rfl⟩)
    (((noNew_of_tasks (by rfl)).trans noNew_finish).stays rfl rfl rfl rfl rfl)⟩

theorem turn_settle {outcome : Outcome} (hc : Shaped c) (hT : Tracked c)
    (hlimited : ∀ s, c.session = some s → c.Limited s)
    (hd : c.settle setup id outcome = some d) : ∃ s s', c.session = some s ∧
      d.session = some s' ∧ c.Turn setup (.settle id outcome) d s s' := by
  unfold settle at hd
  split at hd
  next generation outcome ht =>
    obtain ⟨s, hs, hshape⟩ := session_of_task hc ht
    exact ⟨s, by simpa only [hs, true_and] using turn_settleScan hs hshape (hT s hs) ht hd⟩
  next a point outcome ht =>
    obtain ⟨s, hs, hshape⟩ := session_of_task hc ht
    exact ⟨s, by simpa only [hs, true_and] using turn_settleAdvance hs hshape (hlimited s hs) ht hd⟩
  next ht =>
    obtain ⟨s, hs, -⟩ := session_of_task hc ht
    obtain rfl := Option.some.inj hd
    exact ⟨s, by simpa only [hs, true_and] using turn_settleStarted hs⟩
  next ht =>
    obtain ⟨s, hs, -⟩ := session_of_task hc ht
    obtain rfl := Option.some.inj hd
    exact ⟨s, s, hs, hs, noNew_finish.turn_same⟩
  next ht =>
    obtain ⟨s, hs, -⟩ := session_of_task hc ht
    split_ifs at hd
    obtain rfl := Option.some.inj hd
    exact ⟨s, s, hs, hs, noNew_finish.turn_same⟩
  next ht =>
    obtain ⟨s, hs, -⟩ := session_of_task hc ht
    exact ⟨s, by simpa only [hs, true_and] using turn_settlePricing hs hd⟩
  next ht =>
    obtain ⟨s, hs, -⟩ := session_of_task hc ht
    obtain rfl := Option.some.inj hd
    exact ⟨s, by simpa only [hs, true_and] using turn_settlePriced hs⟩
  next => cases hd

/-- An adapter call that has asked its callback waits where it waited. -/
theorem turn_perform {t : Task} {generation : ℕ} {effect : Effect} {task : CallState → Task}
    (hs : c.session = some s) (ht : c.tasks.lookup id = some t)
    (htask : ∀ call, call ≠ .pending → ∀ b point, task call = .advance b point →
      (∃ old, t = .advance b old ∧ old.place = point.place) ∧
        ∀ appIds warmingUp, point ≠ .apply .pending appIds warmingUp) :
    ∃ s', (c.perform id generation effect task).session = some s' ∧
      c.Turn setup action (c.perform id generation effect task) s s' := by
  have hstays (e : Controller) (he : e.tasks = c.tasks) (call : CallState)
      (hcall : call ≠ .pending) : c.Stays (e.await id (task call)) s s := by
    have hstands (place : Place) (hst : (e.await id (task call)).Stands s place) :
        c.Stands s place := by
      obtain ⟨k, b, point, hk, hb, hp⟩ := hst
      rw [lookup_await] at hk
      split_ifs at hk with hid
      · obtain ⟨⟨old, rfl, hold⟩, -⟩ := htask call hcall b point (Option.some.inj hk)
        exact ⟨id, b, old, ht, hb, hold.trans hp⟩
      · exact ⟨k, b, point, he ▸ hk, hb, hp⟩
    refine ⟨rfl, rfl, rfl, fun hcount => ?_, fun place hst _ => hstands place hst, ?_⟩
    · rcases hcount with htimer | hst | ⟨gameLimit, hst⟩
      · exact .inl htimer
      · exact .inr (.inl (hstands _ hst))
      · exact .inr (.inr ⟨gameLimit, hstands _ hst⟩)
    · intro k b appIds warmingUp hk
      rw [lookup_await] at hk
      split_ifs at hk with hid
      · exact absurd rfl ((htask call hcall b _ (Option.some.inj hk)).2 appIds warmingUp)
      · exact he ▸ hk
  unfold perform
  split_ifs
  · exact ⟨s, hs, .stays (.same (.refl s)) (hstays (c.emit effect) rfl .acted (by simp))⟩
  · exact ⟨s, hs, .stays (.same (.refl s)) (hstays c rfl .declined (by simp))⟩

theorem turn_act (hs : c.session = some s) (hd : c.act id = some d) :
    ∃ s', d.session = some s' ∧ c.Turn setup action d s s' := by
  unfold act at hd
  split at hd
  next ht =>
    obtain rfl := Option.some.inj hd
    refine turn_perform hs ht fun call _ b point he => ?_
    obtain ⟨rfl, rfl⟩ := Task.advance.inj he
    exact ⟨⟨_, rfl, rfl⟩, fun _ _ he => by cases he⟩
  next ht =>
    obtain rfl := Option.some.inj hd
    refine turn_perform hs ht fun call hcall b point he => ?_
    obtain ⟨rfl, rfl⟩ := Task.advance.inj he
    exact ⟨⟨_, rfl, rfl⟩, fun _ _ he => hcall (Point.apply.inj he).1⟩
  next ht =>
    obtain rfl := Option.some.inj hd
    refine turn_perform hs ht fun call _ b point he => ?_
    obtain ⟨rfl, rfl⟩ := Task.advance.inj he
    exact ⟨⟨_, rfl, rfl⟩, fun _ _ he => by cases he⟩
  next ht =>
    obtain rfl := Option.some.inj hd
    refine turn_perform hs ht fun call _ b point he => ?_
    obtain ⟨rfl, rfl⟩ := Task.advance.inj he
    exact ⟨⟨_, rfl, rfl⟩, fun _ _ he => by cases he⟩
  next ht =>
    obtain rfl := Option.some.inj hd
    refine turn_perform hs ht fun call _ b point he => ?_
    obtain ⟨rfl, rfl⟩ := Task.advance.inj he
    exact ⟨⟨_, rfl, rfl⟩, fun _ _ he => by cases he⟩
  next ht =>
    obtain rfl := Option.some.inj hd
    exact turn_perform hs ht fun call _ b point he => by cases he
  next => cases hd

/-- A call of `advance` from its availability on takes the place of the timer. -/
theorem stays_of_timer {task : Task} {b : Advance} (hnew : c.NoNew d)
    (hg : s'.generation = s.generation) (htimer : s.timer ≠ none)
    (hactive : s'.snapshot.activeAppIds = s.snapshot.activeAppIds)
    (hsince : s'.activeSince = s.activeSince)
    (hlimit : s'.snapshot.gameLimit = s.snapshot.gameLimit)
    (htask : task = .advance b .availability) : c.Stays (d.spawn task) s s' := by
  refine ⟨hactive, hsince, hlimit, fun _ => .inl htimer, fun place hst hne => ?_, ?_⟩
  · obtain ⟨k, b', point, hk, hb, hp⟩ := hst
    rw [lookup_spawn, htask] at hk
    split_ifs at hk
    · obtain ⟨rfl, rfl⟩ := Task.advance.inj (Option.some.inj hk)
      exact absurd (Option.some.inj hp).symm hne
    · exact ⟨k, b', point, hnew k b' point hk, hb.trans hg, hp⟩
  · intro k b' appIds warmingUp hk
    rw [lookup_spawn, htask] at hk
    split_ifs at hk
    · cases hk
    · exact hnew k b' _ hk

theorem turn_fire {timer : TimerId} (hs : c.session = some s) (hc : Shape c s)
    (hd : c.fire timer = some d) :
    ∃ s', d.session = some s' ∧ c.Turn setup action d s s' := by
  unfold fire at hd
  split at hd
  next t s₀ ht hs₀ =>
    obtain rfl := Option.some.inj (hs₀.symm.trans hs)
    have hset : s₀.timer ≠ none := by simp [(hc.armed timer t ht).1]
    dsimp only at hd
    split_ifs at hd
    · obtain rfl := Option.some.inj hd
      exact ⟨{ s₀ with timer := none }, rfl, .stays (.same ⟨rfl, rfl, rfl⟩)
        (stays_of_timer (noNew_of_tasks (by rfl)) rfl hset rfl rfl rfl rfl)⟩
    · obtain rfl := Option.some.inj hd
      have hnew : c.NoNew ({ c with timers := c.timers.erase timer }.put
          { s₀ with timer := none }) := noNew_of_tasks (by rfl)
      refine ⟨{ s₀ with timer := none }, rfl, .stays (.same ⟨rfl, rfl, rfl⟩)
        ⟨rfl, rfl, rfl, fun _ => .inl hset, fun _ hst _ => hnew.stands rfl hst, hnew.noCall⟩⟩
  next => cases hd

/-- What `snapshot` does first in every call. -/
theorem touch_spec (setup : Setup) (c : Controller) (config : Option FarmingConfig) :
    ∃ s t, c.Begins setup s ∧ (c.touch setup config).session = some t ∧
      s.Refreshes setup c.now t ∧ s.SameClock t ∧ c.NoNew (c.touch setup config) ∧
      (t.isActive = false → ∀ given, config = some given → t.snapshot.config = given) := by
  cases hs : c.session with
  | none =>
    have hnew : c.touch setup config = c.put (Session.new setup config) := by simp [touch, hs]
    rw [hnew]
    refine ⟨_, _, .inr ⟨hs, config, rfl⟩, rfl, .same (.refl _), .refl _, noNew_of_tasks (by rfl), ?_⟩
    rintro - given rfl
    rfl
  | some s =>
    unfold Controller.touch
    split
    next hnone => simp [hs] at hnone
    next s₀ config hs₀ =>
      obtain rfl := Option.some.inj (hs₀.symm.trans hs)
      split_ifs with hact
      · exact ⟨s₀, s₀, .inl hs, hs, .same (.refl s₀), .refl s₀, .refl c,
          fun h => by simp [hact] at h⟩
      · have hclock := Session.sameClock_filterGames setup c.now c.shuttingDown
          (s₀.configure config)
        refine ⟨s₀, _, .inl hs, putFiltered_session _ _, .filtered config c.shuttingDown (.refl _),
          ⟨⟨hclock.generation, hclock.timer, hclock.applied, hclock.phase, hclock.activeAppIds⟩,
            hclock.activeSince, hclock.gameLimit⟩, (backs_putFiltered c _).noNew, ?_⟩
        rintro - given hgiven
        obtain rfl := Option.some.inj hgiven
        exact Session.config_filterGames ..
    next => exact ⟨s, s, .inl hs, hs, .same (.refl s), .refl s, .refl c, fun _ _ he => by cases he⟩

/-- An inactive session opens a new generation. -/
theorem rests_of_opens {c' : Controller} (hnew : c.NoNew c') (hc : Shape c' t) (hT : Tracks c' t)
    (hinactive : t.isActive = false) {task : Task} (htasks : e.tasks = c'.tasks)
    (htask : ∀ b point, task = .advance b point → point = .availability)
    (hg : t.generation < s'.generation)
    (hactive : s'.snapshot.activeAppIds = t.snapshot.activeAppIds)
    (hsince : s'.activeSince = t.activeSince) : c.Rests (e.spawn task) s' := by
  have hplays : t.snapshot.phase.plays = false := by
    by_contra hplays
    have hact := FarmingPhase.isActive_of_plays (by simpa using hplays)
    rw [Session.isActive, hact] at hinactive
    cases hinactive
  obtain ⟨hids, hstopped⟩ := hT.rests hplays
  refine ⟨hactive.trans hids, hsince.trans hstopped, fun place hst => ?_, ?_⟩
  · obtain ⟨k, b, point, hk, hb, hp⟩ := hst
    rw [lookup_spawn] at hk
    split_ifs at hk
    · obtain rfl := htask b point (Option.some.inj hk)
      exact (Option.some.inj hp).symm
    · exact absurd ⟨k, b, point, hk, hb, hp⟩ ((noNew_of_tasks htasks).not_stands hc hg)
  · intro k b appIds warmingUp hk
    rw [lookup_spawn] at hk
    split_ifs at hk
    · cases htask b _ (Option.some.inj hk)
    · exact hnew k b _ (htasks ▸ hk)

theorem turn_scan (h : Shaped c) (hT : Tracked c) (config : FarmingConfig) (expected : Option ℕ)
    (hs' : (c.scan setup config expected).2.session = some s') :
    ∃ s, c.Begins setup s ∧ c.Turn setup action (c.scan setup config expected).2 s s' := by
  unfold scan at hs' ⊢
  split_ifs at hs' ⊢
  · exact ⟨s', .inl hs', (NoNew.refl c).turn_same⟩
  · obtain ⟨s, t, hbegins, ht, hgames, hclock, hnew, -⟩ := touch_spec setup c (some config)
    have hshape : Shaped (c.touch setup (some config)) := shaped_touch h _
    have htracked : Tracked (c.touch setup (some config)) := tracked_touch h hT _
    dsimp only at hs' ⊢
    rw [ht] at hs' ⊢
    dsimp only at hs' ⊢
    split_ifs at hs' ⊢ with hstay
    · obtain rfl := Option.some.inj (ht.symm.trans hs')
      exact ⟨s, hbegins, .stays hgames (hnew.stays_of_sameClock hclock)⟩
    · simp only [Bool.or_eq_true, not_or, Bool.not_eq_true] at hstay
      obtain rfl := Option.some.inj hs'
      exact ⟨s, hbegins, .rests (hgames.trans_same ⟨rfl, rfl, rfl⟩)
        (rests_of_opens hnew ((shaped_some ht).mp hshape) (htracked t ht) hstay.2 rfl
          (fun _ _ he => by cases he) (Nat.lt_succ_self _) rfl rfl)⟩

theorem turn_start (h : Shaped c) (hT : Tracked c) (config : FarmingConfig) (expected : Option ℕ)
    (resumed : Bool) (hs' : (c.start setup config expected resumed).2.session = some s') :
    ∃ s, c.Begins setup s ∧
      c.Turn setup action (c.start setup config expected resumed).2 s s' := by
  unfold start at hs' ⊢
  split_ifs at hs' ⊢
  · exact ⟨s', .inl hs', (NoNew.refl c).turn_same⟩
  · obtain ⟨s, t, hbegins, ht, hgames, hclock, hnew, hconfig⟩ := touch_spec setup c (some config)
    have hshape : Shaped (c.touch setup (some config)) := shaped_touch h _
    have htracked : Tracked (c.touch setup (some config)) := tracked_touch h hT _
    dsimp only at hs' ⊢
    rw [ht] at hs' ⊢
    dsimp only at hs' ⊢
    split_ifs at hs' ⊢ with hexpected hactive
    · obtain rfl := Option.some.inj (ht.symm.trans hs')
      exact ⟨s, hbegins, .stays hgames (hnew.stays_of_sameClock hclock)⟩
    · obtain rfl := Option.some.inj (ht.symm.trans hs')
      exact ⟨s, hbegins, .stays hgames (hnew.stays_of_sameClock hclock)⟩
    · have hinactive : t.isActive = false := by simpa using hactive
      obtain rfl := Option.some.inj hs'
      refine ⟨s, hbegins, .rests (hgames.trans_same ⟨rfl, (hconfig hinactive config rfl).symm, rfl⟩)
        (rests_of_opens hnew ((shaped_some ht).mp hshape) (htracked t ht) hinactive rfl
          (fun b point he => ?_) (Nat.lt_succ_self _) rfl rfl)⟩
      exact (Task.advance.inj he).2.symm

/-- A running worker selects again under the new settings. -/
theorem turn_reselect (setup : Setup) (c : Controller) (action : Action) (s : Session)
    (config : FarmingConfig) :
    ∃ s', (c.reselect setup (s.configure config)).session = some s' ∧
      c.Turn setup action (c.reselect setup (s.configure config)) s s' := by
  have hclock := Session.sameClock_filterGames setup c.now c.shuttingDown (s.configure config)
  have hnew := (backs_putFiltered c
    ((s.configure config).filterGames setup c.now c.shuttingDown)).noNew
  unfold reselect
  dsimp only
  split
  next =>
    exact ⟨_, putFiltered_session _ _, .stays (.filtered config c.shuttingDown (.refl _))
      (hnew.stays hclock.generation hclock.timer hclock.activeAppIds hclock.activeSince
        hclock.gameLimit)⟩
  next timer htimer =>
    have hset : s.timer ≠ none := by
      have htimer : s.timer = some timer := htimer
      simp [htimer]
    exact ⟨_, rfl, .stays (.filtered config c.shuttingDown ⟨rfl, rfl, rfl⟩)
      (stays_of_timer (hnew.trans (noNew_of_tasks (by rfl))) hclock.generation hset
        hclock.activeAppIds hclock.activeSince hclock.gameLimit rfl)⟩

theorem turn_reconfigure (config : FarmingConfig)
    (hs' : (c.reconfigure setup config).session = some s') :
    ∃ s, c.Begins setup s ∧ c.Turn setup action (c.reconfigure setup config) s s' := by
  obtain ⟨s, t, hbegins, ht, hgames, hclock, hnew, -⟩ := touch_spec setup c (some config)
  by_cases hactive : t.isActive = true
  · have hact : s.isActive = true := hclock.isActive ▸ hactive
    rcases hbegins with hs | ⟨-, given, rfl⟩
    · have htouch : c.touch setup (some config) = c := by simp [touch, hs, hact]
      have hdef : c.reconfigure setup config = c.reselect setup (s.configure config) := by
        simp [reconfigure, htouch, hs, hact, Session.configure]
      rw [hdef] at hs' ⊢
      obtain ⟨u, hu, hturn⟩ := turn_reselect setup c action s config
      obtain rfl := Option.some.inj (hu.symm.trans hs')
      exact ⟨s, .inl hs, hturn⟩
    · cases hact
  · have hdef : c.reconfigure setup config = c.touch setup (some config) := by
      simp [reconfigure, ht, hactive]
    rw [hdef] at hs' ⊢
    obtain rfl := Option.some.inj (ht.symm.trans hs')
    exact ⟨s, hbegins, .stays hgames (hnew.stays_of_sameClock hclock)⟩

/-- `halt` of a controller that may have begun to shut down. -/
theorem turn_halt (h : Shaped c) (hsession : d.session = c.session) (htasks : d.tasks = c.tasks)
    (reason : String) (cause : Cause) (hs' : (d.halt reason cause).session = some s') :
    ∃ s, c.session = some s ∧ c.Turn setup action (d.halt reason cause) s s' := by
  cases hs : c.session with
  | none =>
    have hnone : d.session = none := hsession.trans hs
    simp [halt, hnone] at hs'
  | some s =>
    have hh := halts_halt (hsession.trans hs) reason cause
    obtain rfl := Option.some.inj (hh.session.symm.trans hs')
    have hnew : c.NoNew (d.halt reason cause) := noNew_of_tasks (hh.tasks.trans htasks)
    exact ⟨s, rfl, .rests (.same (Session.sameGames_halt reason s))
      (hnew.rests ((shaped_some hs).mp h) (Nat.lt_succ_self _) (s.halt_activeAppIds reason) rfl)⟩

theorem turn_stop (h : Shaped c) (hs' : (c.stop setup).2.session = some s') :
    ∃ s, c.Begins setup s ∧ c.Turn setup action (c.stop setup).2 s s' := by
  obtain ⟨s, t, hbegins, ht, hgames, -, hnew, -⟩ := touch_spec setup c none
  have hshape : Shape (c.touch setup none) t := (shaped_some ht).mp (shaped_touch h none)
  have hh := halts_halt ht "stopped" .stop
  have hdef : (c.stop setup).2 = ((c.touch setup none).halt "stopped" .stop).spawn
      (.stop (t.halt "stopped").generation .pending) := by
    simp [stop, hh.session]
  rw [hdef] at hs' ⊢
  obtain rfl : t.halt "stopped" = s' := Option.some.inj (hh.session.symm.trans hs')
  have hnew' : (c.touch setup none).NoNew (((c.touch setup none).halt "stopped" .stop).spawn
      (.stop (t.halt "stopped").generation .pending)) :=
    (noNew_of_tasks hh.tasks).trans (noNew_spawn fun _ _ he => by cases he)
  have hrests : (c.touch setup none).Rests _ (t.halt "stopped") :=
    hnew'.rests hshape (Nat.lt_succ_self _) (t.halt_activeAppIds "stopped") rfl
  exact ⟨s, hbegins, .rests (hgames.trans_same (Session.sameGames_halt "stopped" t))
    ⟨hrests.activeAppIds, hrests.activeSince, hrests.stands, (hnew.trans hnew').noCall⟩⟩

/-- What any step makes of the session. -/
theorem turn_of_next (h : Shaped c) (hT : Tracked c) (hlimited : ∀ s, c.session = some s → c.Limited s)
    (hn : (controllerMachine setup).next c action = some d) (hs' : d.session = some s') :
    ∃ s, c.Begins setup s ∧ c.Turn setup action d s s' := by
  have hof {s : Session} (hs : c.session = some s)
      (hturn : ∃ t, d.session = some t ∧ c.Turn setup action d s t) :
      ∃ s, c.Begins setup s ∧ c.Turn setup action d s s' := by
    obtain ⟨t, ht, hturn⟩ := hturn
    obtain rfl := Option.some.inj (ht.symm.trans hs')
    exact ⟨s, .inl hs, hturn⟩
  cases action with
  | snapshot config =>
    obtain rfl := Option.some.inj hn
    obtain ⟨s, t, hbegins, ht, hgames, hclock, hnew, -⟩ := touch_spec setup c config
    obtain rfl := Option.some.inj (ht.symm.trans hs')
    exact ⟨s, hbegins, .stays hgames (hnew.stays_of_sameClock hclock)⟩
  | scan => obtain rfl := Option.some.inj hn; exact turn_scan h hT _ _ hs'
  | start => obtain rfl := Option.some.inj hn; exact turn_start h hT _ _ _ hs'
  | reconfigure => obtain rfl := Option.some.inj hn; exact turn_reconfigure _ hs'
  | halt reason =>
    obtain rfl := Option.some.inj hn
    obtain ⟨s, hs, hturn⟩ := turn_halt h rfl rfl reason .halt hs'
    exact ⟨s, .inl hs, hturn⟩
  | stop => obtain rfl := Option.some.inj hn; exact turn_stop h hs'
  | beginShutdown =>
    obtain rfl := Option.some.inj hn
    obtain ⟨s, hs, hturn⟩ := turn_halt (d := { c with shuttingDown := true }) h rfl rfl _ _ hs'
    exact ⟨s, .inl hs, hturn⟩
  | initializeAgain =>
    obtain rfl := Option.some.inj hn
    exact ⟨s', .inl hs', NoNew.turn_same (noNew_of_tasks (by rfl))⟩
  | fire timer =>
    cases hs : c.session with
    | none => simp [controllerMachine, fire, hs] at hn
    | some s => exact hof hs (turn_fire hs ((shaped_some hs).mp h) hn)
  | act id =>
    cases hs : c.session with
    | none =>
      have hempty : ∀ k, c.tasks.lookup k = none := by
        rw [Shaped, hs] at h
        exact h.1
      simp [controllerMachine, act, hempty] at hn
    | some s => exact hof hs (turn_act hs hn)
  | settle id outcome =>
    obtain ⟨s, t, hs, ht, hturn⟩ := turn_settle h hT hlimited hn
    exact hof hs ⟨t, ht, hturn⟩
  | tick elapsed =>
    obtain rfl := Option.some.inj hn
    exact ⟨s', .inl hs', NoNew.turn_same (noNew_of_tasks (by rfl))⟩

theorem Begins.limited (h : c.Begins setup s) (hc : Shaped c)
    (hlimited : ∀ s, c.session = some s → c.Limited s) : c.Limited s := by
  rcases h with hs | ⟨hs, -⟩
  · exact hlimited s hs
  · rw [Shaped, hs] at hc
    rintro gameLimit (⟨k, a, point, hk, -⟩ | ⟨k, a, point, hk, -⟩)
    · simp [hc.1 k] at hk
    · simp [hc.1 k] at hk

theorem Turn.limited (h : c.Turn setup action d s s') (hl : c.Limited s) : d.Limited s' := by
  have hplace (hstands : ∀ place, d.Stands s' place → place = .availability) : d.Limited s' := by
    rintro gameLimit (hst | hst)
    · cases hstands _ hst
    · cases hstands _ hst
  have hnone (hstands : ∀ place, ¬ d.Stands s' place) : d.Limited s' := by
    rintro gameLimit (hst | hst)
    · exact absurd hst (hstands _)
    · exact absurd hst (hstands _)
  cases h with
  | stays hgames h =>
    rintro gameLimit (hst | hst)
    · exact h.gameLimit.trans (hl gameLimit (.inl (h.stands _ hst (by simp))))
    · exact h.gameLimit.trans (hl gameLimit (.inr (h.stands _ hst (by simp))))
  | rests hgames h => exact hplace h.stands
  | scans discovery down hseen hgames h => exact hplace h.stands
  | begins limit hgames hcounting hactive hsince hlimit hstands hcalls =>
    rintro gameLimit (hst | hst)
    · obtain rfl := Place.begin.inj (hstands _ hst)
      exact hlimit
    · cases hstands _ hst
  | credits limit hgames hcounting htimer hactive hlimit hstands hcalls =>
    rintro gameLimit (hst | hst)
    · cases hstands _ hst
    · obtain rfl := Place.discover.inj (hstands _ hst)
      exact hlimit
  | chooses t limit hsource hlimit hgames hactive h =>
    cases h with
    | rests h => exact hplace h.stands
    | calls k a hnonempty hcall hothers hactive' htimer hstands =>
      rintro gameLimit (hst | hst)
      · cases hstands _ hst
      · cases hstands _ hst
    | arms hsince hactive' hsame hstands hcalls => exact hnone hstands
  | arms appIds warmingUp hgames hcall hlimit hsince hactive hstands hcalls => exact hnone hstands

theorem limited_of_reachable (h : (controllerMachine setup).Reachable c) :
    ∀ s, c.session = some s → c.Limited s := by
  refine h.invariant_of (I := fun c => ∀ s, c.session = some s → c.Limited s) ?_ ?_
  · rintro _ rfl s hs
    cases hs
  · intro c action d hr hl _ hn s' hs'
    have hc := shaped_of_reachable hr
    obtain ⟨s, hbegins, hturn⟩ := turn_of_next hc (tracked_of_reachable hr) hl hn hs'
    exact hturn.limited (hbegins.limited hc hl)

/-- Every step from a reachable controller is a turn of its session. -/
theorem turn_of_reachable (h : (controllerMachine setup).Reachable c)
    (hn : (controllerMachine setup).next c action = some d) (hs' : d.session = some s') :
    ∃ s, c.Begins setup s ∧ c.Turn setup action d s s' :=
  turn_of_next (shaped_of_reachable h) (tracked_of_reachable h) (limited_of_reachable h) hn hs'

end Turn

end Controller
end SteamBee.Farming
