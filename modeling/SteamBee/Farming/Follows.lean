import SteamBee.Farming.Shape

/-! What every step of the controller but a `start` leaves true: generations do not go
back, nothing is started, and the resume marker appears only at the end of a `start`. -/
namespace SteamBee.Farming

def Task.startGeneration : Task → Option ℕ
  | .advance a _ => a.caller.map fun _ => a.generation
  | .started g _ => some g
  | _ => none

theorem Task.Bounded.startGeneration {g k : ℕ} {t : Task} (h : t.Bounded g)
    (hk : t.startGeneration = some k) : k ≤ g := by
  cases t with
  | started =>
    obtain rfl := Option.some.inj hk
    exact h
  | advance a point =>
    obtain ⟨_, -, rfl⟩ := Option.map_eq_some_iff.mp hk
    cases point with
    | endUnavailable | endFailed => exact h.1.le.trans h.2
    | _ => exact h
  | _ => cases hk

def startCount (effects : List Effect) : ℕ := effects.countP (· == .started)

namespace Controller
variable {setup : Setup} {c d : Controller} {s s' : Session} {id : TaskId} {a : Advance}

def HasStart (c : Controller) (generation : ℕ) : Prop :=
  ∃ id t, c.tasks.lookup id = some t ∧ t.startGeneration = some generation

/-- `d` may come after `c` when no `start` is made in between. -/
structure Follows (c d : Controller) : Prop where
  session : ∀ s, c.session = some s → ∃ s', d.session = some s' ∧ s.generation ≤ s'.generation
  starts : ∀ generation, d.HasStart generation → c.HasStart generation
  started : startCount d.effects = startCount c.effects
  marker : d.marker = true → c.marker = true

theorem Follows.refl (c : Controller) : c.Follows c :=
  ⟨fun s hs => ⟨s, hs, le_rfl⟩, fun _ h => h, rfl, fun h => h⟩

/-- Timers, the clock and the record of causes do not matter. -/
theorem Follows.congr {e : Controller} (h : c.Follows d) (hs : e.session = d.session)
    (htasks : e.tasks = d.tasks) (heffects : e.effects = d.effects) (hmarker : e.marker = d.marker) :
    c.Follows e :=
  ⟨by rw [hs]; exact h.session, by simpa only [HasStart, htasks] using h.starts,
    by rw [heffects]; exact h.started, by rw [hmarker]; exact h.marker⟩

theorem Follows.put (h : c.Follows d) (hd : d.session = some s)
    (hg : s.generation ≤ s'.generation) : c.Follows (d.put s') where
  session s₀ hs₀ := by
    obtain ⟨s₁, hs₁, hle⟩ := h.session s₀ hs₀
    obtain rfl : s = s₁ := Option.some.inj (hd.symm.trans hs₁)
    exact ⟨s', rfl, hle.trans hg⟩
  starts := h.starts
  started := h.started
  marker := h.marker

theorem Follows.emit (h : c.Follows d) {e : Effect} (he : e ≠ .started) : c.Follows (d.emit e) :=
  ⟨h.session, h.starts, by simpa [Controller.emit, startCount, he] using h.started, h.marker⟩

theorem Follows.forget (h : c.Follows d) : c.Follows (d.remember false) :=
  ⟨h.session, h.starts, by simpa [remember, Controller.emit, startCount] using h.started,
    fun hm => by cases hm⟩

theorem Follows.await (h : c.Follows d) {task : Task}
    (hstart : ∀ g, task.startGeneration = some g → c.HasStart g) : c.Follows (d.await id task) where
  session := h.session
  starts g := by
    rintro ⟨k, t, hk, hg⟩
    rw [lookup_await] at hk
    split_ifs at hk
    · obtain rfl := Option.some.inj hk
      exact hstart g hg
    · exact h.starts g ⟨k, t, hk, hg⟩
  started := h.started
  marker := h.marker

theorem Follows.finish (h : c.Follows d) : c.Follows (d.finish id) where
  session := h.session
  starts g := by
    rintro ⟨k, t, hk, hg⟩
    rw [lookup_finish] at hk
    split_ifs at hk
    exact h.starts g ⟨k, t, hk, hg⟩
  started := h.started
  marker := h.marker

theorem Follows.spawn (h : c.Follows d) {task : Task} (ht : task.startGeneration = none) :
    c.Follows (d.spawn task) where
  session := h.session
  starts g := by
    rintro ⟨k, t, hk, hg⟩
    rw [lookup_spawn] at hk
    split_ifs at hk
    · obtain rfl := Option.some.inj hk
      simp [ht] at hg
    · exact h.starts g ⟨k, t, hk, hg⟩
  started := h.started
  marker := h.marker

theorem Follows.putFiltered (h : c.Follows d) (hd : d.session = some s)
    {f : Session × Option (List AppId)} (hg : s.generation ≤ f.1.generation) :
    c.Follows (d.putFiltered f) := by
  unfold Controller.putFiltered
  split
  · exact h.put hd hg
  · exact (h.put hd hg).spawn rfl

def Advance.Belongs (c : Controller) (a : Advance) : Prop := a.caller.isSome → c.HasStart a.generation

theorem Follows.returns (h : c.Follows d) (ha : Advance.Belongs c a) :
    c.Follows (d.returns id a) := by
  unfold Controller.returns
  cases hcaller : a.caller with
  | none => exact h.finish
  | some resumed =>
    refine h.await fun g hg => ?_
    obtain rfl := Option.some.inj hg
    exact ha (by simp [hcaller])

theorem Follows.awaitAdvance (h : c.Follows d) (ha : Advance.Belongs c a) (point : Point) :
    c.Follows (d.await id (.advance a point)) := by
  refine h.await fun g hg => ?_
  obtain ⟨_, hcaller, rfl⟩ := Option.map_eq_some_iff.mp hg
  exact ha (by simp [hcaller])

theorem Follows.touch (h : c.Follows d) (config : Option FarmingConfig) :
    c.Follows (d.touch setup config) := by
  unfold Controller.touch
  split
  next hnone =>
    refine ⟨fun s hs => ?_, h.starts, h.started, h.marker⟩
    obtain ⟨s', hs', -⟩ := h.session s hs
    simp [hnone] at hs'
  next s config hs =>
    have hf := Session.sameControl_filterGames setup d.now d.shuttingDown
      { s with snapshot := { s.snapshot with config } }
    split_ifs
    · exact h
    · exact h.putFiltered hs hf.generation.ge
  next => exact h

theorem Follows.halt (h : c.Follows d) (reason : String) (cause : Cause) :
    c.Follows (d.halt reason cause) := by
  cases hs : d.session with
  | none =>
    simp only [Controller.halt, hs]
    exact h
  | some s =>
    obtain ⟨timers, ht⟩ := clearTimer_eq d s.timer
    simp only [Controller.halt, hs, ht]
    have hclear : c.Follows { d with timers } := h.congr rfl rfl rfl rfl
    split_ifs
    · exact (hclear.put hs (Nat.le_succ _)).congr rfl rfl rfl rfl
    · exact (hclear.forget.put hs (Nat.le_succ _)).congr rfl rfl rfl rfl

theorem follows_scan (config : FarmingConfig) (expected : Option ℕ) :
    c.Follows (c.scan setup config expected).2 := by
  have ht : c.Follows (c.touch setup (some config)) := (Follows.refl c).touch _
  unfold scan
  split_ifs
  · exact .refl c
  · dsimp only
    split
    next => exact ht
    next s hs =>
      split_ifs
      · exact ht
      · exact (ht.put hs (Nat.le_succ _)).spawn rfl

theorem Follows.reselect (h : c.Follows d) (hd : d.session = some s)
    (hg : s.generation ≤ s'.generation) : c.Follows (d.reselect setup s') := by
  have hf := Session.sameControl_filterGames setup d.now d.shuttingDown s'
  have hp := h.putFiltered hd (hg.trans hf.generation.ge)
  unfold Controller.reselect
  dsimp only
  split
  next => exact hp
  next timer _ =>
    have hclear : c.Follows { d.putFiltered (s'.filterGames setup d.now d.shuttingDown) with
        timers := (d.putFiltered (s'.filterGames setup d.now d.shuttingDown)).timers.erase timer } :=
      hp.congr rfl rfl rfl rfl
    have hput : c.Follows (Controller.put _
        { (s'.filterGames setup d.now d.shuttingDown).1 with timer := none }) :=
      hclear.put (putFiltered_session _ _) le_rfl
    exact hput.spawn rfl

theorem follows_reconfigure (config : FarmingConfig) : c.Follows (c.reconfigure setup config) := by
  have ht : c.Follows (c.touch setup (some config)) := (Follows.refl c).touch _
  unfold reconfigure
  dsimp only
  split
  next => exact ht
  next s hs =>
    split_ifs
    · exact ht
    · exact ht.reselect hs le_rfl

theorem follows_stop : c.Follows (c.stop setup).2 := by
  have hh : c.Follows ((c.touch setup none).halt "stopped" .stop) :=
    ((Follows.refl c).touch none).halt _ _
  unfold stop
  dsimp only
  split
  · exact hh
  · exact hh.spawn rfl

theorem Follows.arm (h : c.Follows d) (hd : d.session = some s) (hg : s.generation ≤ s'.generation)
    (ha : Advance.Belongs c a) (appIds : List AppId) (warmingUp : Bool) :
    c.Follows (d.arm setup s' id a appIds warmingUp) := by
  have hput : c.Follows (d.put { s' with
      applied := true
      activeSince := some d.now
      timer := some d.drawn
      snapshot := { s'.snapshot with
        activeAppIds := appIds
        phase := if warmingUp then .warming else .farming } }) := h.put hd hg
  refine Follows.returns (Follows.congr hput ?_ ?_ ?_ ?_) ha
  · rfl
  · rfl
  · rfl
  · rfl

theorem Follows.complete (h : c.Follows d) (hd : d.session = some s)
    (hg : s.generation ≤ s'.generation) (ha : Advance.Belongs c a) (noneEligible : Bool) :
    c.Follows (d.complete s' id a noneEligible) := by
  have hput : c.Follows ((d.remember false).put (s'.complete noneEligible)) := h.forget.put hd hg
  have hcause : c.Follows { (d.remember false).put (s'.complete noneEligible) with
      cause := some .completion } := hput.congr rfl rfl rfl rfl
  unfold Controller.complete
  dsimp only
  split_ifs
  · exact hcause.awaitAdvance ha _
  · exact hcause.returns ha

theorem Follows.choose (h : c.Follows d) (hd : d.session = some s)
    (hg : s.generation ≤ s'.generation) (ha : Advance.Belongs c a) (gameLimit : ℕ) :
    c.Follows (d.choose setup s' id a gameLimit) := by
  have hput : c.Follows (d.put { s' with applied := true }) := h.put hd hg
  unfold Controller.choose
  dsimp only
  split_ifs
  · exact h.complete hd hg ha _
  · exact hput.awaitAdvance ha _
  · exact h.arm hd hg ha _ _

theorem Follows.refilter (h : c.Follows d) (hd : d.session = some s)
    (hg : s.generation ≤ s'.generation) (ha : Advance.Belongs c a) (gameLimit : ℕ) :
    c.Follows (d.refilter setup s' id a gameLimit) := by
  have hf := Session.sameControl_filterGames setup d.now d.shuttingDown s'
  exact (h.putFiltered hd (hg.trans hf.generation.ge)).choose (putFiltered_session _ _) le_rfl ha _

theorem Follows.proceed (h : c.Follows d) (hd : d.session = some s)
    (hg : s.generation ≤ s'.generation) (ha : Advance.Belongs c a) (gameLimit : ℕ) :
    c.Follows (d.proceed setup s' id a gameLimit) := by
  have hp := hg.trans (Session.sameControl_creditPlaytime d.now s').generation.ge
  unfold Controller.proceed
  dsimp only
  split_ifs
  · exact (h.put hd hp).awaitAdvance ha _
  · exact h.refilter hd hp ha _

theorem Follows.available (h : c.Follows d) (hd : d.session = some s)
    (hg : s.generation ≤ s'.generation) (ha : Advance.Belongs c a) (value : FarmingAvailability) :
    c.Follows (d.available setup s' id a value) := by
  have hput : c.Follows (d.put (s'.observe value)) := h.put hd hg
  have happ : c.Follows ((d.put (s'.observe value)).put { s'.observe value with applied := true }) :=
    hput.put rfl le_rfl
  unfold Controller.available Controller.unavailable
  dsimp only
  split_ifs
  · exact (hput.halt _ _).awaitAdvance ha _
  · exact (hput.halt _ _).returns ha
  · exact happ.awaitAdvance ha _
  · exact hput.proceed rfl le_rfl ha _

theorem Follows.whenCurrent (h : c.Follows d) (ha : Advance.Belongs c a)
    {k : Session → Controller} (hk : ∀ s, d.session = some s → c.Follows (k s)) :
    c.Follows (d.whenCurrent id a k) := by
  unfold Controller.whenCurrent
  split
  next => exact h.returns ha
  next s hs =>
    split_ifs
    · exact hk s hs
    · exact h.returns ha

theorem Follows.fail (h : c.Follows d) (ha : Advance.Belongs c a) : c.Follows (d.fail id a) := by
  refine h.whenCurrent ha fun s hs => ?_
  have hh := halts_halt hs "farming_failed" .failure
  have hput : c.Follows ((d.halt "farming_failed" .failure).put
      { s.halt "farming_failed" with
        snapshot := { (s.halt "farming_failed").snapshot with phase := .error } }) :=
    (h.halt "farming_failed" .failure).put hh.session le_rfl
  dsimp only
  split_ifs
  · exact hput.awaitAdvance ha _
  · exact hput.returns ha

/-- A resumed `advance` starts nothing. -/
theorem follows_settleAdvance {point : Point} {outcome : Outcome}
    (ht : c.tasks.lookup id = some (.advance a point))
    (hd : c.settleAdvance setup id a point outcome = some d) : c.Follows d := by
  have ha : Advance.Belongs c a := fun hcaller => by
    obtain ⟨resumed, hr⟩ := Option.isSome_iff_exists.mp hcaller
    exact ⟨id, _, ht, by simp [Task.startGeneration, hr]⟩
  have hc := Follows.refl c
  unfold settleAdvance at hd
  split at hd
  next => obtain rfl := Option.some.inj hd; exact hc.returns ha
  next => obtain rfl := Option.some.inj hd; exact hc.fail ha
  next =>
    obtain rfl := Option.some.inj hd
    exact hc.whenCurrent ha fun s hs => hc.available hs le_rfl ha _
  next =>
    split_ifs at hd
    obtain rfl := Option.some.inj hd
    exact hc.whenCurrent ha fun s hs => hc.proceed hs le_rfl ha _
  next discovery =>
    obtain rfl := Option.some.inj hd
    refine hc.whenCurrent ha fun s hs => ?_
    have hf := Session.sameControl_updateGames setup c.now c.shuttingDown discovery s
    exact (hc.putFiltered hs hf.generation.ge).refilter (putFiltered_session _ _) le_rfl ha _
  next =>
    split_ifs at hd
    obtain rfl := Option.some.inj hd
    exact hc.whenCurrent ha fun s hs => hc.arm hs le_rfl ha _ _
  next => split_ifs at hd; obtain rfl := Option.some.inj hd; exact hc.returns ha
  next => split_ifs at hd; obtain rfl := Option.some.inj hd; exact hc.returns ha
  next => split_ifs at hd; obtain rfl := Option.some.inj hd; exact hc.returns ha
  next => cases hd

theorem follows_settleScan {generation : ℕ} {outcome : Outcome}
    (hd : c.settleScan setup id generation outcome = some d) : c.Follows d := by
  have hc := Follows.refl c
  unfold settleScan at hd
  split at hd
  next discovery =>
    split at hd
    next => obtain rfl := Option.some.inj hd; exact hc.finish
    next s hs =>
      have hf := Session.sameControl_updateGames setup c.now c.shuttingDown discovery s
      split_ifs at hd
      · obtain rfl := Option.some.inj hd
        have hp := hc.putFiltered hs hf.generation.ge
        refine (hp.put (putFiltered_session _ _) ?_).finish
        exact le_rfl
      · obtain rfl := Option.some.inj hd
        exact hc.finish
  next =>
    split at hd
    next => obtain rfl := Option.some.inj hd; exact hc.finish
    next s hs =>
      split_ifs at hd
      · obtain rfl := Option.some.inj hd
        refine (hc.put hs ?_).finish
        exact le_rfl
      · obtain rfl := Option.some.inj hd
        exact hc.finish
  next => cases hd

/-- A `start` that finds the session inactive only returns. -/
theorem follows_settleStarted {resumed : Bool} (hact : c.isActive = false) :
    c.Follows (c.settleStarted id resumed) := by
  unfold settleStarted
  split
  next => exact (Follows.refl c).finish
  next s hs =>
    have hact : s.isActive = false := by simpa [isActive, hs] using hact
    rw [if_neg (by simp [hact])]
    exact (Follows.refl c).finish

theorem follows_settle {outcome : Outcome}
    (hstarted : ∀ g resumed, c.tasks.lookup id = some (.started g resumed) → c.isActive = false)
    (hd : c.settle setup id outcome = some d) : c.Follows d := by
  have hc := Follows.refl c
  unfold settle at hd
  split at hd
  next => exact follows_settleScan hd
  next ht => exact follows_settleAdvance ht hd
  next ht => obtain rfl := Option.some.inj hd; exact follows_settleStarted (hstarted _ _ ht)
  next => obtain rfl := Option.some.inj hd; exact hc.finish
  next => split_ifs at hd; obtain rfl := Option.some.inj hd; exact hc.finish
  next =>
    unfold settlePricing at hd
    split at hd
    next =>
      obtain rfl := Option.some.inj hd
      refine Follows.await ?_ fun g hg => by cases hg
      split
      next => exact hc
      next hs => exact hc.put hs (Session.sameControl_setPrices ..).generation.ge
    next =>
      obtain rfl := Option.some.inj hd
      exact hc.await fun g hg => by cases hg
    next => cases hd
  next =>
    obtain rfl := Option.some.inj hd
    unfold settlePriced
    refine Follows.finish ?_
    split
    next => exact hc
    next hs => exact hc.put hs le_rfl
  next => cases hd

theorem follows_perform {t : Task} {generation : ℕ} {effect : Effect} {task : CallState → Task}
    (ht : c.tasks.lookup id = some t) (he : effect ≠ .started)
    (hsame : ∀ call, (task call).startGeneration = t.startGeneration) :
    c.Follows (c.perform id generation effect task) := by
  have hc := Follows.refl c
  unfold perform
  split_ifs
  · exact (hc.emit he).await fun g hg => ⟨id, t, ht, hsame _ ▸ hg⟩
  · exact hc.await fun g hg => ⟨id, t, ht, hsame _ ▸ hg⟩

theorem follows_act (hd : c.act id = some d) : c.Follows d := by
  unfold act at hd
  split at hd
  next ht => obtain rfl := Option.some.inj hd; exact follows_perform ht (by simp) fun _ => rfl
  next ht => obtain rfl := Option.some.inj hd; exact follows_perform ht (by simp) fun _ => rfl
  next ht => obtain rfl := Option.some.inj hd; exact follows_perform ht (by simp) fun _ => rfl
  next ht => obtain rfl := Option.some.inj hd; exact follows_perform ht (by simp) fun _ => rfl
  next ht => obtain rfl := Option.some.inj hd; exact follows_perform ht (by simp) fun _ => rfl
  next ht => obtain rfl := Option.some.inj hd; exact follows_perform ht (by simp) fun _ => rfl
  next => cases hd

theorem follows_fire {timer : TimerId} (hd : c.fire timer = some d) : c.Follows d := by
  unfold fire at hd
  split at hd
  next tm s ht hs =>
    have hclear : c.Follows { c with timers := c.timers.erase timer } :=
      (Follows.refl c).congr rfl rfl rfl rfl
    have hput : c.Follows ({ c with timers := c.timers.erase timer }.put
        { s with timer := none }) := hclear.put hs le_rfl
    dsimp only at hd
    split_ifs at hd
    · obtain rfl := Option.some.inj hd
      exact hput.spawn rfl
    · obtain rfl := Option.some.inj hd
      exact hput
  next => cases hd

/-- Every action of the controller but a `start`. -/
theorem follows_next {action : Action} (hn : ∀ config expected resumed,
      action ≠ .start config expected resumed)
    (hstarted : ∀ id g resumed outcome, action = .settle id outcome →
      c.tasks.lookup id = some (.started g resumed) → c.isActive = false)
    (hd : (controllerMachine setup).next c action = some d) : c.Follows d := by
  have hc := Follows.refl c
  cases action with
  | snapshot => obtain rfl := Option.some.inj hd; exact hc.touch _
  | scan => obtain rfl := Option.some.inj hd; exact follows_scan _ _
  | start => exact absurd rfl (hn _ _ _)
  | reconfigure => obtain rfl := Option.some.inj hd; exact follows_reconfigure _
  | halt => obtain rfl := Option.some.inj hd; exact hc.halt _ _
  | stop => obtain rfl := Option.some.inj hd; exact follows_stop
  | beginShutdown =>
    obtain rfl := Option.some.inj hd
    have hdown : c.Follows { c with shuttingDown := true } := hc.congr rfl rfl rfl rfl
    exact hdown.halt _ _
  | initializeAgain => obtain rfl := Option.some.inj hd; exact hc.congr rfl rfl rfl rfl
  | fire => exact follows_fire hd
  | act => exact follows_act hd
  | settle id outcome => exact follows_settle (fun g r => hstarted id g r outcome rfl) hd
  | tick => obtain rfl := Option.some.inj hd; exact hc.congr rfl rfl rfl rfl

end Controller
end SteamBee.Farming
