import SteamBee.Farming.Superseded

/-! What the phase of a session says about its worker: a playing session has a timer or
one `advance`, a scanning one has a call in flight, any other one has nothing. -/
namespace SteamBee.Farming

def lastSelection : List Effect → Option (List AppId)
  | [] => none
  | .applied appIds :: _ => some appIds
  | .ended :: _ => none
  | _ :: effects => lastSelection effects

def FarmingPhase.plays : FarmingPhase → Bool
  | .warming | .farming => true
  | _ => false

theorem FarmingPhase.isActive_of_plays {phase : FarmingPhase} (h : phase.plays = true) :
    phase.isActive = true := by
  cases phase with
  | warming | farming => rfl
  | _ => cases h

namespace Task

/-- A cleanup that ends farming while this generation is current. -/
def ends (generation : ℕ) : Task → Bool
  | .advance _ (.endUnavailable _ g) | .advance _ (.endFailed _ g) | .stop g _ => g == generation
  | .advance a (.endCompleted _) => a.generation == generation
  | _ => false

theorem Bounded.not_ends {g g' : ℕ} {t : Task} (h : t.Bounded g) (hg : g < g') :
    t.ends g' = false := by
  cases t with
  | stop k =>
    have hk : k ≤ g := h
    simp only [ends, beq_eq_false_iff_ne]
    omega
  | advance a point =>
    cases point with
    | endUnavailable _ k | endFailed _ k =>
      have hk : k ≤ g := h.2
      simp only [ends, beq_eq_false_iff_ne]
      omega
    | endCompleted =>
      have ha : a.generation ≤ g := h
      simp only [ends, beq_eq_false_iff_ne]
      omega
    | availability | begin | discover | apply => rfl
  | scan | started | pricing | priced => rfl

theorem advance_of_works {g : ℕ} {t : Task} (h : t.works g = true) :
    ∃ a point, t = .advance a point ∧ a.generation = g := by
  cases t with
  | advance a point =>
    refine ⟨a, point, rfl, ?_⟩
    cases point with
    | availability | begin | discover | apply => simpa [works] using h
    | _ => cases h
  | _ => cases h

theorem not_drives_of_ends {g : ℕ} {t : Task} (h : t.ends g = true) : t.drives g = false := by
  cases t with
  | advance a point =>
    cases point with
    | endUnavailable | endFailed | endCompleted => rfl
    | _ => cases h
  | stop => rfl
  | _ => cases h

/-- The adapter applied the games of this task, which the session does not show yet. -/
def hasApplied : Task → Bool
  | .advance _ (.apply .acted _ _) => true
  | _ => false

theorem advance_of_hasApplied {t : Task} (h : t.hasApplied = true) :
    ∃ a point, t = .advance a point := by
  cases t with
  | advance a point => exact ⟨a, point, rfl⟩
  | _ => cases h

/-- What an `apply` of the current generation promises when `last` took effect last. -/
def Tells (last : Option (List AppId)) : Task → Prop
  | .advance _ (.apply call appIds _) =>
    appIds ≠ [] ∧ call ≠ .declined ∧ (call = .acted → last = some appIds)
  | _ => True

end Task

namespace Session

structure SameTrack (s t : Session) : Prop where
  generation : t.generation = s.generation
  timer : t.timer = s.timer
  phase : t.snapshot.phase = s.snapshot.phase
  activeAppIds : t.snapshot.activeAppIds = s.snapshot.activeAppIds
  activeSince : s.activeSince = none → t.activeSince = none

theorem SameTrack.refl (s : Session) : s.SameTrack s := ⟨rfl, rfl, rfl, rfl, fun h => h⟩

theorem SameTrack.isActive {s t : Session} (h : s.SameTrack t) : t.isActive = s.isActive :=
  congrArg FarmingPhase.isActive h.phase

theorem SameControl.track {s t : Session} (h : s.SameControl t)
    (ha : t.activeSince = s.activeSince) : s.SameTrack t :=
  ⟨h.generation, h.timer, h.phase, h.activeAppIds, fun hs => ha.trans hs⟩

variable (setup : Setup) (now : ℕ) (shuttingDown : Bool) (s : Session)

theorem sameTrack_filterGames : s.SameTrack (s.filterGames setup now shuttingDown).1 := by
  refine (sameControl_filterGames setup now shuttingDown s).track ?_
  unfold filterGames priceGames
  dsimp only
  split_ifs <;> rfl

theorem sameTrack_updateGames (discovery : Discovery) :
    s.SameTrack (s.updateGames setup now shuttingDown discovery).1 := by
  refine (sameControl_updateGames setup now shuttingDown discovery s).track ?_
  unfold updateGames filterGames priceGames
  dsimp only
  split_ifs <;> rfl

theorem sameTrack_creditPlaytime : s.SameTrack (s.creditPlaytime now) := by
  have h := sameControl_creditPlaytime now s
  refine ⟨h.generation, h.timer, h.phase, h.activeAppIds, fun hs => ?_⟩
  simp only [creditPlaytime, hs]

theorem halt_activeAppIds (reason : String) : (s.halt reason).snapshot.activeAppIds = [] := by
  unfold halt
  dsimp only
  split_ifs <;> rfl

end Session

namespace Controller
variable {setup : Setup} {c d : Controller} {s s' : Session} {id : TaskId} {a : Advance}
  {t t' : Task}

/-- The worker of the session `s`, as its phase promises. -/
structure Tracks (c : Controller) (s : Session) : Prop where
  up : s.isActive = true → c.shuttingDown = false
  rests : s.snapshot.phase.plays = false → s.snapshot.activeAppIds = [] ∧ s.activeSince = none
  plays : s.snapshot.phase.plays = true → s.snapshot.activeAppIds ≠ []
  waits : s.snapshot.phase = .scanning → s.timer = none
  driven : s.isActive = true → s.timer = none → ∃ k t, c.tasks.lookup k = some t ∧
    t.drives s.generation = true ∧ (s.snapshot.phase.plays = true → t.works s.generation = true)
  tells : ∀ k t, c.tasks.lookup k = some t → t.drives s.generation = true →
    t.Tells (lastSelection c.effects)
  shows : s.snapshot.phase.plays = true →
    (∀ k t, c.tasks.lookup k = some t → t.drives s.generation = true → t.hasApplied = false) →
    lastSelection c.effects = some s.snapshot.activeAppIds
  ends : ∀ k t, c.tasks.lookup k = some t → t.ends s.generation = true → s.isActive = false

def Tracked (c : Controller) : Prop := ∀ s, c.session = some s → Tracks c s

theorem tracked_some (hs : c.session = some s) (h : Tracks c s) : Tracked c := by
  intro s' hs'
  obtain rfl := Option.some.inj (hs.symm.trans hs')
  exact h

/-- An inactive session only has to have stopped its games and its clock. -/
theorem tracked_of_inactive (h : Shaped c) (hs : c.session = some s) (hact : s.isActive = false)
    (hids : s.snapshot.activeAppIds = []) (hsince : s.activeSince = none) : Tracked c := by
  have hc : Shape c s := (shaped_some hs).mp h
  have hplays : s.snapshot.phase.plays ≠ true := by
    intro hp
    have hact' : s.isActive = true := FarmingPhase.isActive_of_plays hp
    simp [hact] at hact'
  refine tracked_some hs ⟨?_, ?_, ?_, ?_, ?_, ?_, ?_, ?_⟩
  · intro ha
    simp [hact] at ha
  · exact fun _ => ⟨hids, hsince⟩
  · exact fun hp => absurd hp hplays
  · intro hp
    simp [Session.isActive, hp, FarmingPhase.isActive] at hact
  · intro ha
    simp [hact] at ha
  · intro k t ht hd
    simp [hc.not_drives (.inr hact) ht] at hd
  · exact fun hp => absurd hp hplays
  · exact fun _ _ _ _ => hact

/-- Steps of calls that do not drive the session. -/
theorem Tracks.idle (h : Tracks c s) (hs : s.SameTrack s') (hup : d.shuttingDown = c.shuttingDown)
    (hlast : lastSelection d.effects = lastSelection c.effects)
    (hkept : ∀ k t, c.tasks.lookup k = some t → t.drives s.generation = true →
      d.tasks.lookup k = some t)
    (htasks : ∀ k t, d.tasks.lookup k = some t → c.tasks.lookup k = some t ∨
      t.drives s.generation = false ∧ (t.ends s.generation = true → s.isActive = false)) :
    Tracks d s' := by
  refine ⟨?_, ?_, ?_, ?_, ?_, ?_, ?_, ?_⟩
  · rw [hs.isActive, hup]
    exact h.up
  · rw [hs.phase, hs.activeAppIds]
    intro hp
    exact ⟨(h.rests hp).1, hs.activeSince (h.rests hp).2⟩
  · rw [hs.phase, hs.activeAppIds]
    exact h.plays
  · rw [hs.phase, hs.timer]
    exact h.waits
  · rw [hs.isActive, hs.timer, hs.phase, hs.generation]
    intro hact htimer
    obtain ⟨k, t, ht, hd, hw⟩ := h.driven hact htimer
    exact ⟨k, t, hkept k t ht hd, hd, hw⟩
  · intro k t ht hd
    rw [hs.generation] at hd
    rw [hlast]
    rcases htasks k t ht with ht | ⟨hn, -⟩
    · exact h.tells k t ht hd
    · simp [hn] at hd
  · rw [hs.phase, hs.activeAppIds, hlast]
    intro hp hnone
    refine h.shows hp fun k t ht hd => ?_
    exact hnone k t (hkept k t ht hd) (by rwa [hs.generation])
  · intro k t ht he
    rw [hs.generation] at he
    rw [hs.isActive]
    rcases htasks k t ht with ht | ⟨-, hn⟩
    · exact h.ends k t ht he
    · exact hn he

/-- The driver of the session goes on as the working task `t'`. -/
theorem Tracks.drive (h : Tracks c s) (hc : Shape c s) (ht : c.tasks.lookup id = some t)
    (hd : t.drives s.generation = true) (hs : s.SameTrack s')
    (hup : d.shuttingDown = c.shuttingDown) (htasks : d.tasks = c.tasks)
    (hw : t'.works s.generation = true) (htells : t'.Tells (lastSelection d.effects))
    (hshows : t'.hasApplied = true ∨
      t.hasApplied = false ∧ lastSelection d.effects = lastSelection c.effects) :
    Tracks (d.await id t') s' := by
  have hact : s.isActive = true := ((hc.fits id t ht).driver hd).1
  have hd' : t'.drives s.generation = true := Task.drives_of_works hw
  have hlook : (d.await id t').tasks.lookup id = some t' := by simp [lookup_await]
  have hother (k : TaskId) (u : Task) (hk : (d.await id t').tasks.lookup k = some u) :
      u = t' ∨ c.tasks.lookup k = some u ∧ u.drives s.generation = false := by
    rw [lookup_await, htasks] at hk
    split_ifs at hk with hkd
    · exact .inl (Option.some.inj hk).symm
    · refine .inr ⟨hk, ?_⟩
      by_contra hu
      exact hkd (hc.one k id u t hk ht (by simpa using hu) hd)
  refine ⟨?_, ?_, ?_, ?_, ?_, ?_, ?_, ?_⟩
  · intro _
    exact hup.trans (h.up hact)
  · rw [hs.phase, hs.activeAppIds]
    intro hp
    exact ⟨(h.rests hp).1, hs.activeSince (h.rests hp).2⟩
  · rw [hs.phase, hs.activeAppIds]
    exact h.plays
  · rw [hs.phase, hs.timer]
    exact h.waits
  · rw [hs.generation]
    intro _ _
    exact ⟨id, t', hlook, hd', fun _ => hw⟩
  · intro k u hk hu
    rw [hs.generation] at hu
    rcases hother k u hk with rfl | ⟨-, hn⟩
    · exact htells
    · simp [hn] at hu
  · rw [hs.phase, hs.activeAppIds]
    intro hp hnone
    have happ : t'.hasApplied = false := hnone id t' hlook (by rwa [hs.generation])
    rcases hshows with htrue | ⟨hold, hlast⟩
    · simp [happ] at htrue
    · refine hlast.trans (h.shows hp fun k u hk hu => ?_)
      obtain rfl := hc.one k id u t hk ht hu hd
      obtain rfl := Option.some.inj (hk.symm.trans ht)
      exact hold
  · intro k u hk he
    rw [hs.generation] at he
    rcases hother k u hk with rfl | ⟨hk, -⟩
    · simp [Task.not_drives_of_ends he] at hd'
    · rw [hs.isActive]
      exact h.ends k u hk he

theorem Tracks.backs (h : Tracks c s) (hc : Shape c s) (hb : c.Backs d) (hs : s.SameTrack s') :
    Tracks d s' := by
  refine h.idle hs hb.shuttingDown (by rw [hb.effects])
    (fun k t ht _ => hb.kept k t ht (hc.taskFresh k t ht)) fun k t ht => ?_
  rcases hb.tasks k t ht with ht | ⟨-, -, appIds, rfl⟩
  · exact .inl ht
  · exact .inr ⟨rfl, fun he => by cases he⟩

/-- A task that does not drive the session returns. -/
theorem Tracks.finish (h : Tracks c s) (ht : c.tasks.lookup id = some t)
    (hd : t.drives s.generation = false) : Tracks (c.finish id) s := by
  refine h.idle (.refl s) rfl rfl (fun k u hk hu => ?_) fun k u hk => ?_
  · rw [lookup_finish, if_neg]
    · exact hk
    · rintro rfl
      obtain rfl := Option.some.inj (hk.symm.trans ht)
      simp [hd] at hu
  · rw [lookup_finish] at hk
    split_ifs at hk
    exact .inl hk

/-- A task that does not drive the session goes on as one that does not either. -/
theorem Tracks.await (h : Tracks c s) (ht : c.tasks.lookup id = some t)
    (hd : t.drives s.generation = false) (hd' : t'.drives s.generation = false)
    (he : t'.ends s.generation = true → s.isActive = false) : Tracks (c.await id t') s := by
  refine h.idle (.refl s) rfl rfl (fun k u hk hu => ?_) fun k u hk => ?_
  · rw [lookup_await, if_neg]
    · exact hk
    · rintro rfl
      obtain rfl := Option.some.inj (hk.symm.trans ht)
      simp [hd] at hu
  · rw [lookup_await] at hk
    split_ifs at hk
    · obtain rfl := Option.some.inj hk
      exact .inr ⟨hd', he⟩
    · exact .inl hk

theorem Tracks.returns (h : Tracks c s) (ht : c.tasks.lookup id = some t)
    (hd : t.drives s.generation = false) : Tracks (c.returns id a) s := by
  unfold Controller.returns
  split
  · exact h.finish ht hd
  · exact h.await ht hd rfl fun he => by cases he

/-- What is not current does not drive. -/
theorem Tracks.not_drives (h : Tracks c s) (hc : Shape c s) (hs : c.session = some s)
    (ht : c.tasks.lookup id = some t) {generation : ℕ} (hcur : c.isCurrent generation ≠ true)
    (hg : t.drives s.generation = true → generation = s.generation) :
    t.drives s.generation = false := by
  by_contra hd
  have hd : t.drives s.generation = true := by simpa using hd
  refine hcur ((isCurrent_iff hs generation).mpr ⟨?_, hg hd⟩)
  exact h.up ((hc.fits id t ht).driver hd).1

theorem drives_advance {point : Point} {generation : ℕ}
    (h : (Task.advance a point).drives generation = true) : a.generation = generation := by
  cases point with
  | availability | begin | discover | apply => simpa [Task.drives, Task.works] using h
  | _ => cases h

@[simp] theorem touch_shuttingDown (config : Option FarmingConfig) :
    (c.touch setup config).shuttingDown = c.shuttingDown := by
  unfold Controller.touch
  split
  · rfl
  · split_ifs
    · rfl
    · exact (backs_putFiltered c _).shuttingDown
  · rfl

theorem tracked_touch (h : Shaped c) (hT : Tracked c) (config : Option FarmingConfig) :
    Tracked (c.touch setup config) := by
  have hd : Shaped (c.touch setup config) := shaped_touch h config
  cases hs : c.session with
  | none =>
    have hnew : c.touch setup config = c.put (Session.new setup config) := by
      simp only [Controller.touch, hs]
    rw [hnew] at hd ⊢
    exact tracked_of_inactive hd rfl rfl rfl rfl
  | some s =>
    have hc : Shape c s := (shaped_some hs).mp h
    unfold Controller.touch
    split
    next hnone => simp [hs] at hnone
    next s' config hs' =>
      obtain rfl := Option.some.inj (hs.symm.trans hs')
      split_ifs
      · exact hT
      · have hrest : Tracks c { s with snapshot := { s.snapshot with config } } :=
          (hT s hs).idle ⟨rfl, rfl, rfl, rfl, fun h => h⟩ rfl rfl (fun _ _ ht _ => ht)
            fun _ _ ht => .inl ht
        have hc' : Shape c { s with snapshot := { s.snapshot with config } } :=
          hc.idle ⟨rfl, rfl, rfl, rfl, rfl⟩ le_rfl rfl fun _ _ ht => .inl ht
        exact tracked_some (putFiltered_session c _)
          (hrest.backs hc' (backs_putFiltered c _) (Session.sameTrack_filterGames ..))
    next => exact hT

theorem tracked_halt (h : Shaped c) (reason : String) (cause : Cause) :
    Tracked (c.halt reason cause) := by
  have hd : Shaped (c.halt reason cause) := shaped_halt h reason cause
  cases hs : c.session with
  | none =>
    intro s hs'
    simp [Controller.halt, hs] at hs'
  | some s =>
    exact tracked_of_inactive hd (halts_halt hs reason cause).session (s.halt_isActive reason)
      (s.halt_activeAppIds reason) rfl

/-- An inactive session starts to scan, with a new call that drives it. -/
theorem tracks_open {generation : ℕ} (h : Tracks c s) (hc : Shape c s) (hact : s.isActive = false)
    (hphase : s'.snapshot.phase = .scanning) (hg : s'.generation = generation)
    (hlt : s.generation < generation) (htimer : s'.timer = s.timer)
    (hids : s'.snapshot.activeAppIds = s.snapshot.activeAppIds)
    (hsince : s'.activeSince = s.activeSince) (hup : d.shuttingDown = false)
    (htasks : d.tasks = c.tasks) (ht : t.drives generation = true) (happ : t.hasApplied = false)
    (htells : t.Tells (lastSelection d.effects)) : Tracks (d.spawn t) s' := by
  have hrest := h.rests <| by
    by_contra hp
    simp only [Bool.not_eq_false] at hp
    have hact' : s.isActive = true := FarmingPhase.isActive_of_plays hp
    simp [hact] at hact'
  have hnew (k : TaskId) (u : Task) (hk : (d.spawn t).tasks.lookup k = some u) :
      u = t ∨ c.tasks.lookup k = some u := by
    rw [lookup_spawn, htasks] at hk
    split_ifs at hk
    · exact .inl (Option.some.inj hk).symm
    · exact .inr hk
  subst hg
  refine ⟨fun _ => hup, fun _ => ⟨hids.trans hrest.1, hsince.trans hrest.2⟩, ?_, ?_, ?_, ?_, ?_, ?_⟩
  · intro hp
    simp [hphase, FarmingPhase.plays] at hp
  · intro _
    exact htimer.trans (hc.timer_of_inactive hact)
  · intro _ _
    refine ⟨d.drawn, t, by simp [lookup_spawn], ht, fun hp => ?_⟩
    simp [hphase, FarmingPhase.plays] at hp
  · intro k u hk hu
    rcases hnew k u hk with rfl | hk
    · exact htells
    · simp [(hc.fits k u hk).bounded.not_drives hlt] at hu
  · intro hp
    simp [hphase, FarmingPhase.plays] at hp
  · intro k u hk he
    rcases hnew k u hk with rfl | hk
    · simp [Task.not_drives_of_ends he] at ht
    · simp [(hc.fits k u hk).bounded.not_ends hlt] at he

theorem tracked_scan (h : Shaped c) (hT : Tracked c) (config : FarmingConfig)
    (expected : Option ℕ) : Tracked (c.scan setup config expected).2 := by
  unfold Controller.scan
  split_ifs with hdown
  · exact hT
  · have hc : Shaped (c.touch setup (some config)) := shaped_touch h _
    have ht : Tracked (c.touch setup (some config)) := tracked_touch h hT _
    have hup : (c.touch setup (some config)).shuttingDown = false := by simpa using hdown
    dsimp only
    split
    next => exact ht
    next s hs =>
      split_ifs with hstay
      · exact ht
      · simp only [Bool.or_eq_true, not_or, Bool.not_eq_true] at hstay
        exact tracked_some rfl <| tracks_open (ht s hs) ((shaped_some hs).mp hc) hstay.2
          (by rfl) (by rfl) (Nat.lt_succ_self _) (by rfl) (by rfl) (by rfl) (by exact hup) (by rfl)
          (by simp [Task.drives]) rfl trivial

theorem tracked_start (h : Shaped c) (hT : Tracked c) (config : FarmingConfig)
    (expected : Option ℕ) (resumed : Bool) :
    Tracked (c.start setup config expected resumed).2 := by
  unfold Controller.start
  split_ifs with hdown
  · exact hT
  · have hc : Shaped (c.touch setup (some config)) := shaped_touch h _
    have ht : Tracked (c.touch setup (some config)) := tracked_touch h hT _
    have hup : (c.touch setup (some config)).shuttingDown = false := by simpa using hdown
    dsimp only
    split
    next => exact ht
    next s hs =>
      split_ifs with hexp hact
      · exact ht
      · exact ht
      · exact tracked_some rfl <| tracks_open (ht s hs) ((shaped_some hs).mp hc)
          (by simpa using hact) (by rfl) (by rfl) (Nat.lt_succ_self _) (by rfl) (by rfl)
          (by rfl) (by exact hup) (by rfl) (by simp [Task.drives, Task.works]) rfl trivial

/-- The timer of the session gives way to an `advance` of the same generation. -/
theorem Tracks.rearm (h : Tracks c s) (hc : Shape c s) (htimer : s.timer ≠ none)
    (hs : { s with timer := none }.SameTrack s') (hup : d.shuttingDown = c.shuttingDown)
    (heffects : d.effects = c.effects) (htasks : d.tasks = c.tasks) :
    Tracks (d.spawn (.advance ⟨none, s.generation, false⟩ .availability)) s' := by
  have hnone (k : TaskId) (u : Task) (hk : c.tasks.lookup k = some u) :
      u.drives s.generation = false := hc.not_drives (.inl htimer) hk
  have hnew (k : TaskId) (u : Task)
      (hk : (d.spawn (.advance ⟨none, s.generation, false⟩ .availability)).tasks.lookup k = some u) :
      u = .advance ⟨none, s.generation, false⟩ .availability ∨ c.tasks.lookup k = some u := by
    rw [lookup_spawn, htasks] at hk
    split_ifs at hk
    · exact .inl (Option.some.inj hk).symm
    · exact .inr hk
  have hg : s'.generation = s.generation := hs.generation
  refine ⟨?_, ?_, ?_, ?_, ?_, ?_, ?_, ?_⟩
  · rw [hs.isActive]
    intro hact
    exact hup.trans (h.up hact)
  · rw [hs.phase, hs.activeAppIds]
    intro hp
    exact ⟨(h.rests hp).1, hs.activeSince (h.rests hp).2⟩
  · rw [hs.phase, hs.activeAppIds]
    exact h.plays
  · intro _
    exact hs.timer
  · intro _ _
    refine ⟨d.drawn, .advance ⟨none, s.generation, false⟩ .availability, ?_, ?_, fun _ => ?_⟩
    · simp [lookup_spawn]
    · simp [hg, Task.drives, Task.works]
    · simp [hg, Task.works]
  · intro k u hk hu
    rcases hnew k u hk with rfl | hk
    · trivial
    · simp [hg, hnone k u hk] at hu
  · rw [hs.phase, hs.activeAppIds]
    intro hp _
    show lastSelection d.effects = some s.snapshot.activeAppIds
    rw [heffects]
    refine h.shows hp fun k u hk hu => ?_
    simp [hnone k u hk] at hu
  · intro k u hk he
    rw [hs.isActive]
    rcases hnew k u hk with rfl | hk
    · cases he
    · exact h.ends k u hk (hg ▸ he)

theorem tracked_reselect (h : Shape c s) (hT : Tracks c s) : Tracked (c.reselect setup s) := by
  have hsame := Session.sameTrack_filterGames setup c.now c.shuttingDown s
  have hf : Tracks (c.putFiltered (s.filterGames setup c.now c.shuttingDown))
      (s.filterGames setup c.now c.shuttingDown).1 := hT.backs h (backs_putFiltered c _) hsame
  have hfc := shape_putFiltered h (Session.sameControl_filterGames setup c.now c.shuttingDown s)
  unfold reselect
  dsimp only
  split
  next => exact tracked_some (putFiltered_session _ _) hf
  next timer htimer =>
    refine tracked_some rfl ?_
    rw [← hsame.generation]
    exact hf.rearm hfc (by simp [hsame.timer, htimer]) (.refl _) (by rfl) (by rfl) (by rfl)

theorem tracked_reconfigure (h : Shaped c) (hT : Tracked c) (config : FarmingConfig) :
    Tracked (c.reconfigure setup config) := by
  have hc : Shaped (c.touch setup (some config)) := shaped_touch h _
  have ht : Tracked (c.touch setup (some config)) := tracked_touch h hT _
  unfold Controller.reconfigure
  dsimp only
  split
  next => exact ht
  next s hs =>
    split_ifs
    · exact ht
    · refine tracked_reselect ?_ ?_
      · exact ((shaped_some hs).mp hc).idle ⟨rfl, rfl, rfl, rfl, rfl⟩ le_rfl rfl fun _ _ hk => .inl hk
      · exact (ht s hs).idle ⟨rfl, rfl, rfl, rfl, fun h => h⟩ rfl rfl (fun _ _ hk _ => hk)
          fun _ _ hk => .inl hk

theorem tracked_stop (h : Shaped c) : Tracked (c.stop setup).2 := by
  have ht : Shaped (c.touch setup none) := shaped_touch h none
  have hd : Shaped (c.stop setup).2 := shaped_stop h
  have hh : Tracked ((c.touch setup none).halt "stopped" .stop) := tracked_halt ht _ _
  unfold stop at hd ⊢
  dsimp only at hd ⊢
  split
  next => exact hh
  next s hs =>
    -- the session that waits for the end of farming is inactive
    obtain ⟨s₀, hs₀⟩ : ∃ s₀, (c.touch setup none).session = some s₀ := by
      cases hc : (c.touch setup none).session with
      | none => simp [Controller.halt, hc] at hs
      | some s₀ => exact ⟨s₀, rfl⟩
    obtain rfl := Option.some.inj (hs.symm.trans (halts_halt hs₀ "stopped" .stop).session)
    simp only [hs] at hd
    exact tracked_of_inactive hd hs (s₀.halt_isActive _) (s₀.halt_activeAppIds _) rfl

theorem tracked_whenCurrent {point : Point} (h : Shape c s) (hT : Tracks c s)
    (hs : c.session = some s) (ht : c.tasks.lookup id = some (.advance a point))
    {k : Session → Controller} (hk : a.generation = s.generation → Tracked (k s)) :
    Tracked (c.whenCurrent id a k) := by
  simp only [whenCurrent, hs]
  split_ifs with hcur
  · exact hk ((isCurrent_iff hs a.generation).mp hcur).2
  · exact tracked_some (returns_session.trans hs)
      (hT.returns ht (hT.not_drives h hs ht hcur drives_advance))

theorem tracked_fail {point : Point} (h : Shape c s) (hT : Tracks c s) (hs : c.session = some s)
    (ht : c.tasks.lookup id = some (.advance a point)) (ha : a.generation ≤ s.generation) :
    Tracked (c.fail id a) := by
  have hd : Shaped (c.fail id a) := shaped_fail h hs (h.taskFresh id _ ht) ha
  cases hcur : c.isCurrent a.generation with
  | false =>
    have hreturns : c.fail id a = c.returns id a := by simp [fail, whenCurrent, hs, hcur]
    rw [hreturns]
    exact tracked_some (returns_session.trans hs)
      (hT.returns ht (hT.not_drives h hs ht (by simp [hcur]) drives_advance))
  | true =>
    have hsession : (c.fail id a).session = some { s.halt "farming_failed" with
        snapshot := { (s.halt "farming_failed").snapshot with phase := .error } } := by
      simp only [fail, whenCurrent, hs, hcur, if_true]
      split_ifs
      · rfl
      · exact returns_session
    exact tracked_of_inactive hd hsession rfl (s.halt_activeAppIds _) rfl

/-- A worker whose task has no applied games that the session does not show. -/
structure Choosing (c : Controller) (s : Session) (id : TaskId) (a : Advance) : Prop
    extends Working c s id a where
  tracks : Tracks c s
  shown : ∀ t, c.tasks.lookup id = some t → t.hasApplied = false

theorem Choosing.backs (h : Choosing c s id a) (hb : c.Backs d) (hsame : s.SameControl s')
    (hs : s.SameTrack s') (hd : d.session = some s') : Choosing d s' id a where
  toWorking := h.toWorking.backs hb hsame hd
  tracks := h.tracks.backs h.shape hb hs
  shown t ht := by
    obtain ⟨t', ht', -⟩ := h.task
    obtain rfl := Option.some.inj (ht.symm.trans (hb.kept id t' ht' h.lt_drawn))
    exact h.shown t ht'

/-- The worker goes on to await a `point` at which nothing was applied yet. -/
theorem Choosing.tracked_await {point : Point} (h : Choosing c s id a)
    (hd : d.session = some s') (hs : s.SameTrack s') (hup : d.shuttingDown = c.shuttingDown)
    (heffects : d.effects = c.effects) (htasks : d.tasks = c.tasks)
    (hw : (Task.advance a point).works s.generation = true)
    (htells : (Task.advance a point).Tells (lastSelection c.effects)) :
    Tracked (d.await id (.advance a point)) := by
  obtain ⟨t, ht, hdr⟩ := h.task
  refine tracked_some (show (d.await id (.advance a point)).session = some s' from hd) ?_
  refine h.tracks.drive h.shape ht hdr hs hup htasks hw ?_ (.inr ⟨h.shown t ht, ?_⟩)
  · rwa [heffects]
  · rw [heffects]

/-- The worker shows the games that took effect last and arms the next tick. -/
theorem tracked_arm (h : Working c s id a) (hT : Tracks c s) {appIds : List AppId}
    (warmingUp : Bool) (hids : appIds ≠ []) (hlast : lastSelection c.effects = some appIds) :
    Tracked (c.arm setup s id a appIds warmingUp) := by
  have hd : Shaped (c.arm setup s id a appIds warmingUp) := shaped_arm h appIds warmingUp
  have hact : s.isActive = true := h.active.1
  have hup : (c.arm setup s id a appIds warmingUp).shuttingDown = c.shuttingDown :=
    returns_shuttingDown
  have heffects : (c.arm setup s id a appIds warmingUp).effects = c.effects := returns_effects
  have htasks (k : TaskId) (u : Task)
      (hk : (c.arm setup s id a appIds warmingUp).tasks.lookup k = some u) :
      c.tasks.lookup k = some u ∨ u.ends s.generation = false := by
    unfold arm at hk
    rw [lookup_returns] at hk
    by_cases hkd : k = id
    · rw [if_pos hkd] at hk
      obtain ⟨_, -, rfl⟩ := Option.map_eq_some_iff.mp hk
      exact .inr rfl
    · rw [if_neg hkd] at hk
      exact .inl hk
  obtain ⟨s', hs', hg, hplays, hids', htimer⟩ :
      ∃ s', (c.arm setup s id a appIds warmingUp).session = some s' ∧
        s'.generation = s.generation ∧ s'.snapshot.phase.plays = true ∧
        s'.snapshot.activeAppIds = appIds ∧ s'.timer ≠ none := by
    refine ⟨_, returns_session, rfl, ?_, rfl, by simp⟩
    show (if warmingUp then FarmingPhase.warming else .farming).plays = true
    split <;> rfl
  have hshape : Shape _ s' := (shaped_some hs').mp hd
  refine tracked_some hs' ⟨?_, ?_, ?_, ?_, ?_, ?_, ?_, ?_⟩
  · intro _
    exact hup.trans (hT.up hact)
  · intro hp
    simp [hplays] at hp
  · intro _
    rwa [hids']
  · intro hp
    simp [hp, FarmingPhase.plays] at hplays
  · intro _ hnone
    exact absurd hnone htimer
  · intro k u hk hu
    simp [hshape.not_drives (.inl htimer) hk] at hu
  · intro _ _
    rw [heffects, hids']
    exact hlast
  · intro k u hk he
    rw [hg] at he
    rcases htasks k u hk with hk | hn
    · simp [hT.ends k u hk he] at hact
    · simp [hn] at he

theorem tracked_complete (h : Working c s id a) (noneEligible : Bool) :
    Tracked (c.complete s id a noneEligible) := by
  have hd : Shaped (c.complete s id a noneEligible) := shaped_complete h noneEligible
  have hs : (c.complete s id a noneEligible).session = some (s.complete noneEligible) := by
    unfold complete
    dsimp only
    split_ifs
    · rfl
    · exact returns_session
  exact tracked_of_inactive hd hs rfl rfl rfl

theorem tracked_choose (h : Choosing c s id a) (gameLimit : ℕ) :
    Tracked (c.choose setup s id a gameLimit) := by
  unfold choose
  dsimp only
  split_ifs with hempty hsame
  · exact tracked_complete h.toWorking _
  · have hs : s.SameTrack { s with applied := true } := ⟨rfl, rfl, rfl, rfl, fun h => h⟩
    refine h.tracked_await rfl hs rfl rfl rfl ?_ ?_
    · simp [Task.works, h.current]
    · exact ⟨hempty, by simp, fun hc => by cases hc⟩
  · simp only [ne_eq, not_not] at hsame
    have hids : s.snapshot.activeAppIds ≠ [] := hsame ▸ hempty
    have hplays : s.snapshot.phase.plays = true := by
      by_contra hp
      exact hids (h.tracks.rests (by simpa using hp)).1
    refine tracked_arm h.toWorking h.tracks _ hempty ?_
    rw [hsame]
    refine h.tracks.shows hplays fun k u hk hu => ?_
    obtain ⟨t, ht, hdr⟩ := h.task
    obtain rfl := h.shape.one k id u t hk ht hu hdr
    exact h.shown u hk

theorem tracked_refilter (h : Choosing c s id a) (gameLimit : ℕ) :
    Tracked (c.refilter setup s id a gameLimit) :=
  tracked_choose (h.backs (backs_putFiltered c _) (Session.sameControl_filterGames ..)
    (Session.sameTrack_filterGames ..) (putFiltered_session c _)) gameLimit

theorem tracked_proceed (h : Choosing c s id a) (gameLimit : ℕ) :
    Tracked (c.proceed setup s id a gameLimit) := by
  have hs := Session.sameTrack_creditPlaytime c.now s
  have hw : Choosing (c.put (s.creditPlaytime c.now)) (s.creditPlaytime c.now) id a :=
    h.backs (backs_put c _) (Session.sameControl_creditPlaytime c.now s) hs rfl
  unfold proceed
  dsimp only
  split_ifs
  · refine h.tracked_await rfl hs rfl rfl rfl ?_ trivial
    simp [Task.works, h.current]
  · exact tracked_refilter hw gameLimit

theorem tracked_unavailable (h : Working c s id a) (reason : String) :
    Tracked (c.unavailable s id a reason) := by
  have hd : Shaped (c.unavailable s id a reason) := shaped_unavailable h reason
  have hs : (c.unavailable s id a reason).session = some (s.halt reason) := by
    unfold unavailable
    dsimp only
    split_ifs
    · exact (halts_halt h.session reason .unavailability).session
    · exact returns_session.trans (halts_halt h.session reason .unavailability).session
  exact tracked_of_inactive hd hs (s.halt_isActive _) (s.halt_activeAppIds _) rfl

theorem tracked_available (h : Choosing c s id a) (value : FarmingAvailability) :
    Tracked (c.available setup s id a value) := by
  have hs : s.SameTrack (s.observe value) := ⟨rfl, rfl, rfl, rfl, fun h => h⟩
  have hw : Choosing (c.put (s.observe value)) (s.observe value) id a :=
    h.backs (backs_put c _) ⟨rfl, rfl, rfl, rfl, rfl⟩ hs rfl
  unfold available
  dsimp only
  split_ifs
  · exact tracked_unavailable hw.toWorking _
  · have hs' : (s.observe value).SameTrack { s.observe value with applied := true } :=
      ⟨rfl, rfl, rfl, rfl, fun h => h⟩
    refine hw.tracked_await rfl hs' rfl rfl rfl ?_ trivial
    simp [Task.works, hw.current]
  · exact tracked_proceed hw value.gameLimit

/-- An `advance` that resumes before it applied games chooses them if it is current. -/
theorem choosing_of_current {point : Point} (h : Shape c s) (hT : Tracks c s)
    (hs : c.session = some s) (ht : c.tasks.lookup id = some (.advance a point))
    (hcur : a.generation = s.generation) (hd : (Task.advance a point).drives a.generation = true)
    (happ : (Task.advance a point).hasApplied = false) : Choosing c s id a where
  toWorking := working_of_current h hs ht hcur hd
  tracks := hT
  shown t ht' := by
    obtain rfl := Option.some.inj (ht.symm.trans ht')
    exact happ

theorem tracked_settleAdvance {point : Point} {outcome : Outcome} (h : Shape c s)
    (hT : Tracks c s) (hs : c.session = some s)
    (ht : c.tasks.lookup id = some (.advance a point))
    (hd : c.settleAdvance setup id a point outcome = some d) : Tracked d := by
  have hfit := (h.fits id _ ht).bounded
  have ha : a.generation ≤ s.generation := by
    cases point <;> first | exact hfit | exact hfit.1.le.trans hfit.2
  have hreturns (hn : (Task.advance a point).drives s.generation = false) :
      Tracked (c.returns id a) := tracked_some (returns_session.trans hs) (hT.returns ht hn)
  unfold settleAdvance at hd
  split at hd
  next =>
    obtain rfl := Option.some.inj hd
    exact hreturns rfl
  next =>
    obtain rfl := Option.some.inj hd
    exact tracked_fail h hT hs ht ha
  next value =>
    obtain rfl := Option.some.inj hd
    refine tracked_whenCurrent h hT hs ht fun hcur => ?_
    exact tracked_available
      (choosing_of_current h hT hs ht hcur (by simp [Task.drives, Task.works]) rfl) value
  next call gameLimit =>
    split_ifs at hd
    obtain rfl := Option.some.inj hd
    refine tracked_whenCurrent h hT hs ht fun hcur => ?_
    exact tracked_proceed
      (choosing_of_current h hT hs ht hcur (by simp [Task.drives, Task.works]) rfl) _
  next gameLimit discovery =>
    obtain rfl := Option.some.inj hd
    refine tracked_whenCurrent h hT hs ht fun hcur => ?_
    have hw := choosing_of_current h hT hs ht hcur (by simp [Task.drives, Task.works]) rfl
    exact tracked_refilter (hw.backs (backs_putFiltered c _) (Session.sameControl_updateGames ..)
      (Session.sameTrack_updateGames ..) (putFiltered_session c _)) _
  next call appIds warmingUp =>
    split_ifs at hd with hcall
    obtain rfl := Option.some.inj hd
    refine tracked_whenCurrent h hT hs ht fun hcur => ?_
    have hdr : (Task.advance a (.apply call appIds warmingUp)).drives a.generation = true := by
      simp [Task.drives, Task.works]
    -- the adapter did not decline, so it applied these games
    obtain ⟨hids, hne, hlast⟩ := hT.tells id _ ht (hcur ▸ hdr)
    have hacted : call = .acted := by
      cases call with
      | pending => exact absurd rfl hcall
      | acted => rfl
      | declined => exact absurd rfl hne
    exact tracked_arm (working_of_current h hs ht hcur hdr) hT _ hids (hlast hacted)
  next =>
    split_ifs at hd
    obtain rfl := Option.some.inj hd
    exact hreturns rfl
  next =>
    split_ifs at hd
    obtain rfl := Option.some.inj hd
    exact hreturns rfl
  next =>
    split_ifs at hd
    obtain rfl := Option.some.inj hd
    exact hreturns rfl
  next => cases hd

theorem tracked_settleScan {generation : ℕ} {outcome : Outcome} (h : Shape c s)
    (hT : Tracks c s) (hs : c.session = some s) (ht : c.tasks.lookup id = some (.scan generation))
    (hd : c.settleScan setup id generation outcome = some d) : Tracked d := by
  have hshape : Shaped d := shaped_settleScan h hs ht hd
  have hfinish (hcur : ¬ c.isCurrent generation = true) : Tracked (c.finish id) := by
    refine tracked_some (show (c.finish id).session = some s from hs) (hT.finish ht ?_)
    exact hT.not_drives h hs ht hcur fun hdr => by simpa [Task.drives] using hdr
  -- the current scan is the driver, so the session does not play
  have hrest (hcur : c.isCurrent generation = true) :
      s.snapshot.activeAppIds = [] ∧ s.activeSince = none := by
    refine hT.rests ?_
    by_contra hp
    have hp : s.snapshot.phase.plays = true := by simpa using hp
    have hdr : (Task.scan generation).drives s.generation = true := by
      simp [Task.drives, ((isCurrent_iff hs generation).mp hcur).2]
    obtain ⟨hact, htimer⟩ := (h.fits id _ ht).driver hdr
    obtain ⟨k, t, hk, hkd, hw⟩ := hT.driven hact htimer
    obtain rfl := h.one k id t _ hk ht hkd hdr
    obtain rfl := Option.some.inj (hk.symm.trans ht)
    cases hw hp
  unfold settleScan at hd
  simp only [hs] at hd
  split at hd
  next discovery =>
    split_ifs at hd with hcur
    · obtain rfl := Option.some.inj hd
      obtain ⟨hids, hsince⟩ := hrest hcur
      have hsame := Session.sameTrack_updateGames setup c.now c.shuttingDown s discovery
      exact tracked_of_inactive hshape rfl rfl (hsame.activeAppIds.trans hids)
        (hsame.activeSince hsince)
    · obtain rfl := Option.some.inj hd
      exact hfinish hcur
  next =>
    split_ifs at hd with hcur
    · obtain rfl := Option.some.inj hd
      obtain ⟨hids, hsince⟩ := hrest hcur
      exact tracked_of_inactive hshape rfl rfl hids hsince
    · obtain rfl := Option.some.inj hd
      exact hfinish hcur
  next => cases hd

theorem tracked_settleStarted {generation : ℕ} {resumed : Bool} (hT : Tracks c s)
    (hs : c.session = some s) (ht : c.tasks.lookup id = some (.started generation resumed)) :
    Tracked (c.settleStarted id resumed) := by
  unfold settleStarted
  simp only [hs]
  have hremember (s' : Session) (hsame : s.SameTrack s') :
      Tracked (((c.remember true).put s').finish id) := by
    have hput : Tracks ((c.remember true).put s') s' :=
      hT.idle hsame rfl rfl (fun _ _ hk _ => hk) fun _ _ hk => .inl hk
    exact tracked_some rfl (hput.finish ht rfl)
  split_ifs
  · exact hremember _ ⟨rfl, rfl, rfl, rfl, fun h => h⟩
  · exact hremember _ (.refl s)
  · exact tracked_some (show (c.finish id).session = some s from hs) (hT.finish ht rfl)

theorem tracked_settlePricing {appIds : List AppId} {outcome : Outcome} (hT : Tracks c s)
    (hs : c.session = some s) (ht : c.tasks.lookup id = some (.pricing appIds))
    (hd : c.settlePricing setup id outcome = some d) : Tracked d := by
  unfold settlePricing at hd
  simp only [hs] at hd
  split at hd
  next values =>
    obtain rfl := Option.some.inj hd
    have hput : Tracks (c.put (s.setPrices setup c.now values)) (s.setPrices setup c.now values) :=
      hT.idle ⟨rfl, rfl, rfl, rfl, fun h => h⟩ rfl rfl (fun _ _ hk _ => hk) fun _ _ hk => .inl hk
    exact tracked_some rfl (hput.await ht rfl rfl fun he => by cases he)
  next =>
    obtain rfl := Option.some.inj hd
    exact tracked_some (show (c.await id .priced).session = some s from hs)
      (hT.await ht rfl rfl fun he => by cases he)
  next => cases hd

theorem tracked_settlePriced (hT : Tracks c s) (hs : c.session = some s)
    (ht : c.tasks.lookup id = some .priced) : Tracked (c.settlePriced id) := by
  unfold settlePriced
  simp only [hs]
  have hput : Tracks (c.put { s with snapshot := { s.snapshot with pricing := false } })
      { s with snapshot := { s.snapshot with pricing := false } } :=
    hT.idle ⟨rfl, rfl, rfl, rfl, fun h => h⟩ rfl rfl (fun _ _ hk _ => hk) fun _ _ hk => .inl hk
  exact tracked_some rfl (hput.finish ht rfl)

theorem tracked_settle {outcome : Outcome} (h : Shaped c) (hT : Tracked c)
    (hd : c.settle setup id outcome = some d) : Tracked d := by
  unfold settle at hd
  split at hd
  next generation outcome ht =>
    obtain ⟨s, hs, hc⟩ := session_of_task h ht
    exact tracked_settleScan hc (hT s hs) hs ht hd
  next a point outcome ht =>
    obtain ⟨s, hs, hc⟩ := session_of_task h ht
    exact tracked_settleAdvance hc (hT s hs) hs ht hd
  next ht =>
    obtain ⟨s, hs, hc⟩ := session_of_task h ht
    obtain rfl := Option.some.inj hd
    exact tracked_settleStarted (hT s hs) hs ht
  next ht =>
    obtain ⟨s, hs, hc⟩ := session_of_task h ht
    obtain rfl := Option.some.inj hd
    exact tracked_some (show (c.finish id).session = some s from hs) ((hT s hs).finish ht rfl)
  next ht =>
    obtain ⟨s, hs, hc⟩ := session_of_task h ht
    split_ifs at hd
    obtain rfl := Option.some.inj hd
    exact tracked_some (show (c.finish id).session = some s from hs) ((hT s hs).finish ht rfl)
  next ht =>
    obtain ⟨s, hs, hc⟩ := session_of_task h ht
    exact tracked_settlePricing (hT s hs) hs ht hd
  next ht =>
    obtain ⟨s, hs, hc⟩ := session_of_task h ht
    obtain rfl := Option.some.inj hd
    exact tracked_settlePriced (hT s hs) hs ht
  next => cases hd

/-- A working `advance` asked its callback. -/
theorem tracked_perform_work {point : Point} {effect : Effect} {q : CallState → Point}
    (h : Shape c s) (hT : Tracks c s) (hs : c.session = some s)
    (ht : c.tasks.lookup id = some (.advance a point))
    (hp : ∀ g, (Task.advance a point).works g = (a.generation == g))
    (hn : ∀ call g, (Task.advance a (q call)).works g = (a.generation == g))
    (hends : ∀ call g, (Task.advance a (q call)).ends g = false)
    (htells : a.generation = s.generation →
      (Task.advance a (q .acted)).Tells (lastSelection (effect :: c.effects)))
    (hshows : (Task.advance a (q .acted)).hasApplied = true ∨
      (Task.advance a point).hasApplied = false ∧
        lastSelection (effect :: c.effects) = lastSelection c.effects) :
    Tracked (c.perform id a.generation effect fun call => .advance a (q call)) := by
  have hstays (g : ℕ) (p : Point) (hg : a.generation ≠ g) :
      (Task.advance a p).drives g = false := by
    cases hd : (Task.advance a p).drives g with
    | false => rfl
    | true => exact absurd (drives_advance hd) hg
  unfold perform
  split_ifs with hcur
  · obtain ⟨-, hg⟩ := (isCurrent_iff hs a.generation).mp hcur
    refine tracked_some (show Controller.session (((c.emit effect).await id _)) = some s from hs) ?_
    exact hT.drive h ht (Task.drives_of_works (by simp [hp, hg])) (.refl s) rfl rfl
      (by simp [hn, hg]) (htells hg) hshows
  · have hne : a.generation ≠ s.generation := by
      intro hg
      have hdr := hT.not_drives h hs ht hcur fun _ => hg
      simp [Task.drives_of_works (show (Task.advance a point).works s.generation = true by
        simp [hp, hg])] at hdr
    refine tracked_some (show Controller.session (c.await id _) = some s from hs) ?_
    refine hT.await ht (hstays _ _ hne) (hstays _ _ hne) fun he => ?_
    simp [hends] at he

/-- A cleanup asked its callback: while it is current the session is inactive. -/
theorem tracked_perform_end {generation : ℕ} {task : CallState → Task} (hT : Tracks c s)
    (hs : c.session = some s) (ht : c.tasks.lookup id = some t)
    (hd : Shaped (c.perform id generation .ended task))
    (hends : t.ends s.generation = (generation == s.generation))
    (hsame : ∀ call, (task call).ends s.generation = t.ends s.generation)
    (hdr : t.drives s.generation = false) (hdr' : ∀ call, (task call).drives s.generation = false) :
    Tracked (c.perform id generation .ended task) := by
  cases hcur : c.isCurrent generation with
  | true =>
    have hact : s.isActive = false := by
      refine hT.ends id t ht ?_
      simp [hends, ((isCurrent_iff hs generation).mp hcur).2]
    have hplays : s.snapshot.phase.plays = false := by
      by_contra hp
      have hact' : s.isActive = true := FarmingPhase.isActive_of_plays (by simpa using hp)
      simp [hact] at hact'
    have hsession : (c.perform id generation .ended task).session = some s := by
      simp only [perform, hcur, if_true]
      exact hs
    exact tracked_of_inactive hd hsession hact (hT.rests hplays).1 (hT.rests hplays).2
  | false =>
    simp only [perform, hcur]
    refine tracked_some (show Controller.session (c.await id _) = some s from hs) ?_
    refine hT.await ht hdr (hdr' _) fun he => ?_
    exact hT.ends id t ht (hsame _ ▸ he)

theorem tracked_act (h : Shaped c) (hT : Tracked c) (hd : c.act id = some d) : Tracked d := by
  have hshape : Shaped d := shaped_act h hd
  unfold act at hd
  split at hd
  next a gameLimit ht =>
    obtain ⟨s, hs, hc⟩ := session_of_task h ht
    obtain rfl := Option.some.inj hd
    exact tracked_perform_work (q := fun call => .begin call gameLimit) hc (hT s hs) hs ht
      (fun _ => rfl) (fun _ _ => rfl) (fun _ _ => rfl) (fun _ => trivial) (.inr ⟨rfl, rfl⟩)
  next a appIds warmingUp ht =>
    obtain ⟨s, hs, hc⟩ := session_of_task h ht
    obtain rfl := Option.some.inj hd
    refine tracked_perform_work (q := fun call => .apply call appIds warmingUp) hc (hT s hs) hs
      ht (fun _ => rfl) (fun _ _ => rfl) (fun _ _ => rfl) (fun hg => ?_) (.inl rfl)
    have hdr : (Task.advance a (.apply .pending appIds warmingUp)).drives s.generation = true := by
      simp [Task.drives, Task.works, hg]
    exact ⟨((hT s hs).tells id _ ht hdr).1, by simp, fun _ => rfl⟩
  next ht =>
    obtain ⟨s, hs, -⟩ := session_of_task h ht
    obtain rfl := Option.some.inj hd
    exact tracked_perform_end (hT s hs) hs ht hshape rfl (fun _ => rfl) rfl fun _ => rfl
  next ht =>
    obtain ⟨s, hs, -⟩ := session_of_task h ht
    obtain rfl := Option.some.inj hd
    exact tracked_perform_end (hT s hs) hs ht hshape rfl (fun _ => rfl) rfl fun _ => rfl
  next ht =>
    obtain ⟨s, hs, -⟩ := session_of_task h ht
    obtain rfl := Option.some.inj hd
    exact tracked_perform_end (hT s hs) hs ht hshape rfl (fun _ => rfl) rfl fun _ => rfl
  next ht =>
    obtain ⟨s, hs, -⟩ := session_of_task h ht
    obtain rfl := Option.some.inj hd
    exact tracked_perform_end (hT s hs) hs ht hshape rfl (fun _ => rfl) rfl fun _ => rfl
  next => cases hd

theorem tracked_fire {timer : TimerId} (h : Shaped c) (hT : Tracked c)
    (hd : c.fire timer = some d) : Tracked d := by
  unfold fire at hd
  split at hd
  next t s ht hs =>
    have hc := (shaped_some hs).mp h
    obtain ⟨htimer, hg, hact⟩ := hc.armed timer t ht
    dsimp only at hd
    split_ifs at hd with hdue hcur
    · obtain rfl := Option.some.inj hd
      refine tracked_some rfl ?_
      rw [hg]
      exact (hT s hs).rearm hc (by simp [htimer]) (.refl _) (by rfl) (by rfl) (by rfl)
    · -- an armed timer is current
      refine absurd ?_ hcur
      have hup := (hT s hs).up hact
      simp [isCurrent, put, hup, hg]
  next => cases hd

theorem Tracked.congr (h : Tracked c) (hs : d.session = c.session)
    (hup : d.shuttingDown = c.shuttingDown) (heffects : d.effects = c.effects)
    (htasks : d.tasks = c.tasks) : Tracked d := by
  intro s hd
  have hc : c.session = some s := hs ▸ hd
  exact (h s hc).idle (.refl s) hup (by rw [heffects]) (fun _ _ hk _ => by rwa [htasks])
    fun _ _ hk => .inl (htasks ▸ hk)

theorem tracked_next (h : Shaped c) (hT : Tracked c) {action : Action}
    (hd : (controllerMachine setup).next c action = some d) : Tracked d := by
  cases action with
  | snapshot => obtain rfl := Option.some.inj hd; exact tracked_touch h hT _
  | scan => obtain rfl := Option.some.inj hd; exact tracked_scan h hT _ _
  | start => obtain rfl := Option.some.inj hd; exact tracked_start h hT _ _ _
  | reconfigure => obtain rfl := Option.some.inj hd; exact tracked_reconfigure h hT _
  | halt => obtain rfl := Option.some.inj hd; exact tracked_halt h _ _
  | stop => obtain rfl := Option.some.inj hd; exact tracked_stop h
  | beginShutdown =>
    obtain rfl := Option.some.inj hd
    have hdown : Shaped { c with shuttingDown := true } := shaped_congr h rfl rfl rfl rfl
    exact tracked_halt hdown _ _
  | initializeAgain =>
    obtain rfl := Option.some.inj hd
    intro s hs
    exact ⟨fun _ => rfl, (hT s hs).rests, (hT s hs).plays, (hT s hs).waits, (hT s hs).driven,
      (hT s hs).tells, (hT s hs).shows, (hT s hs).ends⟩
  | fire => exact tracked_fire h hT hd
  | act => exact tracked_act h hT hd
  | settle => exact tracked_settle h hT hd
  | tick => obtain rfl := Option.some.inj hd; exact hT.congr rfl rfl rfl rfl

/-- Every reachable controller tracks its session. -/
theorem tracked_of_reachable (h : (controllerMachine setup).Reachable c) : Tracked c := by
  refine h.invariant_of (I := Tracked) ?_ ?_
  · rintro _ rfl s hs
    cases hs
  · intro c action d hr hc _ hn
    exact tracked_next (shaped_of_reachable hr) hc hn

def TimerArmed (c : Controller) : Prop := ∃ k timer, c.timers.lookup k = some timer

def Advancing (c : Controller) (generation : ℕ) : Prop :=
  ∃ k a point, c.tasks.lookup k = some (.advance a point) ∧ a.generation = generation

def Scanning (c : Controller) (generation : ℕ) : Prop :=
  ∃ k, c.tasks.lookup k = some (.scan generation)

/-- The phase of a session tells the truth about its worker. -/
structure Truthful (c : Controller) (s : Session) : Prop where
  playing : s.snapshot.phase = .warming ∨ s.snapshot.phase = .farming →
    Xor (TimerArmed c) (Advancing c s.generation)
  settled : s.snapshot.phase = .warming ∨ s.snapshot.phase = .farming →
    ¬ Advancing c s.generation → s.snapshot.activeAppIds ≠ [] ∧
      lastSelection c.effects = some s.snapshot.activeAppIds
  scanning : s.snapshot.phase = .scanning →
    Scanning c s.generation ∨ Advancing c s.generation
  resting : s.isActive = false →
    ¬ TimerArmed c ∧ s.snapshot.activeAppIds = [] ∧ s.activeSince = none

theorem FarmingPhase.plays_iff (phase : FarmingPhase) :
    phase.plays = true ↔ phase = .warming ∨ phase = .farming := by
  cases phase <;> simp [FarmingPhase.plays]

/-- Every `advance` of the generation of an active session drives it. -/
theorem Tracks.drives_of_advance {point : Point} (h : Tracks c s) (hc : Shape c s)
    (hact : s.isActive = true) (ht : c.tasks.lookup id = some (.advance a point))
    (hg : a.generation = s.generation) :
    (Task.advance a point).drives s.generation = true := by
  have hfit := (hc.fits id _ ht).bounded
  cases point with
  | availability | begin | discover | apply => simp [Task.drives, Task.works, hg]
  | endUnavailable | endFailed =>
    have hlt := hfit.1.trans_le hfit.2
    omega
  | endCompleted =>
    have hno := h.ends id _ ht (by simp [Task.ends, hg])
    simp [hno] at hact

/-- In every reachable state the phase tells the truth about the worker. -/
theorem phase_truthful (h : (controllerMachine setup).Reachable c) (hs : c.session = some s) :
    Truthful c s := by
  have hc : Shape c s := (shaped_some hs).mp (shaped_of_reachable h)
  have hT : Tracks c s := tracked_of_reachable h s hs
  have hplays := FarmingPhase.plays_iff s.snapshot.phase
  constructor
  case playing =>
    intro hp
    have hact : s.isActive = true := FarmingPhase.isActive_of_plays (hplays.mpr hp)
    by_cases htimer : s.timer = none
    · refine .inr ⟨?_, ?_⟩
      · obtain ⟨k, t, hk, -, hw⟩ := hT.driven hact htimer
        obtain ⟨a, point, rfl, hg⟩ := Task.advance_of_works (hw (hplays.mpr hp))
        exact ⟨k, a, point, hk, hg⟩
      · rintro ⟨k, timer, hk⟩
        simp [(hc.armed k timer hk).1] at htimer
    · refine .inl ⟨?_, ?_⟩
      · obtain ⟨k, hk⟩ := Option.ne_none_iff_exists'.mp htimer
        obtain ⟨timer, ht⟩ := hc.set k hk
        exact ⟨k, timer, ht⟩
      · rintro ⟨k, a, point, hk, hg⟩
        have hd := hT.drives_of_advance hc hact hk hg
        exact htimer ((hc.fits k _ hk).driver hd).2
  case settled =>
    intro hp hnone
    refine ⟨hT.plays (hplays.mpr hp), hT.shows (hplays.mpr hp) fun k t hk hd => ?_⟩
    cases happ : t.hasApplied with
    | false => rfl
    | true =>
      obtain ⟨a, point, rfl⟩ := Task.advance_of_hasApplied happ
      exact absurd ⟨k, a, point, hk, drives_advance hd⟩ hnone
  case scanning =>
    intro hp
    have hact : s.isActive = true := by simp [Session.isActive, hp, FarmingPhase.isActive]
    obtain ⟨k, t, hk, hd, -⟩ := hT.driven hact (hT.waits hp)
    cases t with
    | scan generation =>
      obtain rfl : generation = s.generation := by simpa [Task.drives] using hd
      exact .inl ⟨k, hk⟩
    | advance a point => exact .inr ⟨k, a, point, hk, drives_advance hd⟩
    | _ => cases hd
  case resting =>
    intro hact
    have hp : s.snapshot.phase.plays = false := by
      by_contra hp
      have hact' : s.isActive = true := FarmingPhase.isActive_of_plays (by simpa using hp)
      simp [hact] at hact'
    refine ⟨?_, hT.rests hp⟩
    rintro ⟨k, timer, hk⟩
    simp [hc.no_timer_of_inactive hact k] at hk

def farmOne : List Action :=
  [.start {} none false, .settle 0 (.availability ⟨true, none, 32⟩), .act 0, .settle 0 .done,
    .settle 0 (.discovery ⟨[⟨440, "game", 3, some 200, none, none, none⟩], false⟩), .act 0,
    .settle 0 .done]

def farmingRun : Controller :=
  ((controllerMachine plainSetup).exec .empty farmOne).getD .empty

theorem phase_truthful_farmingRun : ∃ s, farmingRun.session = some s ∧
    s.snapshot.phase = .farming ∧ s.snapshot.activeAppIds = [440] ∧ Truthful farmingRun s := by
  have hr : (controllerMachine plainSetup).Reachable farmingRun :=
    Transition.Machine.reachable_exec rfl (by decide)
  exact ⟨_, rfl, rfl, rfl, phase_truthful hr rfl⟩

end Controller
end SteamBee.Farming
