import SteamBee.Farming.Controller

/-! The shape of every reachable controller: generations only grow, at most one call
drives the current generation, and an armed timer is the timer of an active session. -/
namespace SteamBee.Farming

namespace Task

/-- An `advance` of this generation that has not selected games yet. -/
def works (generation : ℕ) : Task → Bool
  | .advance a .availability | .advance a (.begin _ _) | .advance a (.discover _)
  | .advance a (.apply _ _ _) => a.generation == generation
  | _ => false

def drives (generation : ℕ) : Task → Bool
  | .scan g => g == generation
  | t => t.works generation

def Bounded (generation : ℕ) : Task → Prop
  | .scan g | .started g _ | .stop g _ => g ≤ generation
  | .advance a (.endUnavailable _ g) | .advance a (.endFailed _ g) =>
    a.generation < g ∧ g ≤ generation
  | .advance a _ => a.generation ≤ generation
  | .pricing _ | .priced => True

theorem Bounded.mono {g g' : ℕ} {t : Task} (h : t.Bounded g) (hg : g ≤ g') : t.Bounded g' := by
  cases t with
  | scan => exact le_trans h hg
  | started => exact le_trans h hg
  | stop => exact le_trans h hg
  | pricing => trivial
  | priced => trivial
  | advance a point =>
    cases point with
    | endUnavailable => exact ⟨h.1, h.2.trans hg⟩
    | endFailed => exact ⟨h.1, h.2.trans hg⟩
    | availability => exact le_trans h hg
    | begin => exact le_trans h hg
    | discover => exact le_trans h hg
    | apply => exact le_trans h hg
    | endCompleted => exact le_trans h hg

theorem drives_of_works {g : ℕ} {t : Task} (h : t.works g = true) : t.drives g = true := by
  cases t with
  | scan => simp [works] at h
  | _ => exact h

/-- A task of an earlier generation does not drive a later one. -/
theorem Bounded.not_drives {g g' : ℕ} {t : Task} (h : t.Bounded g) (hg : g < g') :
    t.drives g' = false := by
  cases t with
  | scan k =>
    have hk : k ≤ g := h
    simp only [drives, beq_eq_false_iff_ne]
    omega
  | advance a point =>
    cases point with
    | availability | begin | discover | apply =>
      have ha : a.generation ≤ g := h
      simp only [drives, works, beq_eq_false_iff_ne]
      omega
    | endUnavailable | endCompleted | endFailed => rfl
  | started | stop | pricing | priced => rfl

end Task

structure Fits (s : Session) (t : Task) : Prop where
  bounded : t.Bounded s.generation
  driver : t.drives s.generation = true → s.isActive = true ∧ s.timer = none
  completed : ∀ a call, t = .advance a (.endCompleted call) → a.generation = s.generation →
    s.applied = true

theorem Fits.of_later {s s' : Session} {t : Task} (h : Fits s t)
    (hg : s.generation < s'.generation) : Fits s' t where
  bounded := h.bounded.mono hg.le
  driver hd := by simp [h.bounded.not_drives hg] at hd
  completed a call ht hag := by
    subst ht
    have hb : a.generation ≤ s.generation := h.bounded
    omega

/-- A task that does not drive the session does not mind what the driver does. -/
theorem Fits.of_same {s s' : Session} {t : Task} (h : Fits s t)
    (hg : s'.generation = s.generation) (happ : s.applied = true → s'.applied = true)
    (hd : t.drives s.generation = false) : Fits s' t where
  bounded := hg ▸ h.bounded
  driver hd' := by simp [hg, hd] at hd'
  completed a call ht hag := happ (h.completed a call ht (hag.trans hg))

theorem Fits.of_sameControl {s s' : Session} {t : Task} (h : Fits s t) (hs : s.SameControl s') :
    Fits s' t where
  bounded := hs.generation ▸ h.bounded
  driver hd := by
    rw [hs.isActive, hs.timer]
    exact h.driver (hs.generation ▸ hd)
  completed a call ht hag := hs.applied ▸ h.completed a call ht (hag.trans hs.generation)

theorem fits_pricing (s : Session) (appIds : List AppId) : Fits s (.pricing appIds) :=
  ⟨trivial, fun h => by simp [Task.drives, Task.works] at h, fun _ _ h => by cases h⟩

theorem fits_priced (s : Session) : Fits s .priced :=
  ⟨trivial, fun h => by simp [Task.drives, Task.works] at h, fun _ _ h => by cases h⟩

theorem fits_started {s : Session} {generation : ℕ} (resumed : Bool)
    (h : generation ≤ s.generation) : Fits s (.started generation resumed) :=
  ⟨h, fun h => by simp [Task.drives, Task.works] at h, fun _ _ h => by cases h⟩

theorem fits_stop {s : Session} {generation : ℕ} (call : CallState)
    (h : generation ≤ s.generation) : Fits s (.stop generation call) :=
  ⟨h, fun h => by simp [Task.drives, Task.works] at h, fun _ _ h => by cases h⟩

theorem fits_endFailed {s : Session} {a : Advance} {g : ℕ} (call : CallState)
    (ha : a.generation < g) (hg : g ≤ s.generation) : Fits s (.advance a (.endFailed call g)) :=
  ⟨⟨ha, hg⟩, fun h => by simp [Task.drives, Task.works] at h, fun _ _ h => by cases h⟩

theorem fits_endUnavailable {s : Session} {a : Advance} {g : ℕ} (call : CallState)
    (ha : a.generation < g) (hg : g ≤ s.generation) :
    Fits s (.advance a (.endUnavailable call g)) :=
  ⟨⟨ha, hg⟩, fun h => by simp [Task.drives, Task.works] at h, fun _ _ h => by cases h⟩

theorem fits_endCompleted {s : Session} {a : Advance} (call : CallState)
    (ha : a.generation ≤ s.generation) (happ : s.applied = true) :
    Fits s (.advance a (.endCompleted call)) :=
  ⟨ha, fun h => by simp [Task.drives, Task.works] at h, fun _ _ _ _ => happ⟩

structure Shape (c : Controller) (s : Session) : Prop where
  taskFresh : ∀ k t, c.tasks.lookup k = some t → k < c.drawn
  timerFresh : ∀ k t, c.timers.lookup k = some t → k < c.drawn
  fits : ∀ k t, c.tasks.lookup k = some t → Fits s t
  one : ∀ k k' t t', c.tasks.lookup k = some t → c.tasks.lookup k' = some t' →
    t.drives s.generation = true → t'.drives s.generation = true → k = k'
  armed : ∀ k t, c.timers.lookup k = some t →
    s.timer = some k ∧ t.generation = s.generation ∧ s.isActive = true
  set : ∀ k, s.timer = some k → ∃ t, c.timers.lookup k = some t

def Shaped (c : Controller) : Prop :=
  match c.session with
  | none => (∀ k, c.tasks.lookup k = none) ∧ ∀ k, c.timers.lookup k = none
  | some s => Shape c s

theorem shaped_some {c : Controller} {s : Session} (h : c.session = some s) :
    Shaped c ↔ Shape c s := by rw [Shaped, h]

/-- While a call drives the session no timer is armed. -/
theorem Shape.no_timer {c : Controller} {s : Session} (h : Shape c s) {k : TaskId} {t : Task}
    (hk : c.tasks.lookup k = some t) (hd : t.drives s.generation = true) (tid : TimerId) :
    c.timers.lookup tid = none := by
  cases ht : c.timers.lookup tid with
  | none => rfl
  | some tm =>
    have hnone := ((h.fits k t hk).driver hd).2
    simp [(h.armed tid tm ht).1] at hnone

/-- While a timer is set, or the session is inactive, no call drives the session. -/
theorem Shape.not_drives {c : Controller} {s : Session} (h : Shape c s)
    (hs : s.timer ≠ none ∨ s.isActive = false) {k : TaskId} {t : Task}
    (hk : c.tasks.lookup k = some t) : t.drives s.generation = false := by
  by_contra hd
  have hd := (h.fits k t hk).driver (by simpa using hd)
  rcases hs with hs | hs
  · exact hs hd.2
  · simp [hs] at hd

theorem Shape.no_timer_of_inactive {c : Controller} {s : Session} (h : Shape c s)
    (hs : s.isActive = false) (tid : TimerId) : c.timers.lookup tid = none := by
  cases ht : c.timers.lookup tid with
  | none => rfl
  | some tm => exact absurd (h.armed tid tm ht).2.2 (by simp [hs])

theorem Shape.timer_of_inactive {c : Controller} {s : Session} (h : Shape c s)
    (hs : s.isActive = false) : s.timer = none := by
  cases ht : s.timer with
  | none => rfl
  | some k =>
    obtain ⟨t, hk⟩ := h.set k ht
    simp [h.no_timer_of_inactive hs k] at hk

/-- Steps that leave the session's control and the timers alone. -/
theorem Shape.idle {c c' : Controller} {s s' : Session} (h : Shape c s) (hs : s.SameControl s')
    (hdrawn : c.drawn ≤ c'.drawn) (htimers : c'.timers = c.timers)
    (htasks : ∀ k t, c'.tasks.lookup k = some t → c.tasks.lookup k = some t ∨
      (k < c'.drawn ∧ Fits s t ∧ t.drives s.generation = false)) : Shape c' s' := by
  refine ⟨fun k t hk => ?_, fun k t hk => ?_, fun k t hk => ?_, fun k k' t t' hk hk' hd hd' => ?_,
    fun k t hk => ?_, fun k hk => ?_⟩
  · rcases htasks k t hk with hk | ⟨hlt, -, -⟩
    · exact (h.taskFresh k t hk).trans_le hdrawn
    · exact hlt
  · exact (h.timerFresh k t (htimers ▸ hk)).trans_le hdrawn
  · rcases htasks k t hk with hk | ⟨-, hf, -⟩
    · exact (h.fits k t hk).of_sameControl hs
    · exact hf.of_sameControl hs
  · rw [hs.generation] at hd hd'
    rcases htasks k t hk with hk | ⟨-, -, hn⟩
    · rcases htasks k' t' hk' with hk' | ⟨-, -, hn⟩
      · exact h.one k k' t t' hk hk' hd hd'
      · simp [hn] at hd'
    · simp [hn] at hd
  · rw [hs.timer, hs.generation, hs.isActive]
    exact h.armed k t (htimers ▸ hk)
  · rw [htimers]
    exact h.set k (hs.timer ▸ hk)

/-- Steps that advance the generation; `id` is the one task that is new. -/
theorem Shape.bump {c c' : Controller} {s s' : Session} (h : Shape c s) (id : TaskId)
    (hg : s.generation < s'.generation) (hset : s'.timer = none) (hdrawn : c.drawn ≤ c'.drawn)
    (htimers : ∀ k, c'.timers.lookup k = none)
    (htasks : ∀ k t, c'.tasks.lookup k = some t → c.tasks.lookup k = some t ∨
      (k = id ∧ k < c'.drawn ∧ Fits s' t)) : Shape c' s' := by
  refine ⟨fun k t hk => ?_, fun k t hk => by simp [htimers] at hk, fun k t hk => ?_,
    fun k k' t t' hk hk' hd hd' => ?_, fun k t hk => by simp [htimers] at hk,
    fun k hk => by simp [hset] at hk⟩
  · rcases htasks k t hk with hk | ⟨-, hlt, -⟩
    · exact (h.taskFresh k t hk).trans_le hdrawn
    · exact hlt
  · rcases htasks k t hk with hk | ⟨-, -, hf⟩
    · exact (h.fits k t hk).of_later hg
    · exact hf
  · rcases htasks k t hk with hk | ⟨rfl, -, -⟩
    · simp [(h.fits k t hk).bounded.not_drives hg] at hd
    · rcases htasks k' t' hk' with hk' | ⟨rfl, -, -⟩
      · simp [(h.fits k' t' hk').bounded.not_drives hg] at hd'
      · rfl

/-- Steps of the one call that may drive the current generation. -/
theorem Shape.drive {c c' : Controller} {s s' : Session} (h : Shape c s) (id : TaskId)
    (hothers : ∀ k t, c.tasks.lookup k = some t → k ≠ id → t.drives s.generation = false)
    (hg : s'.generation = s.generation) (happ : s.applied = true → s'.applied = true)
    (hdrawn : c.drawn ≤ c'.drawn)
    (htimers : ∀ k t, c'.timers.lookup k = some t → k < c'.drawn ∧ s'.timer = some k ∧
      t.generation = s'.generation ∧ s'.isActive = true)
    (hset : ∀ k, s'.timer = some k → ∃ t, c'.timers.lookup k = some t)
    (htasks : ∀ k t, c'.tasks.lookup k = some t → (k ≠ id ∧ c.tasks.lookup k = some t) ∨
      (k = id ∧ k < c'.drawn ∧ Fits s' t)) : Shape c' s' := by
  refine ⟨fun k t hk => ?_, fun k t hk => (htimers k t hk).1, fun k t hk => ?_,
    fun k k' t t' hk hk' hd hd' => ?_, fun k t hk => (htimers k t hk).2, hset⟩
  · rcases htasks k t hk with ⟨-, hk⟩ | ⟨-, hlt, -⟩
    · exact (h.taskFresh k t hk).trans_le hdrawn
    · exact hlt
  · rcases htasks k t hk with ⟨hne, hk⟩ | ⟨-, -, hf⟩
    · exact (h.fits k t hk).of_same hg happ (hothers k t hk hne)
    · exact hf
  · rw [hg] at hd hd'
    rcases htasks k t hk with ⟨hne, hk⟩ | ⟨rfl, -, -⟩
    · simp [hothers k t hk hne] at hd
    · rcases htasks k' t' hk' with ⟨hne, hk'⟩ | ⟨rfl, -, -⟩
      · simp [hothers k' t' hk' hne] at hd'
      · rfl

namespace Controller
variable {setup : Setup} {c : Controller} {s : Session} {id : TaskId} {a : Advance}

@[simp] theorem returns_session : (c.returns id a).session = c.session := by
  unfold returns; cases a.caller <;> rfl

@[simp] theorem returns_timers : (c.returns id a).timers = c.timers := by
  unfold returns; cases a.caller <;> rfl

@[simp] theorem returns_drawn : (c.returns id a).drawn = c.drawn := by
  unfold returns; cases a.caller <;> rfl

@[simp] theorem returns_effects : (c.returns id a).effects = c.effects := by
  unfold returns; cases a.caller <;> rfl

@[simp] theorem returns_marker : (c.returns id a).marker = c.marker := by
  unfold returns; cases a.caller <;> rfl

@[simp] theorem returns_cause : (c.returns id a).cause = c.cause := by
  unfold returns; cases a.caller <;> rfl

@[simp] theorem returns_shuttingDown : (c.returns id a).shuttingDown = c.shuttingDown := by
  unfold returns; cases a.caller <;> rfl

theorem lookup_returns (k : TaskId) : (c.returns id a).tasks.lookup k =
    if k = id then a.caller.map (Task.started a.generation) else c.tasks.lookup k := by
  unfold returns
  cases a.caller with
  | none => simp [finish, Table.lookup_erase_eq]
  | some resumed => simp [await, Table.lookup_insert_eq]

theorem lookup_await (k : TaskId) (task : Task) : (c.await id task).tasks.lookup k =
    if k = id then some task else c.tasks.lookup k := Table.lookup_insert_eq _ _ _ _

theorem lookup_finish (k : TaskId) : (c.finish id).tasks.lookup k =
    if k = id then none else c.tasks.lookup k := Table.lookup_erase_eq _ _ _

theorem lookup_spawn (k : TaskId) (task : Task) : (c.spawn task).tasks.lookup k =
    if k = c.drawn then some task else c.tasks.lookup k := Table.lookup_insert_eq _ _ _ _

/-- `d` differs from `c` in its session and in more price lookups. -/
structure Backs (c d : Controller) : Prop where
  now : d.now = c.now
  shuttingDown : d.shuttingDown = c.shuttingDown
  timers : d.timers = c.timers
  marker : d.marker = c.marker
  effects : d.effects = c.effects
  cause : d.cause = c.cause
  drawn : c.drawn ≤ d.drawn
  tasks : ∀ k t, d.tasks.lookup k = some t → c.tasks.lookup k = some t ∨
    (c.drawn ≤ k ∧ k < d.drawn ∧ ∃ appIds, t = .pricing appIds)
  kept : ∀ k t, c.tasks.lookup k = some t → k < c.drawn → d.tasks.lookup k = some t

theorem backs_put (c : Controller) (s : Session) : c.Backs (c.put s) :=
  ⟨rfl, rfl, rfl, rfl, rfl, rfl, le_rfl, fun _ _ h => .inl h, fun _ _ h _ => h⟩

theorem backs_putFiltered (c : Controller) (f : Session × Option (List AppId)) :
    c.Backs (c.putFiltered f) := by
  unfold putFiltered
  split
  next => exact backs_put c _
  next appIds _ =>
    refine ⟨rfl, rfl, rfl, rfl, rfl, rfl, Nat.le_succ _, fun k t hk => ?_, fun k t hk hlt => ?_⟩
    · rw [lookup_spawn] at hk
      split_ifs at hk with hkd
      · obtain rfl := Option.some.inj hk
        exact .inr ⟨hkd.ge, hkd ▸ Nat.lt_succ_self _, _, rfl⟩
      · exact .inl hk
    · rw [lookup_spawn, if_neg]
      · exact hk
      · exact hlt.ne

@[simp] theorem putFiltered_session (c : Controller) (f : Session × Option (List AppId)) :
    (c.putFiltered f).session = some f.1 := by
  unfold putFiltered
  split <;> rfl

/-- More price lookups and another view of the games keep the shape. -/
theorem Backs.shape {d : Controller} {s' : Session} (hb : c.Backs d) (h : Shape c s)
    (hs : s.SameControl s') : Shape d s' := by
  refine h.idle hs hb.drawn hb.timers fun k t hk => ?_
  rcases hb.tasks k t hk with hk | ⟨-, hlt, appIds, rfl⟩
  · exact .inl hk
  · exact .inr ⟨hlt, fits_pricing s appIds, rfl⟩

theorem shape_putFiltered (h : Shape c s) {f : Session × Option (List AppId)}
    (hs : s.SameControl f.1) : Shape (c.putFiltered f) f.1 :=
  (backs_putFiltered c f).shape h hs

/-- A snapshot of a session keeps its control. -/
theorem touch_backs (hs : c.session = some s) (config : Option FarmingConfig) :
    ∃ s', (c.touch setup config).session = some s' ∧ c.Backs (c.touch setup config) ∧
      s.SameControl s' := by
  have hself : c.Backs c := by simpa [put, ← hs] using backs_put c s
  cases config with
  | none => exact ⟨s, by simp [touch, hs], by simpa [touch, hs] using hself, .refl s⟩
  | some config =>
    by_cases hact : s.isActive = true
    · exact ⟨s, by simp [touch, hs, hact], by simpa [touch, hs, hact] using hself, .refl s⟩
    · have hf := Session.sameControl_filterGames setup c.now c.shuttingDown
        { s with snapshot := { s.snapshot with config } }
      simp only [touch, hs, hact, Bool.false_eq_true, if_false]
      exact ⟨_, putFiltered_session c _, backs_putFiltered c _,
        ⟨hf.generation, hf.timer, hf.applied, hf.phase, hf.activeAppIds⟩⟩

theorem shaped_touch (h : Shaped c) (config : Option FarmingConfig) :
    Shaped (c.touch setup config) := by
  unfold Controller.touch
  split
  next hnone =>
    rw [Shaped, hnone] at h
    refine (shaped_some rfl).mpr ⟨?_, ?_, ?_, ?_, ?_, ?_⟩ <;> simp [put, h.1, h.2, Session.new]
  next s config hs =>
    have hc := (shaped_some hs).mp h
    split_ifs
    · exact h
    · refine (shaped_some (putFiltered_session c _)).mpr (shape_putFiltered hc ?_)
      have hf := Session.sameControl_filterGames setup c.now c.shuttingDown
      exact ⟨(hf _).generation, (hf _).timer, (hf _).applied, (hf _).phase, (hf _).activeAppIds⟩
  next => exact h

theorem lookup_clearTimer (h : Shape c s) (k : TimerId) :
    (c.clearTimer s.timer).timers.lookup k = none := by
  cases hk : c.timers.lookup k with
  | none =>
    unfold clearTimer
    split
    next => exact hk
    next => simp only [Table.lookup_erase_eq, hk, ite_self]
  | some t =>
    simp only [(h.armed k t hk).1, clearTimer, Table.lookup_erase_eq, if_true]

theorem clearTimer_eq (c : Controller) (timer : Option TimerId) :
    ∃ timers, c.clearTimer timer = { c with timers } := by
  unfold clearTimer
  split
  · exact ⟨_, rfl⟩
  · exact ⟨_, rfl⟩

structure Halts (reason : String) (cause : Cause) (c : Controller) (s : Session)
    (d : Controller) : Prop where
  session : d.session = some (s.halt reason)
  tasks : d.tasks = c.tasks
  drawn : d.drawn = c.drawn
  shuttingDown : d.shuttingDown = c.shuttingDown
  cause : d.cause = some cause
  remembered : d.effects = c.effects ∧ d.marker = c.marker ∧ reason ∈ resumableHalts ∨
    d.effects = .remembered false :: c.effects ∧ d.marker = false ∧ reason ∉ resumableHalts

theorem halts_halt (hs : c.session = some s) (reason : String) (cause : Cause) :
    Halts reason cause c s (c.halt reason cause) := by
  obtain ⟨timers, ht⟩ := clearTimer_eq c s.timer
  simp only [halt, hs, ht]
  split_ifs with hr
  · exact ⟨rfl, rfl, rfl, rfl, rfl, .inl ⟨rfl, rfl, hr⟩⟩
  · exact ⟨rfl, rfl, rfl, rfl, rfl, .inr ⟨rfl, rfl, hr⟩⟩

theorem halt_timers (hs : c.session = some s) (reason : String) (cause : Cause) :
    (c.halt reason cause).timers = (c.clearTimer s.timer).timers := by
  simp only [halt, hs]
  split_ifs <;> rfl

theorem shape_halt (h : Shape c s) (hs : c.session = some s) (reason : String) (cause : Cause) :
    Shape (c.halt reason cause) (s.halt reason) := by
  have hh := halts_halt hs reason cause
  refine h.bump 0 (Nat.lt_succ_self _) rfl hh.drawn.ge (fun k => ?_) fun k t hk => ?_
  · rw [halt_timers hs]
    exact lookup_clearTimer h k
  · exact .inl (hh.tasks ▸ hk)

theorem shaped_halt (h : Shaped c) (reason : String) (cause : Cause) :
    Shaped (c.halt reason cause) := by
  cases hs : c.session with
  | none =>
    simp only [Controller.halt, hs]
    exact h
  | some s =>
    exact (shaped_some (halts_halt hs reason cause).session).mpr
      (shape_halt ((shaped_some hs).mp h) hs reason cause)

/-- A call that opens a new generation of an inactive session. -/
theorem shape_open {d : Controller} {s' : Session} {task : Task} (h : Shape c s)
    (hs : s.isActive = false) (hg : s'.generation = s.generation + 1) (ht : s'.timer = s.timer)
    (hfit : s'.timer = none → Fits s' task) (hdrawn : d.drawn = c.drawn)
    (htimers : d.timers = c.timers) (htasks : d.tasks = c.tasks) : Shape (d.spawn task) s' := by
  have hnone : s'.timer = none := ht.trans (h.timer_of_inactive hs)
  refine h.bump c.drawn (by omega) hnone (by simp [spawn, hdrawn]) (fun k => ?_) fun k t hk => ?_
  · simp only [spawn, htimers]
    exact h.no_timer_of_inactive hs k
  · rw [lookup_spawn, hdrawn] at hk
    split_ifs at hk with hkd
    · obtain rfl := Option.some.inj hk
      exact .inr ⟨hkd, by simp [spawn, hdrawn, hkd], hfit hnone⟩
    · exact .inl (htasks ▸ hk)

theorem shaped_scan (h : Shaped c) (config : FarmingConfig) (expected : Option ℕ) :
    Shaped (c.scan setup config expected).2 := by
  unfold Controller.scan
  split_ifs
  · exact h
  · have ht : Shaped (c.touch setup (some config)) := shaped_touch h _
    dsimp only
    split
    next => exact ht
    next s hs =>
      split_ifs with hstay
      · exact ht
      · simp only [Bool.or_eq_true, not_or, Bool.not_eq_true] at hstay
        exact (shaped_some rfl).mpr <| shape_open ((shaped_some hs).mp ht) hstay.2 (by rfl)
          (by rfl) (fun hnone => ⟨le_rfl, fun _ => ⟨rfl, hnone⟩, fun _ _ he => by cases he⟩)
          (by rfl) (by rfl) (by rfl)

theorem shaped_start (h : Shaped c) (config : FarmingConfig) (expected : Option ℕ)
    (resumed : Bool) : Shaped (c.start setup config expected resumed).2 := by
  unfold Controller.start
  split_ifs
  · exact h
  · have ht : Shaped (c.touch setup (some config)) := shaped_touch h _
    dsimp only
    split
    next => exact ht
    next s hs =>
      split_ifs with hexp hact
      · exact ht
      · exact ht
      · exact (shaped_some rfl).mpr <| shape_open ((shaped_some hs).mp ht) (by simpa using hact)
          (by rfl) (by rfl)
          (fun hnone => ⟨le_rfl, fun _ => ⟨rfl, hnone⟩, fun _ _ he => by cases he⟩)
          (by rfl) (by rfl) (by rfl)

theorem shape_reselect (h : Shape c s) (hact : s.isActive = true) :
    ∃ s', (c.reselect setup s).session = some s' ∧ Shape (c.reselect setup s) s' := by
  have hsame := Session.sameControl_filterGames setup c.now c.shuttingDown s
  have hf := shape_putFiltered h hsame
  unfold reselect
  dsimp only
  split
  next => exact ⟨_, putFiltered_session _ _, hf⟩
  next timer htimer =>
    -- the cleared timer makes room for the `advance` that replaces it
    refine ⟨_, rfl, hf.drive (c.putFiltered (s.filterGames setup c.now c.shuttingDown)).drawn
      (fun k t hk _ => ?_) (by rfl) (fun happ => happ) (Nat.le_succ _) (fun k t hk => ?_)
      (fun k hk => by cases hk) fun k t hk => ?_⟩
    · exact hf.not_drives (.inl (by rw [hsame.timer, htimer]; simp)) hk
    · simp only [spawn, put, Table.lookup_erase_eq] at hk
      split_ifs at hk with hkt
      have harm := (hf.armed k t hk).1
      rw [hsame.timer, htimer] at harm
      exact absurd (Option.some.inj harm).symm hkt
    · rw [lookup_spawn] at hk
      split_ifs at hk with hkd
      · obtain rfl := Option.some.inj hk
        refine .inr ⟨hkd, hkd ▸ Nat.lt_succ_self _, hsame.generation.ge, fun _ => ⟨?_, rfl⟩,
          fun _ _ he => by cases he⟩
        exact hsame.isActive.trans hact
      · exact .inl ⟨hkd, hk⟩

theorem shaped_reconfigure (h : Shaped c) (config : FarmingConfig) :
    Shaped (c.reconfigure setup config) := by
  unfold Controller.reconfigure
  have ht : Shaped (c.touch setup (some config)) := shaped_touch h _
  dsimp only
  split
  next => exact ht
  next s hs =>
    split_ifs with hact
    · exact ht
    · have hact : s.isActive = true := by simpa using hact
      have hc : Shape (c.touch setup (some config))
          { s with snapshot := { s.snapshot with config } } :=
        ((shaped_some hs).mp ht).idle ⟨rfl, rfl, rfl, rfl, rfl⟩ le_rfl rfl fun _ _ hk => .inl hk
      obtain ⟨s', hs', hshape⟩ := shape_reselect hc hact
      exact (shaped_some hs').mpr hshape

theorem shaped_stop (h : Shaped c) : Shaped (c.stop setup).2 := by
  have ht : Shaped (c.touch setup none) := shaped_touch h none
  have hh : Shaped ((c.touch setup none).halt "stopped" .stop) := shaped_halt ht _ _
  unfold stop
  dsimp only
  split
  next => exact hh
  next s hs =>
    have hc := (shaped_some hs).mp hh
    have hs' : (((c.touch setup none).halt "stopped" .stop).spawn
      (.stop s.generation .pending)).session = some s := hs
    refine (shaped_some hs').mpr (hc.idle (.refl s) (Nat.le_succ _) rfl fun k t hk => ?_)
    rw [lookup_spawn] at hk
    split_ifs at hk with hkd
    · obtain rfl := Option.some.inj hk
      exact .inr ⟨hkd ▸ Nat.lt_succ_self _, fits_stop _ le_rfl, rfl⟩
    · exact .inl hk

/-- The call under `id` goes on as `task`, which does not drive the session. -/
theorem shape_await (h : Shape c s) (hid : id < c.drawn) {task : Task} (hf : Fits s task)
    (hd : task.drives s.generation = false) : Shape (c.await id task) s := by
  refine h.idle (.refl s) le_rfl rfl fun k t hk => ?_
  rw [lookup_await] at hk
  split_ifs at hk with hkd
  · obtain rfl := Option.some.inj hk
    exact .inr ⟨hkd ▸ hid, hf, hd⟩
  · exact .inl hk

theorem shape_finish (h : Shape c s) (id : TaskId) : Shape (c.finish id) s := by
  refine h.idle (.refl s) le_rfl rfl fun k t hk => ?_
  rw [lookup_finish] at hk
  split_ifs at hk
  exact .inl hk

theorem shape_returns (h : Shape c s) (hid : id < c.drawn) (ha : a.generation ≤ s.generation) :
    Shape (c.returns id a) s := by
  unfold returns
  split
  · exact shape_finish h id
  · exact shape_await h hid (fits_started _ ha) rfl

/-- The driver of the session goes on as `task`, which may drive it still. -/
theorem shape_drive_await {d : Controller} {s' : Session} {t task : Task} (h : Shape c s)
    (hid : c.tasks.lookup id = some t) (hd : t.drives s.generation = true)
    (hg : s'.generation = s.generation) (happ : s.applied = true → s'.applied = true)
    (htimer : s'.timer = s.timer) (hdrawn : d.drawn = c.drawn) (htimers : d.timers = c.timers)
    (htasks : d.tasks = c.tasks) (hf : Fits s' task) : Shape (d.await id task) s' := by
  have hnone := ((h.fits id t hid).driver hd).2
  refine h.drive id (fun k t' hk hne => ?_) hg happ hdrawn.ge (fun k t' hk => ?_)
    (fun k hk => by simp [htimer, hnone] at hk) fun k t' hk => ?_
  · by_contra hd'
    exact hne (h.one k id t' t hk hid (by simpa using hd') hd)
  · simp only [await, htimers, h.no_timer hid hd k] at hk
    cases hk
  · rw [lookup_await] at hk
    split_ifs at hk with hkd
    · obtain rfl := Option.some.inj hk
      have hlt : id < d.drawn := hdrawn ▸ h.taskFresh id t hid
      exact .inr ⟨hkd, hkd ▸ hlt, hf⟩
    · exact .inl ⟨hkd, htasks ▸ hk⟩

/-- The driver of the session returns and leaves it inactive or with a timer. -/
theorem shape_drive_returns {d : Controller} {s' : Session} {t : Task} (h : Shape c s)
    (hid : c.tasks.lookup id = some t) (hd : t.drives s.generation = true)
    (ha : a.generation ≤ s.generation) (hg : s'.generation = s.generation)
    (happ : s.applied = true → s'.applied = true) (hdrawn : c.drawn ≤ d.drawn)
    (htimers : ∀ k t, d.timers.lookup k = some t → k < d.drawn ∧ s'.timer = some k ∧
      t.generation = s'.generation ∧ s'.isActive = true)
    (hset : ∀ k, s'.timer = some k → ∃ t, d.timers.lookup k = some t)
    (htasks : d.tasks = c.tasks) : Shape (d.returns id a) s' := by
  refine h.drive id (fun k t' hk hne => ?_) hg happ (by simpa using hdrawn)
    (fun k t' hk => by simpa using htimers k t' (by simpa using hk))
    (fun k hk => by simpa using hset k hk) fun k t' hk => ?_
  · by_contra hd'
    exact hne (h.one k id t' t hk hid (by simpa using hd') hd)
  · rw [lookup_returns] at hk
    split_ifs at hk with hkd
    · obtain ⟨resumed, -, rfl⟩ := Option.map_eq_some_iff.mp hk
      refine .inr ⟨hkd, ?_, fits_started resumed (hg ▸ ha)⟩
      rw [returns_drawn, hkd]
      exact (h.taskFresh id t hid).trans_le hdrawn
    · exact .inl ⟨hkd, htasks ▸ hk⟩

theorem shaped_whenCurrent (h : Shape c s) (hs : c.session = some s) (hid : id < c.drawn)
    (ha : a.generation ≤ s.generation) {k : Session → Controller}
    (hk : a.generation = s.generation → c.shuttingDown = false → Shaped (k s)) :
    Shaped (c.whenCurrent id a k) := by
  simp only [whenCurrent, hs]
  split_ifs with hcur
  · simp only [isCurrent, hs, Option.any_some, Bool.and_eq_true, Bool.not_eq_true',
      beq_iff_eq] at hcur
    exact hk hcur.2.symm hcur.1
  · exact (shaped_some (by simpa using hs)).mpr (shape_returns h hid ha)

/-- After a halt of the driver's own: clean up what was applied, or return. -/
theorem shaped_cleanup (h : Shape c s) (hs : c.session = some s) (hid : id < c.drawn)
    (ha : a.generation < s.generation) {b : Bool} {task : Task} (hf : Fits s task)
    (hd : task.drives s.generation = false) :
    Shaped (if b = true then c.await id task else c.returns id a) := by
  split_ifs
  · exact (shaped_some (by exact hs)).mpr (shape_await h hid hf hd)
  · exact (shaped_some (by simpa using hs)).mpr (shape_returns h hid ha.le)

theorem shaped_fail (h : Shape c s) (hs : c.session = some s) (hid : id < c.drawn)
    (ha : a.generation ≤ s.generation) : Shaped (c.fail id a) := by
  unfold fail
  refine shaped_whenCurrent h hs hid ha fun hcur _ => ?_
  have hh := halts_halt hs "farming_failed" .failure
  have hshape : Shape ((c.halt "farming_failed" .failure).put
      { s.halt "farming_failed" with
        snapshot := { (s.halt "farming_failed").snapshot with phase := .error } })
      { s.halt "farming_failed" with
        snapshot := { (s.halt "farming_failed").snapshot with phase := .error } } := by
    refine h.bump 0 (Nat.lt_succ_self _) rfl hh.drawn.ge (fun k => ?_) fun k t hk => ?_
    · simp only [put, halt_timers hs]
      exact lookup_clearTimer h k
    · exact .inl (hh.tasks ▸ hk)
  refine shaped_cleanup hshape rfl ?_ ?_ (fits_endFailed _ ?_ le_rfl) rfl
  · simpa only [put, hh.drawn] using hid
  · show a.generation < s.generation + 1
    omega
  · show a.generation < s.generation + 1
    omega

/-- A driver that awaits what follows the availability or the games. -/
theorem fits_works {s : Session} {a : Advance} {point : Point}
    (hp : (Task.advance a point).Bounded s.generation) (hact : s.isActive = true)
    (htimer : s.timer = none) (hne : ∀ call, point ≠ .endCompleted call) :
    Fits s (.advance a point) :=
  ⟨hp, fun _ => ⟨hact, htimer⟩, fun _ call he => absurd (Task.advance.inj he).2 (hne call)⟩

structure Working (c : Controller) (s : Session) (id : TaskId) (a : Advance) : Prop where
  session : c.session = some s
  shape : Shape c s
  current : a.generation = s.generation
  task : ∃ t, c.tasks.lookup id = some t ∧ t.drives s.generation = true

theorem Working.active (h : Working c s id a) : s.isActive = true ∧ s.timer = none := by
  obtain ⟨t, ht, hd⟩ := h.task
  exact (h.shape.fits id t ht).driver hd

theorem Working.lt_drawn (h : Working c s id a) : id < c.drawn := by
  obtain ⟨t, ht, -⟩ := h.task
  exact h.shape.taskFresh id t ht

/-- Other views of the games do not change who works. -/
theorem Working.backs {d : Controller} {s' : Session} (h : Working c s id a) (hb : c.Backs d)
    (hs : s.SameControl s') (hd : d.session = some s') : Working d s' id a where
  session := hd
  shape := hb.shape h.shape hs
  current := h.current.trans hs.generation.symm
  task := by
    obtain ⟨t, ht, hdr⟩ := h.task
    exact ⟨t, hb.kept id t ht h.lt_drawn, hs.generation ▸ hdr⟩

theorem shaped_arm (h : Working c s id a) (appIds : List AppId) (warmingUp : Bool) :
    Shaped (c.arm setup s id a appIds warmingUp) := by
  obtain ⟨t, ht, hd⟩ := h.task
  have hnone := h.shape.no_timer ht hd
  refine (shaped_some (by simp [arm]; rfl)).mpr (shape_drive_returns h.shape ht hd h.current.le
    (by rfl) (fun _ => rfl) (Nat.le_succ _) (fun k t hk => ?_) (fun k hk => ?_) rfl)
  · simp only [Table.lookup_insert_eq] at hk
    split_ifs at hk with hkd
    · obtain rfl := Option.some.inj hk
      refine ⟨hkd ▸ Nat.lt_succ_self _, by rw [hkd], h.current, ?_⟩
      show (if warmingUp then FarmingPhase.warming else .farming).isActive = true
      split <;> rfl
    · simp [hnone k] at hk
  · obtain rfl := Option.some.inj hk
    exact ⟨_, AList.lookup_insert _⟩

/-- The worker goes on to await `point`, with the session `s'`. -/
theorem Working.shaped_await {d : Controller} {s' : Session} {point : Point}
    (h : Working c s id a) (hd : d.session = some s') (hs : s'.generation = s.generation)
    (htimer : s'.timer = s.timer) (happ : s.applied = true → s'.applied = true)
    (hdrawn : d.drawn = c.drawn) (htimers : d.timers = c.timers) (htasks : d.tasks = c.tasks)
    (hf : Fits s' (.advance a point)) : Shaped (d.await id (.advance a point)) := by
  obtain ⟨t, ht, hdr⟩ := h.task
  have hd' : (d.await id (.advance a point)).session = some s' := hd
  exact (shaped_some hd').mpr
    (shape_drive_await h.shape ht hdr hs happ htimer hdrawn htimers htasks hf)

theorem shaped_complete (h : Working c s id a) (noneEligible : Bool) :
    Shaped (c.complete s id a noneEligible) := by
  obtain ⟨t, ht, hd⟩ := h.task
  have hnone := h.shape.no_timer ht hd
  unfold complete
  dsimp only
  split_ifs with happ
  · -- the completed worker cleans up what it applied
    have hf : Fits (s.complete noneEligible) (.advance a (.endCompleted .pending)) :=
      fits_endCompleted _ h.current.le happ
    exact h.shaped_await rfl rfl rfl (fun _ => happ) rfl rfl rfl hf
  · have hs : Shape (Controller.returns { (c.remember false).put (s.complete noneEligible) with
        cause := some .completion } id a) (s.complete noneEligible) := by
      refine shape_drive_returns h.shape ht hd h.current.le rfl (fun happ => happ) le_rfl
        (fun k t hk => ?_) (fun k hk => ?_) rfl
      · have hk : c.timers.lookup k = some t := hk
        simp [hnone k] at hk
      · have hk : s.timer = some k := hk
        simp [h.active.2] at hk
    exact (shaped_some (by rw [returns_session]; rfl)).mpr hs

theorem shaped_choose (h : Working c s id a) (gameLimit : ℕ) :
    Shaped (c.choose setup s id a gameLimit) := by
  unfold choose
  dsimp only
  split_ifs
  · exact shaped_complete h _
  · have hf : Fits { s with applied := true } (.advance a (.apply .pending
        (select s.snapshot.config gameLimit s.snapshot.games).appIds
        (select s.snapshot.config gameLimit s.snapshot.games).warmingUp)) :=
      fits_works h.current.le h.active.1 h.active.2 (by simp)
    exact h.shaped_await rfl rfl rfl (fun _ => rfl) rfl rfl rfl hf
  · exact shaped_arm h _ _

theorem shaped_refilter (h : Working c s id a) (gameLimit : ℕ) :
    Shaped (c.refilter setup s id a gameLimit) :=
  shaped_choose (h.backs (backs_putFiltered c _) (Session.sameControl_filterGames ..)
    (putFiltered_session c _)) gameLimit

theorem shaped_proceed (h : Working c s id a) (gameLimit : ℕ) :
    Shaped (c.proceed setup s id a gameLimit) := by
  have hs := Session.sameControl_creditPlaytime c.now s
  have hw : Working (c.put (s.creditPlaytime c.now)) (s.creditPlaytime c.now) id a :=
    h.backs (backs_put c _) hs rfl
  unfold proceed
  dsimp only
  split_ifs
  · have hf : Fits (s.creditPlaytime c.now) (.advance a (.discover gameLimit)) :=
      fits_works hw.current.le hw.active.1 hw.active.2 (by simp)
    exact hw.shaped_await rfl rfl rfl (fun happ => happ) rfl rfl rfl hf
  · exact shaped_refilter hw gameLimit

theorem shaped_unavailable (h : Working c s id a) (reason : String) :
    Shaped (c.unavailable s id a reason) := by
  have hh := halts_halt h.session reason .unavailability
  have hlt : a.generation < s.generation + 1 := by
    rw [h.current]
    exact Nat.lt_succ_self _
  exact shaped_cleanup (shape_halt h.shape h.session reason .unavailability) hh.session
    (hh.drawn ▸ h.lt_drawn) hlt (fits_endUnavailable _ hlt le_rfl) rfl

theorem shaped_available (h : Working c s id a) (value : FarmingAvailability) :
    Shaped (c.available setup s id a value) := by
  have hw : Working (c.put (s.observe value)) (s.observe value) id a :=
    h.backs (backs_put c _) ⟨rfl, rfl, rfl, rfl, rfl⟩ rfl
  unfold available
  dsimp only
  split_ifs
  · exact shaped_unavailable hw _
  · have hf : Fits { s.observe value with applied := true }
        (.advance a (.begin .pending value.gameLimit)) :=
      fits_works hw.current.le hw.active.1 hw.active.2 (by simp)
    exact hw.shaped_await rfl rfl rfl (fun _ => rfl) rfl rfl rfl hf
  · exact shaped_proceed hw value.gameLimit

/-- An `advance` that resumes at a point before it selected games works if it is current. -/
theorem working_of_current (h : Shape c s) (hs : c.session = some s) {point : Point}
    (ht : c.tasks.lookup id = some (.advance a point)) (hcur : a.generation = s.generation)
    (hd : (Task.advance a point).drives a.generation = true) : Working c s id a :=
  ⟨hs, h, hcur, _, ht, hcur ▸ hd⟩

theorem shaped_settleAdvance {d : Controller} {point : Point} {outcome : Outcome} (h : Shape c s)
    (hs : c.session = some s) (ht : c.tasks.lookup id = some (.advance a point))
    (hd : c.settleAdvance setup id a point outcome = some d) : Shaped d := by
  have hid := h.taskFresh id _ ht
  have hfit := (h.fits id _ ht).bounded
  have ha : a.generation ≤ s.generation := by
    cases point <;> first | exact hfit | exact hfit.1.le.trans hfit.2
  have hreturns : Shaped (c.returns id a) :=
    (shaped_some (returns_session.trans hs)).mpr (shape_returns h hid ha)
  unfold settleAdvance at hd
  split at hd
  next => obtain rfl := Option.some.inj hd; exact hreturns
  next => obtain rfl := Option.some.inj hd; exact shaped_fail h hs hid ha
  next value =>
    obtain rfl := Option.some.inj hd
    refine shaped_whenCurrent h hs hid ha fun hcur _ => ?_
    exact shaped_available (working_of_current h hs ht hcur (by simp [Task.drives, Task.works])) value
  next call gameLimit =>
    split_ifs at hd
    obtain rfl := Option.some.inj hd
    refine shaped_whenCurrent h hs hid ha fun hcur _ => ?_
    exact shaped_proceed (working_of_current h hs ht hcur (by simp [Task.drives, Task.works])) _
  next gameLimit discovery =>
    obtain rfl := Option.some.inj hd
    refine shaped_whenCurrent h hs hid ha fun hcur _ => ?_
    have hw := working_of_current h hs ht hcur (by simp [Task.drives, Task.works])
    exact shaped_refilter (hw.backs (backs_putFiltered c _) (Session.sameControl_updateGames ..)
      (putFiltered_session c _)) _
  next call appIds warmingUp =>
    split_ifs at hd
    obtain rfl := Option.some.inj hd
    refine shaped_whenCurrent h hs hid ha fun hcur _ => ?_
    exact shaped_arm (working_of_current h hs ht hcur (by simp [Task.drives, Task.works])) _ _
  next => split_ifs at hd; obtain rfl := Option.some.inj hd; exact hreturns
  next => split_ifs at hd; obtain rfl := Option.some.inj hd; exact hreturns
  next => split_ifs at hd; obtain rfl := Option.some.inj hd; exact hreturns
  next => cases hd

/-- The current scan ends and leaves the session inactive. -/
theorem shaped_scanned {d : Controller} {s' : Session} {generation : ℕ} (h : Shape c s)
    (ht : c.tasks.lookup id = some (.scan generation)) (hcur : generation = s.generation)
    (hsession : d.session = some s') (hg : s'.generation = s.generation)
    (happ : s'.applied = s.applied) (htimer : s'.timer = s.timer) (hdrawn : d.drawn = c.drawn)
    (htimers : d.timers = c.timers) (htasks : d.tasks = c.tasks) : Shaped (d.finish id) := by
  have hd : (Task.scan generation).drives s.generation = true := by simp [Task.drives, hcur]
  have hnone := ((h.fits id _ ht).driver hd).2
  refine (shaped_some (show (d.finish id).session = some s' from hsession)).mpr ?_
  refine h.drive id (fun k t' hk hne => ?_) hg (fun ha => happ.trans ha) hdrawn.ge
    (fun k t' hk => ?_) (fun k hk => by simp [htimer, hnone] at hk) fun k t' hk => ?_
  · by_contra hd'
    exact hne (h.one k id t' _ hk ht (by simpa using hd') hd)
  · have hk : d.timers.lookup k = some t' := hk
    simp [htimers, h.no_timer ht hd k] at hk
  · rw [lookup_finish] at hk
    split_ifs at hk with hkd
    exact .inl ⟨hkd, htasks ▸ hk⟩

theorem isCurrent_iff (hs : c.session = some s) (generation : ℕ) :
    c.isCurrent generation = true ↔ c.shuttingDown = false ∧ generation = s.generation := by
  simp only [isCurrent, hs, Option.any_some, Bool.and_eq_true, Bool.not_eq_true', beq_iff_eq]
  exact and_congr_right fun _ => eq_comm

theorem shaped_settleScan {d : Controller} {generation : ℕ} {outcome : Outcome} (h : Shape c s)
    (hs : c.session = some s) (ht : c.tasks.lookup id = some (.scan generation))
    (hd : c.settleScan setup id generation outcome = some d) : Shaped d := by
  have hfinish : Shaped (c.finish id) :=
    (shaped_some (show (c.finish id).session = some s from hs)).mpr (shape_finish h id)
  unfold settleScan at hd
  simp only [hs] at hd
  split at hd
  next discovery =>
    split_ifs at hd with hcur
    · obtain rfl := Option.some.inj hd
      have hg := ((isCurrent_iff hs generation).mp hcur).2
      have hsame := Session.sameControl_updateGames setup c.now c.shuttingDown discovery s
      have hb := backs_putFiltered c (s.updateGames setup c.now c.shuttingDown discovery)
      exact shaped_scanned (hb.shape h hsame) (hb.kept id _ ht (h.taskFresh id _ ht))
        (hg.trans hsame.generation.symm) rfl rfl rfl rfl rfl rfl rfl
    · obtain rfl := Option.some.inj hd
      exact hfinish
  next =>
    split_ifs at hd with hcur
    · obtain rfl := Option.some.inj hd
      have hg := ((isCurrent_iff hs generation).mp hcur).2
      exact shaped_scanned h ht hg rfl rfl rfl rfl rfl rfl rfl
    · obtain rfl := Option.some.inj hd
      exact hfinish
  next => cases hd

theorem shaped_settleStarted {resumed : Bool} (h : Shape c s)
    (hs : c.session = some s) : Shaped (c.settleStarted id resumed) := by
  unfold settleStarted
  simp only [hs]
  split_ifs
  · refine (shaped_some rfl).mpr (shape_finish ?_ id)
    exact h.idle ⟨rfl, rfl, rfl, rfl, rfl⟩ le_rfl rfl fun _ _ hk => .inl hk
  · refine (shaped_some rfl).mpr (shape_finish ?_ id)
    exact h.idle ⟨rfl, rfl, rfl, rfl, rfl⟩ le_rfl rfl fun _ _ hk => .inl hk
  · exact (shaped_some (show (c.finish id).session = some s from hs)).mpr (shape_finish h id)

theorem shaped_settlePricing {d : Controller} {outcome : Outcome} (h : Shape c s)
    (hs : c.session = some s) (hid : id < c.drawn)
    (hd : c.settlePricing setup id outcome = some d) : Shaped d := by
  unfold settlePricing at hd
  simp only [hs] at hd
  split at hd
  next values =>
    obtain rfl := Option.some.inj hd
    have hc : Shape (c.put (s.setPrices setup c.now values)) (s.setPrices setup c.now values) :=
      h.idle (Session.sameControl_setPrices ..) le_rfl rfl fun _ _ hk => .inl hk
    exact (shaped_some rfl).mpr (shape_await hc hid (fits_priced _) rfl)
  next =>
    obtain rfl := Option.some.inj hd
    exact (shaped_some (show (c.await id .priced).session = some s from hs)).mpr
      (shape_await h hid (fits_priced _) rfl)
  next => cases hd

theorem shaped_settlePriced (h : Shape c s) (hs : c.session = some s) :
    Shaped (c.settlePriced id) := by
  unfold settlePriced
  simp only [hs]
  refine (shaped_some rfl).mpr (shape_finish ?_ id)
  exact h.idle ⟨rfl, rfl, rfl, rfl, rfl⟩ le_rfl rfl fun _ _ hk => .inl hk

/-- The shape does not depend on the clock, the marker or the record of the run. -/
theorem shaped_congr {d : Controller} (h : Shaped c) (hs : d.session = c.session)
    (htasks : d.tasks = c.tasks) (htimers : d.timers = c.timers) (hdrawn : d.drawn = c.drawn) :
    Shaped d := by
  cases hc : c.session with
  | none =>
    rw [Shaped, hc] at h
    rw [Shaped, hs, hc, htasks, htimers]
    exact h
  | some s =>
    refine (shaped_some (hs.trans hc)).mpr ?_
    exact ((shaped_some hc).mp h).idle (.refl s) hdrawn.ge htimers fun k t hk =>
      .inl (htasks ▸ hk)

/-- A pending task has a session. -/
theorem session_of_task (h : Shaped c) {t : Task} (ht : c.tasks.lookup id = some t) :
    ∃ s, c.session = some s ∧ Shape c s := by
  cases hs : c.session with
  | none =>
    rw [Shaped, hs] at h
    simp [h.1 id] at ht
  | some s => exact ⟨s, rfl, (shaped_some hs).mp h⟩

theorem shaped_settle {d : Controller} {outcome : Outcome} (h : Shaped c)
    (hd : c.settle setup id outcome = some d) : Shaped d := by
  unfold settle at hd
  split at hd
  next generation outcome ht =>
    obtain ⟨s, hs, hc⟩ := session_of_task h ht
    exact shaped_settleScan hc hs ht hd
  next a point outcome ht =>
    obtain ⟨s, hs, hc⟩ := session_of_task h ht
    exact shaped_settleAdvance hc hs ht hd
  next ht =>
    obtain ⟨s, hs, hc⟩ := session_of_task h ht
    obtain rfl := Option.some.inj hd
    exact shaped_settleStarted hc hs
  next ht =>
    obtain ⟨s, hs, hc⟩ := session_of_task h ht
    obtain rfl := Option.some.inj hd
    exact (shaped_some (show (c.finish id).session = some s from hs)).mpr (shape_finish hc id)
  next ht =>
    obtain ⟨s, hs, hc⟩ := session_of_task h ht
    split_ifs at hd
    obtain rfl := Option.some.inj hd
    exact (shaped_some (show (c.finish id).session = some s from hs)).mpr (shape_finish hc id)
  next ht =>
    obtain ⟨s, hs, hc⟩ := session_of_task h ht
    exact shaped_settlePricing hc hs (hc.taskFresh id _ ht) hd
  next ht =>
    obtain ⟨s, hs, hc⟩ := session_of_task h ht
    obtain rfl := Option.some.inj hd
    exact shaped_settlePriced hc hs
  next => cases hd

/-- An adapter call that asked its callback stands where it stood. -/
theorem shaped_perform {t : Task} {generation : ℕ} {effect : Effect} {task : CallState → Task}
    (h : Shaped c) (ht : c.tasks.lookup id = some t)
    (hsame : ∀ s call, Fits s t → Fits s (task call) ∧
      (task call).drives s.generation = t.drives s.generation) :
    Shaped (c.perform id generation effect task) := by
  obtain ⟨s, hs, hc⟩ := session_of_task h ht
  have hid := hc.taskFresh id t ht
  have hcall (d : Controller) (call : CallState) (hd : d.session = some s)
      (hdrawn : d.drawn = c.drawn) (htimers : d.timers = c.timers) (htasks : d.tasks = c.tasks) :
      Shaped (d.await id (task call)) := by
    obtain ⟨hf, hdr⟩ := hsame s call (hc.fits id t ht)
    refine (shaped_some (show (d.await id (task call)).session = some s from hd)).mpr ?_
    by_cases hdt : t.drives s.generation = true
    · exact shape_drive_await hc ht hdt rfl (fun ha => ha) rfl hdrawn htimers htasks hf
    · refine hc.idle (.refl s) hdrawn.ge htimers fun k t' hk => ?_
      rw [lookup_await] at hk
      split_ifs at hk with hkd
      · obtain rfl := Option.some.inj hk
        refine .inr ⟨?_, hf, by simpa [hdr] using hdt⟩
        rw [hkd]
        exact hdrawn ▸ hid
      · exact .inl (htasks ▸ hk)
  unfold perform
  split_ifs
  · exact hcall _ _ hs rfl rfl rfl
  · exact hcall _ _ hs rfl rfl rfl

theorem shaped_act {d : Controller} (h : Shaped c) (hd : c.act id = some d) : Shaped d := by
  unfold act at hd
  split at hd
  next ht =>
    obtain rfl := Option.some.inj hd
    exact shaped_perform h ht fun s call hf =>
      ⟨⟨hf.bounded, hf.driver, fun _ _ he => by cases he⟩, rfl⟩
  next ht =>
    obtain rfl := Option.some.inj hd
    exact shaped_perform h ht fun s call hf =>
      ⟨⟨hf.bounded, hf.driver, fun _ _ he => by cases he⟩, rfl⟩
  next ht =>
    obtain rfl := Option.some.inj hd
    exact shaped_perform h ht fun s call hf => ⟨fits_endUnavailable _ hf.bounded.1 hf.bounded.2, rfl⟩
  next a ht =>
    obtain rfl := Option.some.inj hd
    refine shaped_perform h ht fun s call hf => ⟨⟨hf.bounded, hf.driver, ?_⟩, rfl⟩
    rintro _ _ he hg
    cases he
    exact hf.completed a .pending rfl hg
  next ht =>
    obtain rfl := Option.some.inj hd
    exact shaped_perform h ht fun s call hf => ⟨fits_endFailed _ hf.bounded.1 hf.bounded.2, rfl⟩
  next ht =>
    obtain rfl := Option.some.inj hd
    exact shaped_perform h ht fun s call hf => ⟨fits_stop _ hf.bounded, rfl⟩
  next => cases hd

theorem shaped_fire {d : Controller} {timer : TimerId} (h : Shaped c)
    (hd : c.fire timer = some d) : Shaped d := by
  unfold fire at hd
  split at hd
  next t s ht hs =>
    have hc := (shaped_some hs).mp h
    obtain ⟨htimer, hg, hact⟩ := hc.armed timer t ht
    have hothers (k : TaskId) (t' : Task) (hk : c.tasks.lookup k = some t') :
        t'.drives s.generation = false := hc.not_drives (.inl (by simp [htimer])) hk
    have hempty (k : TimerId) : (c.timers.erase timer).lookup k = none := by
      rw [Table.lookup_erase_eq]
      split_ifs with hkt
      · rfl
      · cases hk : c.timers.lookup k with
        | none => rfl
        | some t' =>
          have hk' := (hc.armed k t' hk).1
          rw [htimer] at hk'
          exact absurd (Option.some.inj hk').symm hkt
    dsimp only at hd
    split_ifs at hd
    · obtain rfl := Option.some.inj hd
      refine (shaped_some rfl).mpr ?_
      refine hc.drive c.drawn (fun k t' hk _ => hothers k t' hk) rfl (fun ha => ha) (Nat.le_succ _)
        (fun k t' hk => ?_) (fun k hk => by cases hk) fun k t' hk => ?_
      · have hk : (c.timers.erase timer).lookup k = some t' := hk
        simp [hempty k] at hk
      · rw [lookup_spawn] at hk
        split_ifs at hk with hkd
        · obtain rfl := Option.some.inj hk
          exact .inr ⟨hkd, hkd ▸ Nat.lt_succ_self _, hg.le, fun _ => ⟨hact, rfl⟩,
            fun _ _ he => by cases he⟩
        · exact .inl ⟨hkd, hk⟩
    · obtain rfl := Option.some.inj hd
      refine (shaped_some rfl).mpr ?_
      refine hc.drive c.drawn (fun k t' hk _ => hothers k t' hk) rfl (fun ha => ha) le_rfl
        (fun k t' hk => ?_) (fun k hk => by cases hk) fun k t' hk => ?_
      · have hk : (c.timers.erase timer).lookup k = some t' := hk
        simp [hempty k] at hk
      · exact .inl ⟨(hc.taskFresh k t' hk).ne, hk⟩
  next => cases hd

theorem shaped_next {d : Controller} (h : Shaped c) {action : Action}
    (hd : (controllerMachine setup).next c action = some d) : Shaped d := by
  cases action with
  | snapshot => obtain rfl := Option.some.inj hd; exact shaped_touch h _
  | scan => obtain rfl := Option.some.inj hd; exact shaped_scan h _ _
  | start => obtain rfl := Option.some.inj hd; exact shaped_start h _ _ _
  | reconfigure => obtain rfl := Option.some.inj hd; exact shaped_reconfigure h _
  | halt => obtain rfl := Option.some.inj hd; exact shaped_halt h _ _
  | stop => obtain rfl := Option.some.inj hd; exact shaped_stop h
  | beginShutdown =>
    obtain rfl := Option.some.inj hd
    have hdown : Shaped { c with shuttingDown := true } := shaped_congr h rfl rfl rfl rfl
    exact shaped_halt hdown _ _
  | initializeAgain => obtain rfl := Option.some.inj hd; exact shaped_congr h rfl rfl rfl rfl
  | fire => exact shaped_fire h hd
  | act => exact shaped_act h hd
  | settle => exact shaped_settle h hd
  | tick => obtain rfl := Option.some.inj hd; exact shaped_congr h rfl rfl rfl rfl

theorem shaped_empty : Shaped empty := by
  simp [Shaped, empty]

/-- Every reachable controller has the shape. -/
theorem shaped_of_reachable (h : (controllerMachine setup).Reachable c) : Shaped c :=
  h.invariant (by rintro _ rfl; exact shaped_empty) fun _ _ _ hs _ hn => shaped_next hs hn

end Controller
end SteamBee.Farming
