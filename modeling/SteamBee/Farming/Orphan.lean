import SteamBee.Farming.Superseded

/-! Orphaned farming: which selections a session leaves applied when it has ended, and
the steps that orphan one. -/
namespace SteamBee.Farming
open Transition

/-- A begin or apply took effect and no end has taken effect since. -/
def holdsSelection : List Effect → Bool
  | [] => false
  | .ended :: _ => false
  | .began :: _ | .applied _ :: _ => true
  | .started :: es | .remembered _ :: es => holdsSelection es

def Task.endGuard : Task → Option ℕ
  | .advance _ (.endUnavailable .pending g) | .advance _ (.endFailed .pending g) => some g
  | .advance a (.endCompleted .pending) => some a.generation
  | .stop g .pending => some g
  | _ => none

/-- An end after completion is tried again when it rejects. -/
def Task.retries : Task → Bool
  | .advance _ (.endCompleted _) => true
  | _ => false

def Session.nothingToPlay (setup : Setup) (now : ℕ) (gameLimit : ℕ) (s : Session) : Bool :=
  let s := (s.filterGames setup now false).1
  (select s.snapshot.config gameLimit s.snapshot.games).appIds.isEmpty

/-- `advance` would select without a rescan, and find nothing. -/
def Session.proceedsToNothing (setup : Setup) (now : ℕ) (forceScan : Bool) (gameLimit : ℕ)
    (s : Session) : Bool :=
  let s := s.creditPlaytime now
  !(forceScan || s.snapshot.scannedAt.all fun scannedAt => decide (setup.scanMs ≤ now - scannedAt)) &&
    s.nothingToPlay setup now gameLimit

/-- What a working `advance` awaited ends its session. -/
def endsSession (setup : Setup) (now : ℕ) (s : Session) (a : Advance) : Point → Outcome → Bool
  | .availability, .availability value =>
    !value.allowed || (!(a.forceScan && setup.hasBegin) &&
      (s.observe value).proceedsToNothing setup now a.forceScan value.gameLimit)
  | .begin _ gameLimit, .done => s.proceedsToNothing setup now a.forceScan gameLimit
  | .discover gameLimit, .discovery discovery =>
    (s.updateGames setup now false discovery).1.nothingToPlay setup now gameLimit
  | _, .failed => true
  | _, _ => false

namespace Controller
variable {setup : Setup} {c d : Controller} {s s' : Session} {id : TaskId} {a : Advance} {t : Task}

/-- A pending `adapter.end` would still act. -/
def endPending (c : Controller) : Bool :=
  c.session.any fun s => c.tasks.entries.any fun e => e.2.endGuard == some s.generation

/-- A settled promise that orphans the selection: the session ends without knowing that
it holds one, or the pending end of a selection rejects for good. -/
def settleOrphans (setup : Setup) (c : Controller) (s : Session) : Task → Outcome → Bool
  | .advance a point, outcome =>
    ((Task.advance a point).works s.generation && !s.applied &&
      endsSession setup c.now s a point outcome) ||
    ((Task.advance a point).endGuard == some s.generation &&
      !(Task.advance a point).retries && outcome == .failed)
  | .stop g .pending, .failed => g == s.generation
  | _, _ => false

/-- The steps that leave no selection behind. A scan may not supersede the pending end
of one, and there is no shutdown. -/
def orderly (setup : Setup) (c : Controller) : Action → Bool
  | .beginShutdown => false
  | .scan _ expected =>
    !(holdsSelection c.effects && c.endPending &&
      c.session.any fun s => expected.all fun generation => generation == s.generation)
  | .settle id outcome =>
    !(holdsSelection c.effects &&
      c.session.any fun s => (c.tasks.lookup id).any fun t => c.settleOrphans setup s t outcome)
  | _ => true

theorem endPending_iff (hs : c.session = some s) : c.endPending = true ↔
    ∃ k t, c.tasks.lookup k = some t ∧ t.endGuard = some s.generation := by
  simp only [endPending, hs, Option.any_some, List.any_eq_true, beq_iff_eq,
    Table.lookup_eq_some_iff]
  exact ⟨fun ⟨e, he, hg⟩ => ⟨e.1, e.2, he, hg⟩, fun ⟨k, t, he, hg⟩ => ⟨⟨k, t⟩, he, hg⟩⟩

/-- Somebody will still act for the session: a working `advance` or a timer. -/
def Owned (c : Controller) (s : Session) : Prop :=
  (∃ k t, c.tasks.lookup k = some t ∧ t.works s.generation = true) ∨
    ∃ k t, c.timers.lookup k = some t

/-- A session that ended by itself and left a selection has an end pending for it. -/
structure Kept (c : Controller) : Prop where
  running : c.shuttingDown = false
  fresh : c.session = none → c.cause = none
  ended : ∀ s, c.session = some s → c.cause.any (· ≠ .halt) = true → ¬c.Owned s →
    holdsSelection c.effects = true → c.endPending = true

theorem kept_of_owned (hdown : d.shuttingDown = false) (hd : d.session = some s)
    (h : d.Owned s) : d.Kept :=
  ⟨hdown, fun hn => by simp [hd] at hn, fun s' hs' _ hno => by
    obtain rfl : s = s' := Option.some.inj (hd.symm.trans hs')
    exact absurd h hno⟩

theorem kept_of_pending (hdown : d.shuttingDown = false) (hd : d.session = some s)
    (h : d.endPending = true) : d.Kept :=
  ⟨hdown, fun hn => by simp [hd] at hn, fun _ _ _ _ _ => h⟩

theorem kept_of_released (hdown : d.shuttingDown = false) (hd : d.session = some s)
    (h : holdsSelection d.effects = false) : d.Kept :=
  ⟨hdown, fun hn => by simp [hd] at hn, fun _ _ _ _ hsel => by simp [h] at hsel⟩

/-- Steps that touch no more than one task, which neither works nor must end anything. -/
theorem Kept.idle (h : c.Kept) (id : TaskId) (hs : c.session = some s) (hd : d.session = some s')
    (hg : s'.generation = s.generation) (hdown : d.shuttingDown = c.shuttingDown)
    (hcause : d.cause = c.cause)
    (hsel : holdsSelection d.effects = holdsSelection c.effects) (htimers : d.timers = c.timers)
    (hkept : ∀ k t, c.tasks.lookup k = some t → k ≠ id → d.tasks.lookup k = some t)
    (hid : ∀ t, c.tasks.lookup id = some t → t.works s.generation = false ∧
      (t.endGuard = some s.generation → holdsSelection c.effects = false)) : d.Kept := by
  refine ⟨hdown.trans h.running, fun hn => by simp [hd] at hn, fun s'' hs'' hc hno hsel' => ?_⟩
  obtain rfl : s' = s'' := Option.some.inj (hd.symm.trans hs'')
  have hno' : ¬c.Owned s := by
    rintro (⟨k, t, hk, hw⟩ | ⟨k, t, hk⟩)
    · refine hno (.inl ⟨k, t, hkept k t hk ?_, hg ▸ hw⟩)
      rintro rfl
      simp [(hid t hk).1] at hw
    · exact hno (.inr ⟨k, t, htimers ▸ hk⟩)
  have hsel'' := hsel ▸ hsel'
  obtain ⟨k, t, hk, hend⟩ := (endPending_iff hs).mp (h.ended s hs (hcause ▸ hc) hno' hsel'')
  refine (endPending_iff hd).mpr ⟨k, t, hkept k t hk ?_, hg ▸ hend⟩
  rintro rfl
  simp [(hid t hk).2 hend] at hsel''

/-- More price lookups change nothing about ends. -/
theorem Kept.backs (h : c.Kept) (hc : Shape c s) (hs : c.session = some s) (hb : c.Backs d)
    (hd : d.session = some s') (hg : s'.generation = s.generation) : d.Kept := by
  refine h.idle c.drawn hs hd hg hb.shuttingDown hb.cause (by rw [hb.effects]) hb.timers
    (fun k t hk _ => hb.kept k t hk (hc.taskFresh k t hk)) fun t ht => ?_
  exact absurd (hc.taskFresh c.drawn t ht) (lt_irrefl _)

theorem kept_touch (h : c.Kept) (hc : Shaped c) (config : Option FarmingConfig) :
    (c.touch setup config).Kept := by
  unfold touch
  split
  next hnone =>
    refine ⟨h.running, fun hn => by simp [put] at hn, fun s _ hcause => ?_⟩
    have hcause : c.cause.any (· ≠ .halt) = true := hcause
    simp [h.fresh hnone] at hcause
  next s config hs =>
    split_ifs
    · exact h
    · exact h.backs ((shaped_some hs).mp hc) hs (backs_putFiltered c _) (putFiltered_session c _)
        (Session.sameControl_filterGames ..).generation
  next => exact h

theorem kept_halt (h : c.Kept) (reason : String) : (c.halt reason .halt).Kept := by
  cases hs : c.session with
  | none =>
    simp only [halt, hs]
    exact h
  | some s =>
    have hh := halts_halt hs reason .halt
    refine ⟨hh.shuttingDown.trans h.running, fun hn => by simp [hh.session] at hn,
      fun _ _ hc => ?_⟩
    simp [hh.cause] at hc

/-- A session at rest with nobody working for it. -/
theorem not_owned_of_inactive (hc : Shape c s) (hact : s.isActive = false) : ¬c.Owned s := by
  rintro (⟨k, t, hk, hw⟩ | ⟨k, t, hk⟩)
  · exact absurd (Task.drives_of_works hw) (by simp [hc.not_drives (.inr hact) hk])
  · simp [hc.no_timer_of_inactive hact k] at hk

theorem Backs.endPending (hb : c.Backs d) (hs : c.session = some s) (hd : d.session = some s')
    (hg : s'.generation = s.generation) (h : d.endPending = true) : c.endPending = true := by
  obtain ⟨k, t, hk, hend⟩ := (endPending_iff hd).mp h
  rcases hb.tasks k t hk with hk | ⟨-, -, appIds, rfl⟩
  · exact (endPending_iff hs).mpr ⟨k, t, hk, hg ▸ hend⟩
  · cases hend

/-- A scan supersedes no end that still matters. -/
theorem kept_scan (h : c.Kept) (hc : Shaped c) {config : FarmingConfig} {expected : Option ℕ}
    (ho : c.orderly setup (.scan config expected) = true) :
    (c.scan setup config expected).2.Kept := by
  unfold scan
  rw [if_neg (by simp [h.running])]
  have ht : (c.touch setup (some config)).Kept := kept_touch h hc _
  have hct : Shaped (c.touch setup (some config)) := shaped_touch hc _
  dsimp only
  split
  next => exact ht
  next s hs =>
    split_ifs with hstay
    · exact ht
    · simp only [Bool.or_eq_true, not_or, Bool.not_eq_true] at hstay
      have hshape := (shaped_some hs).mp hct
      refine ⟨ht.running, fun hn => by simp [spawn, put] at hn, fun s' _ hcause _ hsel => ?_⟩
      have hsel : holdsSelection (c.touch setup (some config)).effects = true := hsel
      have hpend := ht.ended s hs hcause (not_owned_of_inactive hshape hstay.2) hsel
      -- the end that was pending for the selection is the one the scan would supersede
      cases hsc : c.session with
      | none =>
        have hcause : (c.touch setup (some config)).cause.any (· ≠ .halt) = true := hcause
        simp [touch, hsc, put, h.fresh hsc] at hcause
      | some s₀ =>
        obtain ⟨s₁, hs₁, hb, hsame⟩ := touch_backs hsc (some config)
        obtain rfl : s = s₁ := Option.some.inj (hs.symm.trans hs₁)
        have hpend₀ := hb.endPending hsc hs hsame.generation hpend
        have hexp : expected.all (fun generation => generation == s₀.generation) = true := by
          have := hstay.1
          rw [hsame.generation] at this
          cases expected <;> simp_all
        simp [orderly, hsc, hpend₀, hexp, hb.effects ▸ hsel] at ho

theorem kept_start (h : c.Kept) (hc : Shaped c) (config : FarmingConfig) (expected : Option ℕ)
    (resumed : Bool) : (c.start setup config expected resumed).2.Kept := by
  unfold start
  rw [if_neg (by simp [h.running])]
  have ht : (c.touch setup (some config)).Kept := kept_touch h hc _
  dsimp only
  split
  next => exact ht
  next s hs =>
    split_ifs
    · exact ht
    · exact ht
    · refine kept_of_owned ht.running rfl (.inl ⟨_, _, (lookup_spawn _ _).trans (if_pos rfl), ?_⟩)
      simp [Task.works]

theorem kept_reconfigure (h : c.Kept) (hc : Shaped c) (config : FarmingConfig) :
    (c.reconfigure setup config).Kept := by
  have ht : (c.touch setup (some config)).Kept := kept_touch h hc _
  have hct : Shaped (c.touch setup (some config)) := shaped_touch hc _
  unfold reconfigure reselect
  dsimp only
  split
  next => exact ht
  next s hs =>
    have hb := backs_putFiltered (c.touch setup (some config)) (Session.filterGames setup
      (c.touch setup (some config)).now (c.touch setup (some config)).shuttingDown
      { s with snapshot := { s.snapshot with config } })
    have hf := Session.sameControl_filterGames setup (c.touch setup (some config)).now
      (c.touch setup (some config)).shuttingDown { s with snapshot := { s.snapshot with config } }
    split_ifs
    · exact ht
    · split
      next => exact ht.backs ((shaped_some hs).mp hct) hs hb (putFiltered_session _ _) hf.generation
      next =>
        refine kept_of_owned (hb.shuttingDown.trans ht.running) rfl
          (.inl ⟨_, _, (lookup_spawn _ _).trans (if_pos rfl), ?_⟩)
        simp [Task.works, hf.generation]

theorem kept_stop (h : c.Kept) (hc : Shaped c) : (c.stop setup).2.Kept := by
  have ht : (c.touch setup none).Kept := kept_touch h hc none
  unfold stop
  dsimp only
  split
  next hs =>
    cases hst : (c.touch setup none).session with
    | none =>
      simp only [halt, hst]
      exact ht
    | some s =>
      simp [(halts_halt hst "stopped" .stop).session] at hs
  next s hs =>
    cases hst : (c.touch setup none).session with
    | none => simp [halt, hst] at hs
    | some s₀ =>
      have hh := halts_halt hst "stopped" .stop
      have hs' : (((c.touch setup none).halt "stopped" .stop).spawn
        (.stop s.generation .pending)).session = some s := hs
      exact kept_of_pending (hh.shuttingDown.trans ht.running) hs' <| (endPending_iff hs').mpr
        ⟨_, _, (lookup_spawn _ _).trans (if_pos rfl), rfl⟩

/-- An adapter call that acts for a worker leaves it at work; an end that acts leaves no
selection; a declined call was superseded. -/
theorem kept_perform {generation : ℕ} {effect : Effect} {task : CallState → Task} (h : c.Kept)
    (hs : c.session = some s) (ht : c.tasks.lookup id = some t)
    (hguard : t.works s.generation = true ∨ t.endGuard = some s.generation →
      generation = s.generation)
    (hacts : generation = s.generation →
      (∀ call, (task call).works s.generation = true) ∨ effect = .ended) :
    (c.perform id generation effect task).Kept := by
  unfold perform
  split_ifs with hcur
  · rcases hacts ((isCurrent_iff hs generation).mp hcur).2 with hw | rfl
    · exact kept_of_owned h.running hs
        (.inl ⟨id, _, (lookup_await id _).trans (if_pos rfl), hw .acted⟩)
    · exact kept_of_released h.running hs rfl
  · have hne : generation ≠ s.generation := fun he =>
      hcur ((isCurrent_iff hs generation).mpr ⟨h.running, he⟩)
    refine h.idle id hs hs rfl rfl rfl rfl rfl (fun k t' hk hkid => ?_) fun t' ht' => ?_
    · exact (lookup_await k _).trans ((if_neg hkid).trans hk)
    · obtain rfl : t = t' := Option.some.inj (ht.symm.trans ht')
      exact ⟨by simpa using fun hw => hne (hguard (.inl hw)), fun he => absurd (hguard (.inr he)) hne⟩

theorem kept_act (h : c.Kept) (hc : Shaped c) (hd : c.act id = some d) : d.Kept := by
  unfold act at hd
  split at hd
  next a limit ht =>
    obtain ⟨s, hs, -⟩ := session_of_task hc ht
    obtain rfl := Option.some.inj hd
    exact kept_perform h hs ht (by simp [Task.works, Task.endGuard])
      fun he => .inl fun _ => by simpa [Task.works] using he
  next a appIds warmingUp ht =>
    obtain ⟨s, hs, -⟩ := session_of_task hc ht
    obtain rfl := Option.some.inj hd
    exact kept_perform h hs ht (by simp [Task.works, Task.endGuard])
      fun he => .inl fun _ => by simpa [Task.works] using he
  next ht =>
    obtain ⟨s, hs, -⟩ := session_of_task hc ht
    obtain rfl := Option.some.inj hd
    exact kept_perform h hs ht (by simp [Task.works, Task.endGuard]) fun _ => .inr rfl
  next ht =>
    obtain ⟨s, hs, -⟩ := session_of_task hc ht
    obtain rfl := Option.some.inj hd
    exact kept_perform h hs ht (by simp [Task.works, Task.endGuard]) fun _ => .inr rfl
  next ht =>
    obtain ⟨s, hs, -⟩ := session_of_task hc ht
    obtain rfl := Option.some.inj hd
    exact kept_perform h hs ht (by simp [Task.works, Task.endGuard]) fun _ => .inr rfl
  next ht =>
    obtain ⟨s, hs, -⟩ := session_of_task hc ht
    obtain rfl := Option.some.inj hd
    exact kept_perform h hs ht (by simp [Task.works, Task.endGuard]) fun _ => .inr rfl
  next => cases hd

theorem kept_fire {timer : TimerId} (h : c.Kept) (hc : Shaped c) (hd : c.fire timer = some d) :
    d.Kept := by
  unfold fire at hd
  split at hd
  next tm s ht hs =>
    have hg := (((shaped_some hs).mp hc).armed timer tm ht).2.1
    have hcur : ({ c with timers := c.timers.erase timer }.put
        { s with timer := none }).isCurrent tm.generation = true := by
      simp [isCurrent, put, h.running, hg]
    simp only [hcur, if_true] at hd
    split_ifs at hd
    obtain rfl := Option.some.inj hd
    refine kept_of_owned h.running rfl (.inl ⟨_, _, (lookup_spawn _ _).trans (if_pos rfl), ?_⟩)
    simp [Task.works, hg]
  next => cases hd

theorem kept_finish (h : c.Kept) (hs : c.session = some s) (ht : c.tasks.lookup id = some t)
    (hw : t.works s.generation = false)
    (he : t.endGuard = some s.generation → holdsSelection c.effects = false) :
    (c.finish id).Kept := by
  refine h.idle id hs hs rfl rfl rfl rfl rfl (fun k t' hk hkid => ?_) fun t' ht' => ?_
  · exact (lookup_finish k).trans ((if_neg hkid).trans hk)
  · obtain rfl : t = t' := Option.some.inj (ht.symm.trans ht')
    exact ⟨hw, he⟩

theorem kept_returns (h : c.Kept) (hs : c.session = some s) (ht : c.tasks.lookup id = some t)
    (hw : t.works s.generation = false)
    (he : t.endGuard = some s.generation → holdsSelection c.effects = false) :
    (c.returns id a).Kept := by
  refine h.idle id hs (returns_session.trans hs) rfl returns_shuttingDown returns_cause
    (by rw [returns_effects]) returns_timers (fun k t' hk hkid => ?_) fun t' ht' => ?_
  · exact (lookup_returns k).trans ((if_neg hkid).trans hk)
  · obtain rfl : t = t' := Option.some.inj (ht.symm.trans ht')
    exact ⟨hw, he⟩

/-- The end of a session that knows of its selection, or that has none. -/
theorem kept_cleanup {task : Task} {b : Bool} (hdown : c.shuttingDown = false)
    (hs : c.session = some s) (htask : task.endGuard = some s.generation)
    (hb : b = false → holdsSelection c.effects = false) :
    Kept (if b = true then c.await id task else c.returns id a) := by
  split_ifs with happ
  · have hs' : (c.await id task).session = some s := hs
    exact kept_of_pending hdown hs' <| (endPending_iff hs').mpr
      ⟨id, task, (lookup_await id _).trans (if_pos rfl), htask⟩
  · exact kept_of_released (returns_shuttingDown.trans hdown) (returns_session.trans hs)
      (by rw [returns_effects]; exact hb (by simpa using happ))

theorem kept_arm (hdown : c.shuttingDown = false) (appIds : List AppId) (warmingUp : Bool) :
    (c.arm setup s id a appIds warmingUp).Kept := by
  refine kept_of_owned (returns_shuttingDown.trans hdown) returns_session (.inr ⟨c.drawn, ?_⟩)
  exact ⟨_, (congrArg (AList.lookup c.drawn) returns_timers).trans (AList.lookup_insert _)⟩

theorem kept_complete (hdown : c.shuttingDown = false) (hg : a.generation = s.generation)
    {noneEligible : Bool} (hsel : s.applied = false → holdsSelection c.effects = false) :
    (c.complete s id a noneEligible).Kept := by
  unfold complete
  dsimp only
  refine kept_cleanup hdown rfl ?_ hsel
  exact congrArg some hg

theorem kept_choose (hdown : c.shuttingDown = false) (hg : a.generation = s.generation)
    {gameLimit : ℕ}
    (hsel : (select s.snapshot.config gameLimit s.snapshot.games).appIds = [] →
      s.applied = false → holdsSelection c.effects = false) :
    (c.choose setup s id a gameLimit).Kept := by
  unfold choose
  dsimp only
  split_ifs with hempty
  · exact kept_complete hdown hg (hsel hempty)
  · refine kept_of_owned hdown rfl (.inl ⟨id, _, (lookup_await id _).trans (if_pos rfl), ?_⟩)
    simpa [Task.works] using hg
  · exact kept_arm hdown _ _

theorem kept_refilter (hdown : c.shuttingDown = false) (hg : a.generation = s.generation)
    {gameLimit : ℕ}
    (hsel : s.nothingToPlay setup c.now gameLimit = true → s.applied = false →
      holdsSelection c.effects = false) : (c.refilter setup s id a gameLimit).Kept := by
  have hb := backs_putFiltered c (s.filterGames setup c.now c.shuttingDown)
  have hf := Session.sameControl_filterGames setup c.now c.shuttingDown s
  refine kept_choose (hb.shuttingDown.trans hdown) (hg.trans hf.generation.symm)
    fun hempty happ => ?_
  rw [hb.effects]
  refine hsel ?_ (hf.applied ▸ happ)
  simp only [Session.nothingToPlay, List.isEmpty_iff]
  rw [hdown] at hempty
  exact hempty

theorem kept_proceed (hdown : c.shuttingDown = false) (hg : a.generation = s.generation)
    {gameLimit : ℕ}
    (hsel : s.proceedsToNothing setup c.now a.forceScan gameLimit = true → s.applied = false →
      holdsSelection c.effects = false) : (c.proceed setup s id a gameLimit).Kept := by
  have hp := Session.sameControl_creditPlaytime c.now s
  have hg' := hg.trans hp.generation.symm
  unfold proceed
  dsimp only
  split_ifs with hrescan
  · refine kept_of_owned hdown rfl (.inl ⟨id, _, (lookup_await id _).trans (if_pos rfl), ?_⟩)
    simpa [Task.works] using hg'
  · refine kept_refilter hdown hg' fun hempty happ => hsel ?_ (hp.applied ▸ happ)
    simp only [Session.proceedsToNothing, hempty, Bool.and_true, Bool.not_eq_true']
    simpa using hrescan

theorem kept_available (hdown : c.shuttingDown = false) (hg : a.generation = s.generation) {value : FarmingAvailability}
    (hsel : endsSession setup c.now s a .availability (.availability value) = true →
      s.applied = false → holdsSelection c.effects = false) :
    (c.available setup s id a value).Kept := by
  have hg' : a.generation = (s.observe value).generation := hg
  unfold available
  dsimp only
  split_ifs with hallowed hbegin
  · have hh := halts_halt (c := c.put (s.observe value)) rfl
      (value.reason.getD "account_unavailable") .unavailability
    refine kept_cleanup (hh.shuttingDown.trans hdown) hh.session rfl fun happ => ?_
    have hend := hsel (by simp [endsSession, hallowed]) happ
    rcases hh.remembered with ⟨he, -⟩ | ⟨he, -⟩
    · rw [he]; exact hend
    · rw [he]; exact hend
  · refine kept_of_owned hdown rfl (.inl ⟨id, _, (lookup_await id _).trans (if_pos rfl), ?_⟩)
    simpa [Task.works] using hg'
  · refine kept_proceed (c := c.put (s.observe value)) hdown hg' fun hend happ => hsel ?_ happ
    have hend : (s.observe value).proceedsToNothing setup c.now a.forceScan value.gameLimit =
      true := hend
    simp only [endsSession, hend, Bool.and_true]
    simp [hbegin]

/-- `advance` goes on if it works for the current generation, and is idle otherwise. -/
theorem kept_whenCurrent {k : Session → Controller} (h : c.Kept) (hs : c.session = some s)
    (ht : c.tasks.lookup id = some t) (hw : t.works s.generation = true → a.generation = s.generation)
    (he : a.generation ≠ s.generation → t.endGuard = some s.generation →
      holdsSelection c.effects = false)
    (hk : a.generation = s.generation → (k s).Kept) : (c.whenCurrent id a k).Kept := by
  unfold whenCurrent
  simp only [hs]
  split_ifs with hcur
  · exact hk ((isCurrent_iff hs _).mp hcur).2
  · have hne : a.generation ≠ s.generation := fun hg =>
      hcur ((isCurrent_iff hs _).mpr ⟨h.running, hg⟩)
    exact kept_returns h hs ht (by simpa using fun hw' => hne (hw hw')) (he hne)

/-- The `catch` of an `advance` that knows of its selection, has none, or is superseded. -/
theorem kept_fail (h : c.Kept) (hs : c.session = some s) (ht : c.tasks.lookup id = some t)
    (hw : t.works s.generation = true → a.generation = s.generation)
    (he : a.generation ≠ s.generation → t.endGuard = some s.generation →
      holdsSelection c.effects = false)
    (hsel : a.generation = s.generation → s.applied = false →
      holdsSelection c.effects = false) : (c.fail id a).Kept := by
  have hh := halts_halt hs "farming_failed" .failure
  refine kept_whenCurrent h hs ht hw he fun hg => ?_
  refine kept_cleanup (hh.shuttingDown.trans h.running) rfl rfl fun happ => ?_
  rcases hh.remembered with ⟨he, -⟩ | ⟨he, -⟩
  · simp only [put, he]; exact hsel hg happ
  · simp only [put, he]; exact hsel hg happ

/-- A promise that a task awaits settles without orphaning a selection. -/
theorem settleOrphans_of_orderly {outcome : Outcome} (hs : c.session = some s)
    (ht : c.tasks.lookup id = some t) (ho : c.orderly setup (.settle id outcome) = true)
    (horphan : c.settleOrphans setup s t outcome = true) : holdsSelection c.effects = false := by
  simpa [orderly, hs, ht, horphan] using ho

theorem kept_settleAdvance {point : Point} {outcome : Outcome} (h : c.Kept) (hc : Shape c s)
    (hs : c.session = some s) (ht : c.tasks.lookup id = some (.advance a point))
    (ho : c.orderly setup (.settle id outcome) = true)
    (hd : c.settleAdvance setup id a point outcome = some d) : d.Kept := by
  have hrel := settleOrphans_of_orderly hs ht ho
  have hfit := (hc.fits id _ ht)
  -- a working `advance` that ends its session knows of its selection
  have hends (hw : (Task.advance a point).works s.generation = true)
      (he : endsSession setup c.now s a point outcome = true) (happ : s.applied = false) :
      holdsSelection c.effects = false := by
    refine hrel ?_
    simp [settleOrphans, hw, he, happ]
  unfold settleAdvance at hd
  split at hd
  next call g =>
    obtain rfl := Option.some.inj hd
    refine kept_returns h hs ht rfl fun he => hrel ?_
    simp [settleOrphans, he, Task.retries]
  next hnot =>
    obtain rfl := Option.some.inj hd
    cases point with
    | availability | begin | discover | apply =>
      exact kept_fail h hs ht (by simp [Task.works]) (by simp [Task.endGuard])
        fun hg happ => hends (by simpa [Task.works] using hg) rfl happ
    | endCompleted call =>
      refine kept_fail h hs ht (by simp [Task.works]) (fun hne he => ?_) fun hg happ => ?_
      · cases call with
        | pending => exact absurd (Option.some.inj he) hne
        | acted | declined => cases he
      · simp [hfit.completed a call rfl hg] at happ
    | endUnavailable call g =>
      have hlt : a.generation < s.generation := hfit.bounded.1.trans_le hfit.bounded.2
      refine kept_fail h hs ht (by simp [Task.works]) (fun _ he => hrel ?_)
        fun hg => absurd hg hlt.ne
      simp [settleOrphans, he, Task.retries]
    | endFailed call g => exact absurd rfl (hnot call g)
  next value =>
    obtain rfl := Option.some.inj hd
    refine kept_whenCurrent h hs ht (by simp [Task.works]) (by simp [Task.endGuard]) fun hg => ?_
    exact kept_available h.running hg (hends (by simpa [Task.works] using hg))
  next call gameLimit =>
    split_ifs at hd
    obtain rfl := Option.some.inj hd
    refine kept_whenCurrent h hs ht (by simp [Task.works]) (by simp [Task.endGuard]) fun hg => ?_
    exact kept_proceed h.running hg (hends (by simpa [Task.works] using hg))
  next gameLimit discovery =>
    obtain rfl := Option.some.inj hd
    refine kept_whenCurrent h hs ht (by simp [Task.works]) (by simp [Task.endGuard]) fun hg => ?_
    have hb := backs_putFiltered c (s.updateGames setup c.now c.shuttingDown discovery)
    have hf := Session.sameControl_updateGames setup c.now c.shuttingDown discovery s
    refine kept_refilter (hb.shuttingDown.trans h.running) (hg.trans hf.generation.symm)
      fun hend happ => ?_
    rw [hb.effects]
    rw [hb.now, h.running] at hend
    exact hends (by simpa [Task.works] using hg) hend (hf.applied ▸ happ)
  next call appIds warmingUp =>
    split_ifs at hd
    obtain rfl := Option.some.inj hd
    refine kept_whenCurrent h hs ht (by simp [Task.works]) (by simp [Task.endGuard]) fun hg => ?_
    exact kept_arm h.running _ _
  next call g =>
    split_ifs at hd with hcall
    obtain rfl := Option.some.inj hd
    exact kept_returns h hs ht rfl (by cases call <;> simp_all [Task.endGuard])
  next call =>
    split_ifs at hd with hcall
    obtain rfl := Option.some.inj hd
    exact kept_returns h hs ht rfl (by cases call <;> simp_all [Task.endGuard])
  next call g =>
    split_ifs at hd with hcall
    obtain rfl := Option.some.inj hd
    exact kept_returns h hs ht rfl (by cases call <;> simp_all [Task.endGuard])
  next => cases hd

theorem kept_settleScan {generation : ℕ} {outcome : Outcome} (h : c.Kept) (hc : Shape c s)
    (hs : c.session = some s) (ht : c.tasks.lookup id = some (.scan generation))
    (hd : c.settleScan setup id generation outcome = some d) : d.Kept := by
  have hfinish : (c.finish id).Kept := kept_finish h hs ht rfl (fun he => by cases he)
  unfold settleScan at hd
  simp only [hs] at hd
  split at hd
  next discovery =>
    split_ifs at hd
    · obtain rfl := Option.some.inj hd
      have hb := backs_putFiltered c (s.updateGames setup c.now c.shuttingDown discovery)
      have hf := Session.sameControl_updateGames setup c.now c.shuttingDown discovery s
      have hput := h.backs hc hs hb (putFiltered_session _ _) hf.generation
      have hid := hb.kept id _ ht (hc.taskFresh id _ ht)
      refine hput.idle id (putFiltered_session _ _) rfl rfl rfl rfl rfl rfl
        (fun k t hk hkid => (lookup_finish k).trans ((if_neg hkid).trans hk)) fun t hk => ?_
      obtain rfl := Option.some.inj (hid.symm.trans hk)
      exact ⟨rfl, fun he => by cases he⟩
    · obtain rfl := Option.some.inj hd
      exact hfinish
  next =>
    split_ifs at hd
    · obtain rfl := Option.some.inj hd
      refine h.idle id hs rfl rfl rfl rfl rfl rfl
        (fun k t hk hkid => (lookup_finish k).trans ((if_neg hkid).trans hk)) fun t hk => ?_
      obtain rfl := Option.some.inj (ht.symm.trans hk)
      exact ⟨rfl, fun he => by cases he⟩
    · obtain rfl := Option.some.inj hd
      exact hfinish
  next => cases hd

theorem kept_settleStarted {resumed : Bool} {generation : ℕ} (h : c.Kept)
    (hs : c.session = some s) (ht : c.tasks.lookup id = some (.started generation resumed)) :
    (c.settleStarted id resumed).Kept := by
  unfold settleStarted
  simp only [hs]
  have hid (t : Task) (hk : c.tasks.lookup id = some t) : t.works s.generation = false ∧
      (t.endGuard = some s.generation → holdsSelection c.effects = false) := by
    obtain rfl := Option.some.inj (ht.symm.trans hk)
    exact ⟨rfl, fun he => by cases he⟩
  by_cases hact : s.isActive = true
  · rw [if_pos hact]
    refine h.idle id hs rfl ?_ rfl rfl rfl rfl
      (fun k t hk hkid => (lookup_finish k).trans ((if_neg hkid).trans hk)) hid
    cases resumed <;> rfl
  · rw [if_neg hact]
    exact kept_finish h hs ht rfl fun he => by cases he

theorem kept_settlePricing {outcome : Outcome} {appIds : List AppId} (h : c.Kept)
    (hs : c.session = some s) (ht : c.tasks.lookup id = some (.pricing appIds))
    (hd : c.settlePricing setup id outcome = some d) : d.Kept := by
  have hid (t : Task) (hk : c.tasks.lookup id = some t) : t.works s.generation = false ∧
      (t.endGuard = some s.generation → holdsSelection c.effects = false) := by
    obtain rfl := Option.some.inj (ht.symm.trans hk)
    exact ⟨rfl, fun he => by cases he⟩
  unfold settlePricing at hd
  simp only [hs] at hd
  split at hd
  next values =>
    obtain rfl := Option.some.inj hd
    exact h.idle id hs rfl rfl rfl rfl rfl rfl
      (fun k t hk hkid => (lookup_await k _).trans ((if_neg hkid).trans hk)) hid
  next =>
    obtain rfl := Option.some.inj hd
    exact h.idle id hs hs rfl rfl rfl rfl rfl
      (fun k t hk hkid => (lookup_await k _).trans ((if_neg hkid).trans hk)) hid
  next => cases hd

theorem kept_settlePriced (h : c.Kept) (hs : c.session = some s)
    (ht : c.tasks.lookup id = some .priced) : (c.settlePriced id).Kept := by
  unfold settlePriced
  simp only [hs]
  refine h.idle id hs rfl rfl rfl rfl rfl rfl
    (fun k t hk hkid => (lookup_finish k).trans ((if_neg hkid).trans hk)) fun t hk => ?_
  obtain rfl := Option.some.inj (ht.symm.trans hk)
  exact ⟨rfl, fun he => by cases he⟩

theorem kept_settle {outcome : Outcome} (h : c.Kept) (hc : Shaped c)
    (ho : c.orderly setup (.settle id outcome) = true)
    (hd : c.settle setup id outcome = some d) : d.Kept := by
  unfold settle at hd
  split at hd
  next generation outcome ht =>
    obtain ⟨s, hs, hshape⟩ := session_of_task hc ht
    exact kept_settleScan h hshape hs ht hd
  next a point outcome ht =>
    obtain ⟨s, hs, hshape⟩ := session_of_task hc ht
    exact kept_settleAdvance h hshape hs ht ho hd
  next ht =>
    obtain ⟨s, hs, -⟩ := session_of_task hc ht
    obtain rfl := Option.some.inj hd
    exact kept_settleStarted h hs ht
  next g call ht =>
    obtain ⟨s, hs, -⟩ := session_of_task hc ht
    obtain rfl := Option.some.inj hd
    refine kept_finish h hs ht rfl fun he => settleOrphans_of_orderly hs ht ho ?_
    cases call with
    | pending => simpa [settleOrphans] using Option.some.inj he
    | acted | declined => cases he
  next g call ht =>
    obtain ⟨s, hs, -⟩ := session_of_task hc ht
    split_ifs at hd with hcall
    obtain rfl := Option.some.inj hd
    refine kept_finish h hs ht rfl fun he => ?_
    cases call with
    | pending => exact absurd rfl hcall
    | acted | declined => cases he
  next ht =>
    obtain ⟨s, hs, -⟩ := session_of_task hc ht
    exact kept_settlePricing h hs ht hd
  next ht =>
    obtain ⟨s, hs, -⟩ := session_of_task hc ht
    obtain rfl := Option.some.inj hd
    exact kept_settlePriced h hs ht
  next => cases hd

theorem kept_congr (h : c.Kept) (hs : d.session = c.session) (htasks : d.tasks = c.tasks)
    (htimers : d.timers = c.timers) (heffects : d.effects = c.effects) (hcause : d.cause = c.cause)
    (hdown : d.shuttingDown = false) : d.Kept := by
  refine ⟨hdown, fun hn => hcause.trans (h.fresh (hs ▸ hn)), fun s hds hc hno hsel => ?_⟩
  have hend := h.ended s (hs ▸ hds) (hcause ▸ hc)
    (by simpa only [Owned, htasks, htimers] using hno) (heffects ▸ hsel)
  simpa only [endPending, hs, htasks] using hend

/-- An orderly step leaves no selection behind. -/
theorem kept_next {action : Action} (h : c.Kept) (hc : Shaped c)
    (ho : c.orderly setup action = true)
    (hd : (controllerMachine setup).next c action = some d) : d.Kept := by
  cases action with
  | snapshot => obtain rfl := Option.some.inj hd; exact kept_touch h hc _
  | scan => obtain rfl := Option.some.inj hd; exact kept_scan h hc ho
  | start => obtain rfl := Option.some.inj hd; exact kept_start h hc _ _ _
  | reconfigure => obtain rfl := Option.some.inj hd; exact kept_reconfigure h hc _
  | halt => obtain rfl := Option.some.inj hd; exact kept_halt h _
  | stop => obtain rfl := Option.some.inj hd; exact kept_stop h hc
  | beginShutdown => cases ho
  | initializeAgain => obtain rfl := Option.some.inj hd; exact kept_congr h rfl rfl rfl rfl rfl rfl
  | fire => exact kept_fire h hc hd
  | act => exact kept_act h hc hd
  | settle => exact kept_settle h hc ho hd
  | tick => obtain rfl := Option.some.inj hd; exact kept_congr h rfl rfl rfl rfl rfl h.running

theorem kept_empty : empty.Kept :=
  ⟨rfl, fun _ => rfl, fun _ hs => by cases hs⟩

theorem kept_of_reachable
    (h : (controllerMachine setup).ReachableWhen (fun c action => c.orderly setup action = true) c) :
    c.Kept :=
  h.invariant_of (by rintro _ rfl; exact kept_empty) fun _ _ _ hr hk ho hn =>
    kept_next hk (shaped_of_reachable hr.reachable) ho hn

/-- Every call has settled and no timer is due; a price lookup is not a call. -/
def Quiet (c : Controller) : Prop :=
  (∀ id t, c.tasks.lookup id = some t → t.guard = none) ∧
    ∀ timer t, c.timers.lookup timer = some t → c.now < t.due

/-- The session ended by itself: it was stopped, completed, failed, or found the
account unavailable. -/
def EndedByItself (c : Controller) : Prop :=
  c.isActive = false ∧ c.cause.any (· ≠ .halt) = true
  deriving Decidable

theorem guard_of_endGuard {g : ℕ} (h : t.endGuard = some g) : t.guard = some g := by
  cases t with
  | advance a point => cases point <;> simp_all [Task.endGuard, Task.guard] <;> grind
  | stop g call => cases call <;> simp_all [Task.endGuard, Task.guard]
  | scan | started | pricing | priced => cases h

/-- In orderly runs no selection outlives the session that applied it. -/
theorem no_orphaned_selection
    (h : (controllerMachine setup).ReachableWhen (fun c action => c.orderly setup action = true) c)
    (hquiet : c.Quiet) (hended : c.EndedByItself) : holdsSelection c.effects = false := by
  have hk := kept_of_reachable h
  have hc := shaped_of_reachable h.reachable
  obtain ⟨hact, hcause⟩ := hended
  cases hs : c.session with
  | none => simp [hk.fresh hs] at hcause
  | some s =>
    have hactive : s.isActive = false := by simpa [isActive, hs] using hact
    by_contra hsel
    have hend := hk.ended s hs hcause (not_owned_of_inactive ((shaped_some hs).mp hc) hactive)
      (by simpa using hsel)
    obtain ⟨k, t, hkt, hg⟩ := (endPending_iff hs).mp hend
    have hguard := guard_of_endGuard hg
    simp [hquiet.1 k t hkt] at hguard

theorem quiet_of_isEmpty (htasks : c.tasks.entries.isEmpty = true)
    (htimers : c.timers.entries.isEmpty = true) : c.Quiet := by
  refine ⟨fun id t ht => ?_, fun timer t ht => ?_⟩
  · rw [Table.lookup_eq_some_iff, List.isEmpty_iff.mp htasks] at ht
    cases ht
  · rw [Table.lookup_eq_some_iff, List.isEmpty_iff.mp htimers] at ht
    cases ht

/-- The account is in farming mode and the badge request is pending. -/
def begun : List Action :=
  [.start {} none false, .settle 0 (.availability ⟨true, none, 32⟩), .act 0, .settle 0 .done]

/-- A scan arrives while the end of the stopped farming is pending. -/
def scannedWhileEnding : List Action :=
  begun ++ [.stop, .scan {} none, .act 1, .settle 1 .done, .settle 2 (.discovery ⟨[], false⟩),
    .settle 0 .failed, .settle 0 .done]

/-- The calls, timers and completions of a process that goes on. -/
def noShutdown : Action → Bool
  | .beginShutdown => false
  | _ => true

theorem scan_orphans_selection :
    ¬∀ c, (controllerMachine plainSetup).ReachableWhen (fun _ action => noShutdown action = true) c →
        c.Quiet → c.EndedByItself → holdsSelection c.effects = false := by
  intro h
  have hrun : (controllerMachine plainSetup).ReachableWhen
      (fun _ action => noShutdown action = true) (((controllerMachine plainSetup).execWhen
        (fun _ action => noShutdown action) .empty scannedWhileEnding).getD .empty) :=
    Machine.reachable_execWhen (fun _ _ ha => ha) rfl (by decide)
  exact absurd (h _ hrun (quiet_of_isEmpty (by decide) (by decide)) (by decide)) (by decide)

/-- The stopped farming is ended before anything else happens. -/
def stoppedQuietly : List Action :=
  begun ++ [.stop, .act 1, .settle 1 .done, .settle 0 .failed, .settle 0 .done]

theorem no_orphaned_selection_stoppedQuietly :
    holdsSelection (((controllerMachine plainSetup).execWhen
      (fun c action => c.orderly plainSetup action) .empty stoppedQuietly).getD .empty).effects =
        false :=
  no_orphaned_selection
    (Machine.reachable_execWhen (fun _ _ ha => ha) rfl (by decide))
    (quiet_of_isEmpty (by decide) (by decide)) (by decide)

end Controller
end SteamBee.Farming
