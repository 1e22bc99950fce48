import SteamBee.Farming.Follows
import SteamBee.Farming.Service
import SteamBee.Farming.Superseded

/-! Ends of farming are final: from the last halt of an explicit end on, what is still
pending may not start farming or bring the resume marker back. -/
namespace SteamBee.Farming
open Transition
namespace Service
variable {setup : Setup} {v w : Service}

/-- An explicit end has made its last halt, and no start request has been received since
it returned. -/
def isSealed (v : Service) : Bool := v.ended || v.ends.entries.any fun e => e.2.pastHalt

/-- The request waits for an availability after which it captures its intent. -/
def StartPoint.captures : StartPoint → Bool
  | .availability | .resumeForFarming => true
  | _ => false

def isStartReceived : ServiceAction → Bool
  | .startReceived => true
  | _ => false

/-- The steps that keep an end final: nothing that was pending at the last halt gets
past its checks after it, the halt finds a session or no marker, and no superseded
`start` finds the session active. -/
def respectful (v : Service) : ServiceAction → Bool
  | .startReads id (.availability value) =>
    !(v.isSealed && value.allowed && !v.farm.isActive &&
      (v.starts.lookup id).any StartPoint.captures)
  | .resumeReads id (.availability value) =>
    !(v.isSealed && value.allowed && !v.farm.isActive && !v.farm.shuttingDown &&
      (v.resumes.lookup id).isSome)
  | .endCalled kind => kind.haltsInside || v.farm.session.isSome || !v.farm.marker
  | .endRuns id =>
    (v.ends.lookup id).any (fun e => e.kind == .farmingStop) || v.farm.session.isSome ||
      !v.farm.marker
  | .farm (.settle id _) =>
    !(v.isSealed && v.farm.isActive && (v.farm.tasks.lookup id).any Task.isStarted)
  | _ => true

/-- Everything pending is older than the last halt. -/
structure Stale (v : Service) : Prop where
  marker : v.farm.marker = false
  captured : ∀ id intent, v.starts.lookup id = some (.config intent) →
    ∀ s, v.farm.session = some s → intent < s.generation
  starts : ∀ g, v.farm.HasStart g → ∀ s, v.farm.session = some s → g < s.generation

structure Settled (v : Service) : Prop where
  shaped : Shaped v.farm
  captured : ∀ id intent, v.starts.lookup id = some (.config intent) →
    ∃ s, v.farm.session = some s ∧ intent ≤ s.generation
  final : v.isSealed = true → v.Stale

theorem hasStart_le {c : Controller} (h : Shaped c) {g : ℕ} (hg : c.HasStart g) :
    ∃ s, c.session = some s ∧ g ≤ s.generation := by
  obtain ⟨id, t, ht, hst⟩ := hg
  obtain ⟨s, hs, hshape⟩ := Controller.session_of_task h ht
  exact ⟨s, hs, (hshape.fits id t ht).bounded.startGeneration hst⟩

/-- The controller goes on without a start; the requests stay. -/
theorem Settled.follow {d : Controller} (h : v.Settled) (hf : v.farm.Follows d) (hd : Shaped d)
    (hw : w.farm = d)
    (hstarts : ∀ id intent, w.starts.lookup id = some (.config intent) →
      v.starts.lookup id = some (.config intent))
    (hsealed : w.isSealed = true → v.isSealed = true) : w.Settled := by
  subst hw
  refine ⟨hd, fun id intent hid => ?_, fun hw => ?_⟩
  · obtain ⟨s, hs, hle⟩ := h.captured id intent (hstarts id intent hid)
    obtain ⟨s', hs', hle'⟩ := hf.session s hs
    exact ⟨s', hs', hle.trans hle'⟩
  · have hst := h.final (hsealed hw)
    refine ⟨?_, fun id intent hid s' hs' => ?_, fun g hg s' hs' => ?_⟩
    · by_contra hm
      have hv := hf.marker (by simpa using hm)
      simp [hst.marker] at hv
    · obtain ⟨s, hs, -⟩ := h.captured id intent (hstarts id intent hid)
      obtain ⟨s'', hs'', hle⟩ := hf.session s hs
      obtain rfl : s' = s'' := Option.some.inj (hs'.symm.trans hs'')
      exact (hst.captured id intent (hstarts id intent hid) s hs).trans_le hle
    · obtain ⟨s, hs, -⟩ := hasStart_le h.shaped (hf.starts g hg)
      obtain ⟨s'', hs'', hle⟩ := hf.session s hs
      obtain rfl : s' = s'' := Option.some.inj (hs'.symm.trans hs'')
      exact (hst.starts g (hf.starts g hg) s hs).trans_le hle

/-- Requests come and go without a call of the controller. -/
theorem Settled.requests (h : v.Settled) (hw : w.farm = v.farm)
    (hstarts : ∀ id intent, w.starts.lookup id = some (.config intent) →
      v.starts.lookup id = some (.config intent))
    (hsealed : w.isSealed = true → v.isSealed = true) : w.Settled :=
  h.follow (.refl _) h.shaped hw hstarts hsealed

/-- The last halt of an explicit end makes everything pending stale. -/
theorem Settled.seal {d : Controller} (h : v.Settled) (hf : v.farm.Follows d) (hd : Shaped d)
    (hmarker : d.marker = false)
    (hlt : ∀ s, v.farm.session = some s → ∃ s', d.session = some s' ∧ s.generation < s'.generation)
    (hw : w.farm = d) (hstarts : w.starts = v.starts) : w.Settled := by
  subst hw
  refine ⟨hd, fun id intent hid => ?_, fun _ => ⟨hmarker, fun id intent hid s' hs' => ?_,
    fun g hg s' hs' => ?_⟩⟩
  · obtain ⟨s, hs, hle⟩ := h.captured id intent (hstarts ▸ hid)
    obtain ⟨s', hs', hlt'⟩ := hlt s hs
    exact ⟨s', hs', hle.trans hlt'.le⟩
  · obtain ⟨s, hs, hle⟩ := h.captured id intent (hstarts ▸ hid)
    obtain ⟨s'', hs'', hlt'⟩ := hlt s hs
    obtain rfl : s' = s'' := Option.some.inj (hs'.symm.trans hs'')
    exact hle.trans_lt hlt'
  · obtain ⟨s, hs, hle⟩ := hasStart_le h.shaped (hf.starts g hg)
    obtain ⟨s'', hs'', hlt'⟩ := hlt s hs
    obtain rfl : s' = s'' := Option.some.inj (hs'.symm.trans hs'')
    exact hle.trans_lt hlt'

/-- A halt by an explicit end, which finds a session or no marker. -/
theorem halt_seals {c : Controller} (kind : EndKind)
    (hok : c.session.isSome = true ∨ c.marker = false) :
    (c.halt kind.reason .halt).marker = false ∧ ∀ s, c.session = some s →
      ∃ s', (c.halt kind.reason .halt).session = some s' ∧ s.generation < s'.generation := by
  cases hs : c.session with
  | none =>
    have hmarker : c.marker = false := by simpa [hs] using hok
    simp [Controller.halt, hs, hmarker]
  | some s =>
    have hh := Controller.halts_halt hs kind.reason .halt
    refine ⟨?_, fun s₀ hs₀ => ?_⟩
    · rcases hh.remembered with ⟨-, -, hr⟩ | ⟨-, hm, -⟩
      · exact absurd hr (by cases kind <;> decide)
      · exact hm
    · obtain rfl := Option.some.inj hs₀
      exact ⟨_, hh.session, Nat.lt_succ_self _⟩

/-- `start` never goes back in generations. -/
theorem start_session {c : Controller} {s : Session} (hs : c.session = some s)
    (config : FarmingConfig) (expected : Option ℕ) (resumed : Bool) :
    ∃ s', (c.start setup config expected resumed).2.session = some s' ∧
      s.generation ≤ s'.generation := by
  unfold Controller.start
  split_ifs
  · exact ⟨s, hs, le_rfl⟩
  · have ht : c.Follows (c.touch setup (some config)) := (Controller.Follows.refl c).touch _
    obtain ⟨s₁, hs₁, hle⟩ := ht.session s hs
    dsimp only
    split
    next hn => simp [hs₁] at hn
    next s₂ hs₂ =>
      obtain rfl : s₁ = s₂ := Option.some.inj (hs₁.symm.trans hs₂)
      split_ifs
      · exact ⟨s₁, hs₁, hle⟩
      · exact ⟨s₁, hs₁, hle⟩
      · exact ⟨_, rfl, hle.trans (Nat.le_succ _)⟩

/-- A `start` that is refused changes no more than a snapshot does. -/
theorem start_refused {c : Controller} (config : FarmingConfig) (expected : Option ℕ)
    (resumed : Bool)
    (hno : c.shuttingDown = false → ∀ s, c.session = some s → s.isActive = true ∨
      ∃ intent, expected = some intent ∧ intent ≠ s.generation)
    (hnone : c.shuttingDown = false → c.session ≠ none) :
    c.Follows (c.start setup config expected resumed).2 := by
  have ht : c.Follows (c.touch setup (some config)) := (Controller.Follows.refl c).touch _
  unfold Controller.start
  split_ifs with hdown
  · exact .refl c
  · have hdown : c.shuttingDown = false := by simpa using hdown
    obtain ⟨s, hs⟩ := Option.ne_none_iff_exists'.mp (hnone hdown)
    obtain ⟨s₁, hs₁, -, hsame⟩ : ∃ s', (c.touch setup (some config)).session = some s' ∧
        c.Backs (c.touch setup (some config)) ∧ s.SameControl s' :=
      Controller.touch_backs hs (some config)
    simp only [hs₁]
    split_ifs with hexp hact
    · exact ht
    · exact ht
    · rcases hno hdown s hs with hactive | ⟨intent, rfl, hne⟩
      · exact absurd (hsame.isActive.trans hactive) hact
      · simp [hsame.generation, hne] at hexp

/-- While no end is sealed only the generations matter. -/
theorem Settled.loose (h : v.Settled) (hd : Shaped w.farm) (hopen : w.isSealed = false)
    (hsession : ∀ s, v.farm.session = some s →
      ∃ s', w.farm.session = some s' ∧ s.generation ≤ s'.generation)
    (hstarts : ∀ id intent, w.starts.lookup id = some (.config intent) →
      v.starts.lookup id = some (.config intent)) : w.Settled := by
  refine ⟨hd, fun id intent hid => ?_, fun hw => by simp [hopen] at hw⟩
  obtain ⟨s, hs, hle⟩ := h.captured id intent (hstarts id intent hid)
  obtain ⟨s', hs', hle'⟩ := hsession s hs
  exact ⟨s', hs', hle.trans hle'⟩

theorem isSealed_iff : v.isSealed = true ↔ v.ended = true ∨
    ∃ id e, v.ends.lookup id = some e ∧ e.pastHalt = true := by
  simp only [isSealed, Bool.or_eq_true, List.any_eq_true]
  refine or_congr_right ⟨?_, ?_⟩
  · rintro ⟨⟨id, e⟩, hmem, hpast⟩
    exact ⟨id, e, Table.lookup_eq_some_iff.mpr hmem, hpast⟩
  · rintro ⟨id, e, hid, hpast⟩
    exact ⟨⟨id, e⟩, Table.lookup_eq_some_iff.mp hid, hpast⟩

/-- An end that is registered before its last halt seals nothing. -/
theorem isSealed_insert (id : ℕ) {e : EndRequest} (he : e.pastHalt = false)
    (hended : w.ended = v.ended) (hends : w.ends = v.ends.insert id e)
    (hw : w.isSealed = true) : v.isSealed = true := by
  rw [isSealed_iff] at hw ⊢
  rcases hw with hw | ⟨k, e', hk, hpast⟩
  · exact .inl (hended ▸ hw)
  · rw [hends, Table.lookup_insert_eq] at hk
    split_ifs at hk
    · obtain rfl := Option.some.inj hk
      simp [he] at hpast
    · exact .inr ⟨k, e', hk, hpast⟩

theorem isSealed_erase (id : ℕ) (hended : w.ended = true → v.ended = true)
    (hends : w.ends = v.ends.erase id) (hw : w.isSealed = true) : v.isSealed = true := by
  rw [isSealed_iff] at hw ⊢
  rcases hw with hw | ⟨k, e', hk, hpast⟩
  · exact .inl (hended hw)
  · rw [hends, Table.lookup_erase_eq] at hk
    split_ifs at hk
    exact .inr ⟨k, e', hk, hpast⟩

/-- What a step may do: keep the invariant, and start nothing under a seal. -/
structure Keeps (v w : Service) : Prop where
  settled : w.Settled
  started : v.isSealed = true → startCount w.farm.effects = startCount v.farm.effects

theorem Settled.keeps_follow {d : Controller} (h : v.Settled) (hf : v.farm.Follows d)
    (hd : Shaped d) (hw : w.farm = d)
    (hstarts : ∀ id intent, w.starts.lookup id = some (.config intent) →
      v.starts.lookup id = some (.config intent))
    (hsealed : w.isSealed = true → v.isSealed = true) : v.Keeps w :=
  ⟨h.follow hf hd hw hstarts hsealed, fun _ => hw ▸ hf.started⟩

theorem Settled.keeps_requests (h : v.Settled) (hw : w.farm = v.farm)
    (hstarts : ∀ id intent, w.starts.lookup id = some (.config intent) →
      v.starts.lookup id = some (.config intent))
    (hsealed : w.isSealed = true → v.isSealed = true) : v.Keeps w :=
  ⟨h.requests hw hstarts hsealed, fun _ => by rw [hw]⟩

theorem lookup_starts_insert {id : ℕ} {p : StartPoint} (hp : ∀ intent, p ≠ .config intent)
    (hw : w.starts = v.starts.insert id p) (k intent : ℕ)
    (hk : w.starts.lookup k = some (.config intent)) :
    v.starts.lookup k = some (.config intent) := by
  rw [hw, Table.lookup_insert_eq] at hk
  split_ifs at hk
  · exact absurd (Option.some.inj hk) (hp intent)
  · exact hk

theorem lookup_starts_erase {id : ℕ} (hw : w.starts = v.starts.erase id) (k intent : ℕ)
    (hk : w.starts.lookup k = some (.config intent)) :
    v.starts.lookup k = some (.config intent) := by
  rw [hw, Table.lookup_erase_eq] at hk
  split_ifs at hk
  exact hk

/-- The end of a `start` changes no generation. -/
theorem settleStarted_session {c : Controller} {s : Session} (hs : c.session = some s)
    (id : TaskId) (resumed : Bool) : ∃ s', (c.settleStarted id resumed).session = some s' ∧
      s.generation ≤ s'.generation := by
  unfold Controller.settleStarted
  simp only [hs]
  split_ifs
  · exact ⟨_, rfl, le_rfl⟩
  · exact ⟨_, rfl, le_rfl⟩
  · exact ⟨s, hs, le_rfl⟩

theorem keeps_farm {action : Action} {d : Controller} (h : v.Settled)
    (hn : ∀ config expected resumed, action ≠ .start config expected resumed)
    (hr : v.respectful (.farm action) = true)
    (hd : (controllerMachine setup).next v.farm action = some d) :
    v.Keeps { v with farm := d } := by
  have hshape : Shaped d := Controller.shaped_next h.shaped hd
  by_cases hstarted : ∃ id g resumed outcome, action = .settle id outcome ∧
    v.farm.tasks.lookup id = some (.started g resumed) ∧ v.farm.isActive = true
  · obtain ⟨id, g, resumed, outcome, rfl, ht, hact⟩ := hstarted
    have hopen : v.isSealed = false := by simpa [respectful, ht, hact, Task.isStarted] using hr
    refine ⟨h.loose hshape hopen (fun s hs => ?_) fun _ _ hid => hid, fun hs => ?_⟩
    · have hd : v.farm.settle setup id outcome = some d := hd
      cases outcome with
      | done =>
        simp only [Controller.settle, ht, Option.some.injEq] at hd
        subst hd
        exact settleStarted_session hs id resumed
      | availability | discovery | prices | failed => simp [Controller.settle, ht] at hd
    · simp [hopen] at hs
  · have hf : v.farm.Follows d := by
      refine Controller.follows_next hn (fun id g resumed outcome ha ht => ?_) hd
      by_contra hact
      exact hstarted ⟨id, g, resumed, outcome, ha, ht, by simpa using hact⟩
    exact h.keeps_follow hf hshape rfl (fun _ _ hid => hid) fun hw => hw

theorem touch_session (c : Controller) : ∃ s, (c.touch setup none).session = some s := by
  cases hs : c.session with
  | none => exact ⟨Session.new setup none, by simp [Controller.touch, hs, Controller.put]⟩
  | some s => exact ⟨s, by simp [Controller.touch, hs]⟩

/-- A request captures its intent only while no end is sealed. -/
theorem keeps_captureStart {id : ℕ} {value : AccountAvailability} (h : v.Settled)
    (hr : v.isSealed = true → value.allowed = true → v.farm.isActive = true) :
    v.Keeps (v.captureStart setup id value) := by
  have hf : v.farm.Follows (v.farm.touch setup none) := (Controller.Follows.refl _).touch none
  have hd : Shaped (v.farm.touch setup none) := Controller.shaped_touch h.shaped none
  have hdrop : v.Keeps ({ v with farm := v.farm.touch setup none }.dropStart id) :=
    h.keeps_follow hf hd rfl (lookup_starts_erase rfl) fun hw => hw
  unfold captureStart
  dsimp only
  split_ifs with hallowed hact
  · exact hdrop
  · exact hdrop
  · have hact : ¬(v.farm.touch setup none).isActive = true := hact
    have hidle : v.farm.isActive = false := by
      cases hs : v.farm.session with
      | none => simp [Controller.isActive, hs]
      | some s => simpa [Controller.touch, hs] using hact
    have hopen : v.isSealed = false := by
      by_contra hs
      simpa [hidle] using hr (by simpa using hs) (by simpa using hallowed)
    refine ⟨⟨hd, fun k intent hk => ?_, fun hw => ?_⟩, fun hs => by simp [hopen] at hs⟩
    · rw [Table.lookup_insert_eq] at hk
      split_ifs at hk
      · obtain ⟨s, hs⟩ : ∃ s, (v.farm.touch setup none).session = some s := by
          exact touch_session v.farm
        simp only [Controller.captureIntent, hs, Option.map_some, Option.getD_some, Option.some.injEq,
          StartPoint.config.injEq] at hk
        exact ⟨s, hs, hk.ge⟩
      · obtain ⟨s, hs, hle⟩ := h.captured k intent hk
        obtain ⟨s', hs', hle'⟩ := hf.session s hs
        exact ⟨s', hs', hle.trans hle'⟩
    · have hw : v.isSealed = true := hw
      simp [hopen] at hw

/-- A start with a captured intent: refused under a seal. -/
theorem keeps_start {config : FarmingConfig} {expected : Option ℕ} {resumed : Bool}
    (h : v.Settled) (hw : w.farm = (v.farm.start setup config expected resumed).2)
    (hstarts : ∀ id intent, w.starts.lookup id = some (.config intent) →
      v.starts.lookup id = some (.config intent))
    (hsealed : w.isSealed = v.isSealed)
    (hno : v.isSealed = true → v.farm.shuttingDown = false → ∃ s, v.farm.session = some s ∧
      (s.isActive = true ∨ ∃ intent, expected = some intent ∧ intent ≠ s.generation)) :
    v.Keeps w := by
  have hd : Shaped (v.farm.start setup config expected resumed).2 :=
    Controller.shaped_start h.shaped config expected resumed
  by_cases hs : v.isSealed = true
  · have hf : v.farm.Follows (v.farm.start setup config expected resumed).2 := by
      refine start_refused config expected resumed (fun hdown s hses => ?_) fun hdown hnone => ?_
      · obtain ⟨s', hses', hor⟩ := hno hs hdown
        obtain rfl := Option.some.inj (hses.symm.trans hses')
        exact hor
      · obtain ⟨s', hses', -⟩ := hno hs hdown
        simp [hnone] at hses'
    exact h.keeps_follow hf hd hw hstarts fun hw => hsealed ▸ hw
  · refine ⟨h.loose (hw ▸ hd) (by simpa [hsealed] using hs) (fun s hses => ?_) hstarts,
      fun hv => absurd hv hs⟩
    rw [hw]
    exact start_session hses config expected resumed

theorem keeps_startReads {id : ℕ} {read : Read} (h : v.Settled)
    (hr : v.respectful (.startReads id read) = true) (hd : v.startReads setup id read = some w) :
    v.Keeps w := by
  unfold startReads at hd
  split at hd
  next => cases hd
  next =>
    obtain rfl := Option.some.inj hd
    exact h.keeps_requests rfl (lookup_starts_erase rfl) fun hw => hw
  next =>
    obtain rfl := Option.some.inj hd
    exact h.keeps_requests rfl (lookup_starts_insert (by simp) rfl) fun hw => hw
  next value hid =>
    split_ifs at hd
    · obtain rfl := Option.some.inj hd
      exact h.keeps_requests rfl (lookup_starts_insert (by simp) rfl) fun hw => hw
    · obtain rfl := Option.some.inj hd
      refine keeps_captureStart h fun hs hallowed => ?_
      simpa [respectful, hs, hallowed, hid, StartPoint.captures] using hr
  next value hid =>
    obtain rfl := Option.some.inj hd
    refine keeps_captureStart h fun hs hallowed => ?_
    simpa [respectful, hs, hallowed, hid, StartPoint.captures] using hr
  next intent config hid =>
    obtain rfl := Option.some.inj hd
    refine keeps_start h rfl (lookup_starts_erase rfl) rfl fun hs _ => ?_
    obtain ⟨s, hses, -⟩ := h.captured id intent hid
    have hlt := (h.final hs).captured id intent hid s hses
    exact ⟨s, hses, .inr ⟨intent, rfl, hlt.ne⟩⟩
  next => cases hd

theorem keeps_resumeReads {id : ℕ} {read : Read} (h : v.Settled)
    (hr : v.respectful (.resumeReads id read) = true)
    (hd : v.resumeReads setup id read = some w) : v.Keeps w := by
  have hf : v.farm.Follows (v.farm.touch setup none) := (Controller.Follows.refl _).touch none
  have htouch : Shaped (v.farm.touch setup none) := Controller.shaped_touch h.shaped none
  unfold resumeReads at hd
  split at hd
  next => cases hd
  next =>
    obtain rfl := Option.some.inj hd
    exact h.keeps_requests rfl (fun _ _ hid => hid) fun hw => hw
  next =>
    dsimp only at hd
    split_ifs at hd
    · obtain rfl := Option.some.inj hd
      exact h.keeps_requests rfl (fun _ _ hid => hid) fun hw => hw
    · obtain rfl := Option.some.inj hd
      exact h.keeps_follow hf htouch rfl (fun _ _ hid => hid) fun hw => hw
    · obtain rfl := Option.some.inj hd
      exact h.keeps_follow hf htouch rfl (fun _ _ hid => hid) fun hw => hw
  next config value hid =>
    split_ifs at hd with hallowed
    · obtain rfl := Option.some.inj hd
      exact h.keeps_requests rfl (fun _ _ hid => hid) fun hw => hw
    · obtain rfl := Option.some.inj hd
      refine keeps_start h rfl (fun _ _ hid => hid) rfl fun hs hdown => ?_
      have hact : v.farm.isActive = true := by
        have hallowed : value.allowed = true := by simpa using hallowed
        simpa [respectful, hs, hallowed, hdown, hid] using hr
      obtain ⟨s, hses, hact⟩ := (Option.any_eq_true _ _).mp hact
      exact ⟨s, hses, .inl hact⟩
  next => cases hd

/-- A command's last halt. -/
theorem keeps_lastHalt (kind : EndKind) (h : v.Settled)
    (hok : v.farm.session.isSome = true ∨ v.farm.marker = false)
    (hw : w.farm = v.farm.halt kind.reason .halt) (hstarts : w.starts = v.starts) : v.Keeps w := by
  have hf : v.farm.Follows (v.farm.halt kind.reason .halt) :=
    (Controller.Follows.refl _).halt _ _
  have hd : Shaped (v.farm.halt kind.reason .halt) := Controller.shaped_halt h.shaped _ _
  obtain ⟨hmarker, hlt⟩ := halt_seals kind hok
  exact ⟨h.seal hf hd hmarker hlt hw hstarts, fun _ => hw ▸ hf.started⟩

theorem keeps_endCalled {kind : EndKind} (h : v.Settled)
    (hr : v.respectful (.endCalled kind) = true) : v.Keeps (v.endCalled kind) := by
  have hf : v.farm.Follows (v.farm.halt kind.reason .halt) :=
    (Controller.Follows.refl _).halt _ _
  have hd : Shaped (v.farm.halt kind.reason .halt) := Controller.shaped_halt h.shaped _ _
  have hcalled (hin : kind.haltsInside = true) (hw : (v.endCalled kind).isSealed = true) :
      v.isSealed = true := by
    refine isSealed_insert (w := v.endCalled kind) v.drawn (e := ⟨kind, .called⟩) rfl rfl ?_ hw
    simp [endCalled, hin]
  cases hin : kind.haltsInside with
  | false =>
    have hok : v.farm.session.isSome = true ∨ v.farm.marker = false := by
      simpa [respectful, hin] using hr
    refine keeps_lastHalt kind h hok ?_ rfl
    cases kind with
    | accountStop => rfl
    | _ => simp [EndKind.haltsInside] at hin
  | true =>
    cases hat : kind.haltsAtCall with
    | false =>
      refine h.keeps_requests ?_ (fun _ _ hid => hid) (hcalled hin)
      simp [endCalled, hat]
    | true =>
      refine h.keeps_follow hf hd ?_ (fun _ _ hid => hid) (hcalled hin)
      simp [endCalled, hat]

/-- The farming stop route. -/
theorem stop_seals (c : Controller) :
    (c.stop setup).2.marker = false ∧ ∀ s, c.session = some s →
      ∃ s', (c.stop setup).2.session = some s' ∧ s.generation < s'.generation := by
  obtain ⟨s₁, hs₁⟩ : ∃ s, (c.touch setup none).session = some s := touch_session c
  have hh := Controller.halts_halt hs₁ "stopped" .stop
  unfold Controller.stop
  simp only [hh.session]
  refine ⟨?_, fun s hs => ⟨_, hh.session, ?_⟩⟩
  · rcases hh.remembered with ⟨-, -, hr⟩ | ⟨-, hm, -⟩
    · exact absurd hr (by decide)
    · exact hm
  · obtain rfl : s = s₁ := by simpa [Controller.touch, hs] using hs₁
    exact Nat.lt_succ_self _

theorem keeps_endRuns {id : ℕ} (h : v.Settled) (hr : v.respectful (.endRuns id) = true)
    (hd : v.endRuns setup id = some w) : v.Keeps w := by
  unfold endRuns at hd
  split at hd
  next =>
    split at hd
    next task farm hstop =>
      obtain rfl := Option.some.inj hd
      obtain rfl : farm = (v.farm.stop setup).2 := by rw [hstop]
      have hf : v.farm.Follows (v.farm.stop setup).2 := Controller.follows_stop
      have hshape : Shaped (v.farm.stop setup).2 := Controller.shaped_stop h.shaped
      obtain ⟨hmarker, hlt⟩ := stop_seals v.farm
      exact ⟨h.seal hf hshape hmarker hlt rfl rfl, fun _ => hf.started⟩
    next => cases hd
  next kind hne hid =>
    obtain rfl := Option.some.inj hd
    have hok : v.farm.session.isSome = true ∨ v.farm.marker = false := by
      have hkind : kind ≠ .farmingStop := fun hk => hne (hk ▸ rfl)
      simpa [respectful, hid, hkind] using hr
    exact keeps_lastHalt _ h hok rfl rfl
  next => cases hd

theorem keeps_endReturns {id : ℕ} (h : v.Settled) (hd : v.endReturns id = some w) :
    v.Keeps w := by
  have hseal (e : EndRequest) (hid : v.ends.lookup id = some e) (he : e.pastHalt = true) :
      v.isSealed = true := isSealed_iff.mpr (.inr ⟨id, e, hid, he⟩)
  unfold endReturns at hd
  split at hd
  next hid =>
    obtain rfl := Option.some.inj hd
    exact h.keeps_requests rfl (fun _ _ hid => hid) fun _ => hseal _ hid rfl
  next hid =>
    split_ifs at hd
    obtain rfl := Option.some.inj hd
    exact h.keeps_requests rfl (fun _ _ hid => hid) fun _ => hseal _ hid rfl
  next => cases hd

/-- A restart empties everything but what is persisted. -/
theorem keeps_restart (h : v.Settled) : v.Keeps v.restart := by
  have hshape : Shaped v.restart.farm :=
    Controller.shaped_congr Controller.shaped_empty rfl rfl rfl rfl
  refine ⟨⟨hshape, fun _ _ hid => (by cases hid), fun hw => ?_⟩, fun _ => rfl⟩
  have hs : v.isSealed = true := by
    refine isSealed_iff.mpr ?_
    rcases isSealed_iff.mp hw with hw | ⟨id, e, hid, -⟩
    · exact .inl hw
    · cases hid
  refine ⟨(h.final hs).marker, fun _ _ hid => (by cases hid), ?_⟩
  rintro g ⟨id, t, ht, -⟩
  cases ht

theorem farm_next {action : Action} (hd : (serviceMachine setup).next v (.farm action) = some w) :
    (∀ config expected resumed, action ≠ .start config expected resumed) ∧
      ∃ d, (controllerMachine setup).next v.farm action = some d ∧ { v with farm := d } = w := by
  cases action with
  | start | stop => cases hd
  | _ => exact ⟨by simp, Option.map_eq_some_iff.mp hd⟩

theorem keeps_next {a : ServiceAction} (h : v.Settled) (hr : v.respectful a = true)
    (hd : (serviceMachine setup).next v a = some w) : v.Keeps w := by
  cases a with
  | farm action =>
    obtain ⟨hn, d, hnext, rfl⟩ := farm_next hd
    exact keeps_farm h hn hr hnext
  | startReceived =>
    obtain rfl := Option.some.inj hd
    refine h.keeps_requests rfl (lookup_starts_insert (by simp) rfl) fun hw => ?_
    rw [isSealed_iff] at hw ⊢
    rcases hw with hw | hw
    · cases hw
    · exact .inr hw
  | startReads => exact keeps_startReads h hr hd
  | resumeCalled =>
    obtain rfl := Option.some.inj hd
    unfold resumeCalled
    split_ifs
    · exact h.keeps_requests rfl (fun _ _ hid => hid) fun hw => hw
    · exact h.keeps_requests rfl (fun _ _ hid => hid) fun hw => hw
  | resumeReads => exact keeps_resumeReads h hr hd
  | endCalled => obtain rfl := Option.some.inj hd; exact keeps_endCalled h hr
  | endRuns => exact keeps_endRuns h hr hd
  | endReturns => exact keeps_endReturns h hd
  | endThrows id =>
    unfold serviceMachine endThrows at hd
    dsimp only at hd
    split at hd
    next =>
      obtain rfl := Option.some.inj hd
      exact h.keeps_requests rfl (fun _ _ hid => hid) (isSealed_erase id (fun hw => hw) rfl)
    next => cases hd
  | restart => obtain rfl := Option.some.inj hd; exact keeps_restart h

theorem settled_empty : Settled empty :=
  ⟨Controller.shaped_empty, fun _ _ h => (by cases h), fun h => (by cases h)⟩

/-- In a run of respectful steps the invariant holds. -/
theorem settled_of_reachable
    (h : (serviceMachine setup).ReachableWhen (fun v a => v.respectful a = true) v) : v.Settled :=
  h.invariant (by rintro _ rfl; exact settled_empty)
    fun _ _ _ hs hr hd => (keeps_next hs hr hd).settled

theorem captureStart_ended (id : ℕ) (value : AccountAvailability) :
    (v.captureStart setup id value).ended = v.ended := by
  unfold captureStart
  dsimp only
  split_ifs <;> rfl

/-- Only a new start request takes back that an end has returned. -/
theorem ended_next {a : ServiceAction} (ha : isStartReceived a = false) (he : v.ended = true)
    (hd : (serviceMachine setup).next v a = some w) : w.ended = true := by
  cases a with
  | farm action =>
    obtain ⟨-, d, -, rfl⟩ := farm_next hd
    exact he
  | startReceived => cases ha
  | startReads id read =>
    have hd : v.startReads setup id read = some w := hd
    unfold startReads at hd
    split at hd
    next => cases hd
    next => obtain rfl := Option.some.inj hd; exact he
    next => obtain rfl := Option.some.inj hd; exact he
    next =>
      split_ifs at hd
      · obtain rfl := Option.some.inj hd; exact he
      · obtain rfl := Option.some.inj hd; rw [captureStart_ended]; exact he
    next => obtain rfl := Option.some.inj hd; rw [captureStart_ended]; exact he
    next => obtain rfl := Option.some.inj hd; exact he
    next => cases hd
  | resumeCalled =>
    obtain rfl := Option.some.inj hd
    unfold resumeCalled
    split_ifs
    · exact he
    · exact he
  | resumeReads id read =>
    have hd : v.resumeReads setup id read = some w := hd
    unfold resumeReads at hd
    split at hd
    next => cases hd
    next => obtain rfl := Option.some.inj hd; exact he
    next =>
      dsimp only at hd
      split_ifs at hd
      · obtain rfl := Option.some.inj hd; exact he
      · obtain rfl := Option.some.inj hd; exact he
      · obtain rfl := Option.some.inj hd; exact he
    next =>
      split_ifs at hd
      · obtain rfl := Option.some.inj hd; exact he
      · obtain rfl := Option.some.inj hd; exact he
    next => cases hd
  | endCalled => obtain rfl := Option.some.inj hd; exact he
  | endRuns id =>
    have hd : v.endRuns setup id = some w := hd
    unfold endRuns at hd
    split at hd
    next =>
      split at hd
      next => obtain rfl := Option.some.inj hd; exact he
      next => cases hd
    next => obtain rfl := Option.some.inj hd; exact he
    next => cases hd
  | endReturns id =>
    have hd : v.endReturns id = some w := hd
    unfold endReturns at hd
    split at hd
    next => obtain rfl := Option.some.inj hd; rfl
    next => split_ifs at hd; obtain rfl := Option.some.inj hd; rfl
    next => cases hd
  | endThrows id =>
    have hd : v.endThrows id = some w := hd
    unfold endThrows at hd
    split at hd
    next => obtain rfl := Option.some.inj hd; exact he
    next => cases hd
  | restart => obtain rfl := Option.some.inj hd; exact he

/-- Once an explicit end has returned, farming neither starts again nor is remembered
until a start request is received. -/
theorem end_is_final
    (hv : (serviceMachine setup).ReachableWhen (fun u a => u.respectful a = true) v)
    (hended : v.ended = true)
    (hl : (serviceMachine setup).Leads
      (fun u a => u.respectful a = true ∧ isStartReceived a = false) v w) :
    startCount w.farm.effects = startCount v.farm.effects ∧ w.farm.marker = false ∧
      w.restart.farm.marker = false := by
  have hkeep : w.Settled ∧ w.ended = true ∧
      startCount w.farm.effects = startCount v.farm.effects := by
    refine hl.keeps (I := fun u => u.Settled ∧ u.ended = true ∧
      startCount u.farm.effects = startCount v.farm.effects)
      ⟨settled_of_reachable hv, hended, rfl⟩ ?_
    rintro u a u' ⟨hu, he, hcount⟩ ⟨hr, ha⟩ hd
    have hk := keeps_next hu hr hd
    exact ⟨hk.settled, ended_next ha he hd, (hk.started (isSealed_iff.mpr (.inl he))).trans hcount⟩
  obtain ⟨hw, he, hcount⟩ := hkeep
  have hmarker := (hw.final (isSealed_iff.mpr (.inl he))).marker
  exact ⟨hcount, hmarker, hmarker⟩

/-- A start request waits for the account while the farming stop returns. -/
def waitingStart : List ServiceAction :=
  [.startReceived, .endCalled .farmingStop, .endRuns 1, .farm (.act 0), .farm (.settle 0 .done),
    .endReturns 1]

def waitingStartRun : Service :=
  ((serviceMachine Controller.plainSetup).exec .empty waitingStart).getD .empty

/-- The request goes on: it captures its intent after the stop. -/
def lateStart : List ServiceAction :=
  [.startReads 0 .done, .startReads 0 (.availability ⟨true, false⟩), .startReads 0 (.config {})]

theorem late_start_farms : ¬∀ v w, (serviceMachine Controller.plainSetup).Reachable v →
    v.ended = true →
    (serviceMachine Controller.plainSetup).Leads (fun _ a => isStartReceived a = false) v w →
    startCount w.farm.effects = startCount v.farm.effects ∧ w.farm.marker = false ∧
      w.restart.farm.marker = false := by
  intro h
  have hv : (serviceMachine Controller.plainSetup).Reachable waitingStartRun :=
    Machine.reachable_exec rfl (by decide)
  have hl : (serviceMachine Controller.plainSetup).Leads (fun _ a => isStartReceived a = false)
      waitingStartRun (((serviceMachine Controller.plainSetup).execWhen
        (fun _ a => !isStartReceived a) waitingStartRun lateStart).getD .empty) :=
    Machine.leads_execWhen (by simp) (by decide)
  have hfinal := h _ _ hv (by decide) hl
  exact absurd hfinal.1 (by decide)

/-- Farming starts and is stopped; then the resume is called and the process restarts. -/
def stoppedFarming : List ServiceAction :=
  [.startReceived, .startReads 0 .done, .startReads 0 (.availability ⟨true, false⟩),
    .startReads 0 (.config {}), .endCalled .farmingStop, .endRuns 1, .farm (.act 1),
    .farm (.settle 1 .done), .endReturns 1]

def stoppedFarmingRun : Service :=
  ((serviceMachine Controller.plainSetup).execWhen respectful .empty stoppedFarming).getD .empty

def restartedRun : Service :=
  ((serviceMachine Controller.plainSetup).execWhen
    (fun u a => u.respectful a && !isStartReceived a) stoppedFarmingRun
    [.resumeCalled, .restart, .resumeCalled]).getD .empty

theorem end_is_final_restarted : stoppedFarmingRun.ended = true ∧
    startCount restartedRun.farm.effects = startCount stoppedFarmingRun.farm.effects ∧
      restartedRun.farm.marker = false ∧ restartedRun.restart.farm.marker = false :=
  ⟨by decide, end_is_final (Machine.reachable_execWhen (fun _ _ h => h) rfl (by decide))
    (by decide) (Machine.leads_execWhen (by simp) (by decide))⟩

end Service
end SteamBee.Farming
