import SteamBee.Farming.Shape

/-! Superseded operations: once the generation has advanced, which continuations of an
older call still change something. -/
namespace SteamBee.Farming
open Transition

def Task.guard : Task → Option ℕ
  | .scan g | .started g _ | .stop g _ => some g
  | .advance _ (.endUnavailable _ g) | .advance _ (.endFailed _ g) => some g
  | .advance a _ => some a.generation
  | .pricing _ | .priced => none

/-- `start` after its `await advance`. -/
def Task.isStarted : Task → Bool
  | .started _ _ => true
  | _ => false

namespace Controller
variable {setup : Setup} {c d : Controller} {s : Session} {id : TaskId} {a : Advance} {t : Task}

/-- The generation the task was made for is not current any more. -/
def Superseded (c : Controller) (t : Task) : Prop :=
  ∃ g, t.guard = some g ∧ c.isCurrent g = false

/-- The continuations of a task: its adapter call acts, or its promise settles. -/
def Continues (setup : Setup) (c : Controller) (id : TaskId) (d : Controller) : Prop :=
  c.act id = some d ∨ ∃ outcome, c.settle setup id outcome = some d

/-- No change of the session, no timer, no write of the marker, no effect outside. -/
structure Inert (c d : Controller) : Prop where
  session : d.session = c.session
  timers : d.timers = c.timers
  marker : d.marker = c.marker
  effects : d.effects = c.effects

theorem inert_finish (c : Controller) (id : TaskId) : c.Inert (c.finish id) := ⟨rfl, rfl, rfl, rfl⟩

theorem inert_returns (c : Controller) (id : TaskId) (a : Advance) : c.Inert (c.returns id a) :=
  ⟨returns_session, returns_timers, returns_marker, returns_effects⟩

theorem inert_whenCurrent (h : c.isCurrent a.generation = false) (k : Session → Controller) :
    c.Inert (c.whenCurrent id a k) := by
  unfold whenCurrent
  split
  next => exact inert_returns c id a
  next =>
    rw [if_neg (by simp [h])]
    exact inert_returns c id a

theorem inert_perform {generation : ℕ} {effect : Effect} {task : CallState → Task}
    (h : c.isCurrent generation = false) : c.Inert (c.perform id generation effect task) := by
  unfold perform
  rw [if_neg (by simp [h])]
  exact ⟨rfl, rfl, rfl, rfl⟩

/-- The generation of an `advance` that cleans up after its own halt is not current. -/
theorem not_current_of_lt (hs : c.session = some s) {generation : ℕ}
    (hlt : generation < s.generation) : c.isCurrent generation = false := by
  by_contra hcur
  have := ((isCurrent_iff hs generation).mp (by simpa using hcur)).2
  omega

/-- An older `advance` is inert wherever it resumes. -/
theorem inert_settleAdvance {point : Point} {outcome : Outcome} (h : Shape c s)
    (hs : c.session = some s) (ht : c.tasks.lookup id = some (.advance a point))
    (hsup : c.Superseded (.advance a point))
    (hd : c.settleAdvance setup id a point outcome = some d) : c.Inert d := by
  have hcur : c.isCurrent a.generation = false := by
    obtain ⟨g, hg, hcur⟩ := hsup
    have hb := (h.fits id _ ht).bounded
    cases point with
    | endUnavailable | endFailed => exact not_current_of_lt hs (hb.1.trans_le hb.2)
    | _ => exact Option.some.inj hg ▸ hcur
  unfold settleAdvance at hd
  split at hd
  next => obtain rfl := Option.some.inj hd; exact inert_returns c id a
  next => obtain rfl := Option.some.inj hd; exact inert_whenCurrent hcur _
  next => obtain rfl := Option.some.inj hd; exact inert_whenCurrent hcur _
  next => split_ifs at hd; obtain rfl := Option.some.inj hd; exact inert_whenCurrent hcur _
  next => obtain rfl := Option.some.inj hd; exact inert_whenCurrent hcur _
  next => split_ifs at hd; obtain rfl := Option.some.inj hd; exact inert_whenCurrent hcur _
  next => split_ifs at hd; obtain rfl := Option.some.inj hd; exact inert_returns c id a
  next => split_ifs at hd; obtain rfl := Option.some.inj hd; exact inert_returns c id a
  next => split_ifs at hd; obtain rfl := Option.some.inj hd; exact inert_returns c id a
  next => cases hd

theorem inert_settleScan {generation : ℕ} {outcome : Outcome} (hs : c.session = some s)
    (hsup : c.Superseded (.scan generation))
    (hd : c.settleScan setup id generation outcome = some d) : c.Inert d := by
  obtain ⟨g, hg, hcur⟩ := hsup
  obtain rfl : generation = g := Option.some.inj hg
  unfold settleScan at hd
  simp only [hs, hcur, Bool.false_eq_true, if_false] at hd
  split at hd
  next => obtain rfl := Option.some.inj hd; exact inert_finish c id
  next => obtain rfl := Option.some.inj hd; exact inert_finish c id
  next => cases hd

/-- A superseded `start` looks at the activity of the session alone. -/
theorem inert_settleStarted_iff (c : Controller) (id : TaskId) (resumed : Bool) :
    c.Inert (c.settleStarted id resumed) ↔ c.isActive = false := by
  cases hs : c.session with
  | none =>
    simp only [settleStarted, isActive, hs, Option.any_none, iff_true]
    exact inert_finish c id
  | some s =>
    simp only [settleStarted, isActive, hs, Option.any_some]
    by_cases hact : s.isActive = true
    · simp only [hact, if_true, Bool.true_eq_false, iff_false]
      intro h
      exact absurd (congrArg List.length h.effects) (by simp [finish, put, remember, emit])
    · simp only [hact, if_false, Bool.false_eq_true]
      exact iff_of_true (inert_finish c id) trivial

theorem inert_settle (hc : Shaped c) (ht : c.tasks.lookup id = some t) (hsup : c.Superseded t)
    (hn : ¬(t.isStarted = true ∧ c.isActive = true)) {outcome : Outcome}
    (hd : c.settle setup id outcome = some d) : c.Inert d := by
  obtain ⟨s, hs, hshape⟩ := session_of_task hc ht
  unfold settle at hd
  rw [ht] at hd
  split at hd
  next heq => cases Option.some.inj heq; exact inert_settleScan hs hsup hd
  next heq => cases Option.some.inj heq; exact inert_settleAdvance hshape hs ht hsup hd
  next heq =>
    cases Option.some.inj heq
    obtain rfl := Option.some.inj hd
    exact (inert_settleStarted_iff c id _).mpr (by simpa [Task.isStarted] using hn)
  next => obtain rfl := Option.some.inj hd; exact inert_finish c id
  next => split_ifs at hd; obtain rfl := Option.some.inj hd; exact inert_finish c id
  next heq =>
    cases Option.some.inj heq
    obtain ⟨g, hg, -⟩ := hsup
    cases hg
  next heq =>
    cases Option.some.inj heq
    obtain ⟨g, hg, -⟩ := hsup
    cases hg
  next => cases hd

theorem inert_act (ht : c.tasks.lookup id = some t) (hsup : c.Superseded t)
    (hd : c.act id = some d) : c.Inert d := by
  obtain ⟨g, hg, hcur⟩ := hsup
  unfold act at hd
  rw [ht] at hd
  split at hd
  next heq =>
    cases Option.some.inj heq
    obtain rfl := Option.some.inj hd
    exact inert_perform (Option.some.inj hg ▸ hcur)
  next heq =>
    cases Option.some.inj heq
    obtain rfl := Option.some.inj hd
    exact inert_perform (Option.some.inj hg ▸ hcur)
  next heq =>
    cases Option.some.inj heq
    obtain rfl := Option.some.inj hd
    exact inert_perform (Option.some.inj hg ▸ hcur)
  next heq =>
    cases Option.some.inj heq
    obtain rfl := Option.some.inj hd
    exact inert_perform (Option.some.inj hg ▸ hcur)
  next heq =>
    cases Option.some.inj heq
    obtain rfl := Option.some.inj hd
    exact inert_perform (Option.some.inj hg ▸ hcur)
  next heq =>
    cases Option.some.inj heq
    obtain rfl := Option.some.inj hd
    exact inert_perform (Option.some.inj hg ▸ hcur)
  next => cases hd

/-- A timer of an older generation only clears itself. -/
theorem fire_of_not_current {timer : TimerId} {tm : Timer} (ht : c.timers.lookup timer = some tm)
    (hcur : c.isCurrent tm.generation = false) (hd : c.fire timer = some d) :
    d.session.map Session.snapshot = c.session.map Session.snapshot ∧ d.tasks = c.tasks ∧
      d.timers = c.timers.erase timer ∧ d.marker = c.marker ∧ d.effects = c.effects := by
  unfold fire at hd
  rw [ht] at hd
  split at hd
  next t' s heq hs =>
    obtain rfl : tm = t' := Option.some.inj heq
    have hcur' : ({ c with timers := c.timers.erase timer }.put
        { s with timer := none }).isCurrent tm.generation = false := by
      simpa [isCurrent, put, hs] using hcur
    simp only [hcur', Bool.false_eq_true, if_false] at hd
    split_ifs at hd
    obtain rfl := Option.some.inj hd
    exact ⟨by simp [put, hs], rfl, rfl, rfl, rfl⟩
  next => cases hd

/-- Superseded continuations change nothing, except that of a `start` that finds the
session active, which always does. -/
theorem superseded_inert_iff (hr : (controllerMachine setup).Reachable c) :
    (∀ id t, c.tasks.lookup id = some t → c.Superseded t →
      ((∀ d, c.Continues setup id d → c.Inert d) ↔
        ¬(t.isStarted = true ∧ c.isActive = true))) ∧
    ∀ timer tm d, c.timers.lookup timer = some tm → c.isCurrent tm.generation = false →
      c.fire timer = some d →
        d.session.map Session.snapshot = c.session.map Session.snapshot ∧ d.tasks = c.tasks ∧
          d.timers = c.timers.erase timer ∧ d.marker = c.marker ∧ d.effects = c.effects := by
  refine ⟨fun id t ht hsup => ⟨fun h ⟨hst, hact⟩ => ?_, fun hn d hd => ?_⟩,
    fun timer tm d ht hcur hd => fire_of_not_current ht hcur hd⟩
  · cases t with
    | started generation resumed =>
      have hd : c.settle setup id .done = some (c.settleStarted id resumed) := by
        simp only [settle, ht]
      have hactive := (inert_settleStarted_iff c id resumed).mp (h _ (.inr ⟨_, hd⟩))
      simp [hact] at hactive
    | _ => cases hst
  · rcases hd with hd | ⟨outcome, hd⟩
    · exact inert_act ht hsup hd
    · exact inert_settle (shaped_of_reachable hr) ht hsup hn hd

def plainSetup : Setup := { accountId := "bee", localeCompare := compare }

/-- A start whose badge request is pending is stopped, and a scan begins. -/
def stoppedStart : List Action :=
  [.start {} none false, .stop, .scan {} none,
    .settle 0 (.availability ⟨true, none, 32⟩), .tick 1]

def stoppedStartRun : Controller :=
  ((controllerMachine plainSetup).exec .empty stoppedStart).getD .empty

theorem reachable_stoppedStartRun : (controllerMachine plainSetup).Reachable stoppedStartRun :=
  Machine.reachable_exec rfl (by decide)

theorem stopped_start_remembers : ¬∀ c, (controllerMachine plainSetup).Reachable c →
    ∀ id t, c.tasks.lookup id = some t → c.Superseded t →
      ∀ d, c.Continues plainSetup id d → c.Inert d := by
  intro h
  have hinert := h stoppedStartRun reachable_stoppedStartRun 0 (.started 1 false) (by decide)
    ⟨1, rfl, by decide⟩ _ (.inr ⟨.done, rfl⟩)
  exact absurd hinert.marker (by decide)

theorem superseded_inert_stoppedStartRun :
    stoppedStartRun.tasks.lookup 1 = some (.stop 2 .pending) ∧
      ∀ d, stoppedStartRun.Continues plainSetup 1 d → stoppedStartRun.Inert d :=
  ⟨by decide, ((superseded_inert_iff reachable_stoppedStartRun).1 1 (.stop 2 .pending)
    (by decide) ⟨2, rfl, by decide⟩).mpr (by simp [Task.isStarted])⟩

end Controller
end SteamBee.Farming
