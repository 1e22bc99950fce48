import SteamBee.Transition.Async
import SteamBee.Transition.Machine

/-! A queue that runs asynchronous operations one at a time over a shared state. Beside it, events
change the state, leave operations in the queue and may end the process. -/
namespace Transition
variable {σ π ρ ω ε : Type}

structure SerialQueue (σ π ρ ω : Type) where
  state : σ
  running : Option (Pause σ π ρ Unit)
  waiting : List ω

/-- What an event does: the state after it, the operations that join the queue, and whether the
process has ended with what ran and waited. -/
structure Occurrence (σ ω : Type) where
  state : σ
  joining : List ω
  ends : Bool

structure Service (σ π ρ ω ε : Type) where
  Starts : σ → Prop
  body : ω → Async σ π ρ Unit
  occur : σ → ε → Option (Occurrence σ ω)

/-- The first operation begins, what the running one awaits settles, or an event occurs. -/
inductive SerialAction (ρ ε : Type) where
  | begin
  | settle (reply : ρ)
  | occur (event : ε)

namespace SerialQueue

def advance (q : SerialQueue σ π ρ ω) (p : σ × Pause σ π ρ Unit) : SerialQueue σ π ρ ω :=
  { q with
    state := p.1
    running :=
      match p.2 with
      | .awaiting point after rest => some (.awaiting point after rest)
      | _ => none }

def begin (S : Service σ π ρ ω ε) (q : SerialQueue σ π ρ ω) : Option (SerialQueue σ π ρ ω) :=
  match q.running, q.waiting with
  | none, op :: rest => some ({ q with waiting := rest }.advance (S.body op q.state))
  | _, _ => none

def settle (q : SerialQueue σ π ρ ω) (reply : ρ) : Option (SerialQueue σ π ρ ω) :=
  match q.running with
  | some (.awaiting _ after rest) => some (q.advance (after reply q.state, rest reply q.state))
  | _ => none

def occur (q : SerialQueue σ π ρ ω) (o : Occurrence σ ω) : SerialQueue σ π ρ ω :=
  if o.ends then ⟨o.state, none, o.joining⟩
  else { q with state := o.state, waiting := q.waiting ++ o.joining }

def Keeps (D : Discipline σ π ρ) (P : σ → Prop) (q : SerialQueue σ π ρ ω) : Prop :=
  match q.running with
  | none => P q.state
  | some p => D.Holds (fun _ => P) P p q.state

end SerialQueue

def Service.machine (S : Service σ π ρ ω ε) :
    Machine (SerialQueue σ π ρ ω) (SerialAction ρ ε) where
  Starts q := S.Starts q.state ∧ q.running = none ∧ q.waiting = []
  next q
    | .begin => q.begin S
    | .settle reply => q.settle reply
    | .occur event => (S.occur q.state event).map q.occur

/-- `P` is kept by every operation under the discipline and by every event, which does no more to
a running operation than the discipline lets it. -/
structure Service.Keeps (S : Service σ π ρ ω ε) (D : Discipline σ π ρ) (P : σ → Prop) : Prop where
  starts : ∀ s, S.Starts s → P s
  inv : ∀ point s, D.Inv point s → P s
  allowed : ∀ point reply s, D.Allowed point reply s
  body : ∀ op s, P s → D.Always (fun _ => P) P (S.body op) s
  occur : ∀ s event o, P s → S.occur s event = some o →
    P o.state ∧ (o.ends = false → D.Rely s o.state)

namespace SerialQueue
variable {S : Service σ π ρ ω ε} {D : Discipline σ π ρ} {P : σ → Prop}
  {q t : SerialQueue σ π ρ ω} {a : SerialAction ρ ε}

theorem Keeps.state (h : q.Keeps D P) (hinv : ∀ point s, D.Inv point s → P s) : P q.state := by
  unfold Keeps at h
  split at h
  · exact h
  next p _ =>
    cases p with
    | returned => exact h
    | thrown => exact h
    | awaiting point => exact hinv point _ h.1

theorem Keeps.advance {p : σ × Pause σ π ρ Unit} (h : D.Holds (fun _ => P) P p.2 p.1) :
    (q.advance p).Keeps D P := by
  obtain ⟨s, pause⟩ := p
  cases pause with
  | returned => exact h
  | thrown => exact h
  | awaiting => exact h

theorem Keeps.next (hS : S.Keeps D P) (h : q.Keeps D P) (hn : S.machine.next q a = some t) :
    t.Keeps D P := by
  cases a with
  | begin =>
    simp only [Service.machine, begin] at hn
    split at hn
    next op rest hrunning hwaiting =>
      obtain rfl := Option.some.inj hn
      exact advance (hS.body op q.state (h.state hS.inv)).2
    next => cases hn
  | settle reply =>
    simp only [Service.machine, settle] at hn
    split at hn
    next point after rest hrunning =>
      obtain rfl := Option.some.inj hn
      unfold Keeps at h
      rw [hrunning] at h
      exact advance (h.2 q.state (D.rely_refl q.state) reply (hS.allowed point reply _)).2
    next => cases hn
  | occur event =>
    obtain ⟨o, ho, rfl⟩ := Option.map_eq_some_iff.mp hn
    obtain ⟨hstate, hrely⟩ := hS.occur q.state event o (h.state hS.inv) ho
    unfold occur
    split_ifs with hends
    · exact hstate
    · unfold Keeps at h ⊢
      dsimp only
      cases hrunning : q.running with
      | none => exact hstate
      | some p =>
        rw [hrunning] at h
        cases p with
        | returned => exact hstate
        | thrown => exact hstate
        | awaiting => exact h.interfere (hrely (Bool.eq_false_iff.mpr hends))

/-- The rule for what holds in every run. -/
theorem keeps_of_reachable {C : SerialQueue σ π ρ ω → SerialAction ρ ε → Prop}
    (hS : S.Keeps D P) (h : S.machine.ReachableWhen C q) : P q.state := by
  have hkeeps : q.Keeps D P := by
    refine h.invariant ?_ fun s a t hs _ hn => hs.next hS hn
    rintro s ⟨hstarts, hrunning, -⟩
    unfold Keeps
    rw [hrunning]
    exact hS.starts s.state hstarts
  exact hkeeps.state hS.inv

end SerialQueue
end Transition
