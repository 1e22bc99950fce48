import Mathlib.Data.Nat.Notation

/-! Programs that call operations which may fail, with a rely and guarantee logic: an
invariant holds at every point at which the program can be cut off, whatever fails and
whatever the environment does in between, and a postcondition holds when it returns. -/
namespace Transition

/-- A program over the operations `Op`. A call of `o` returns a result or an error. -/
inductive Program {Op : Type} (Res : Op → Type) (ε α : Type) where
  | pure (a : α)
  | call (o : Op) (k : Except ε (Res o) → Program Res ε α)

namespace Program
variable {Op : Type} {Res : Op → Type} {ε α β σ : Type}

def bind : Program Res ε α → (α → Program Res ε β) → Program Res ε β
  | .pure a, f => f a
  | .call o k, f => .call o fun r => (k r).bind f

instance : Monad (Program Res ε) where
  pure := .pure
  bind := .bind

def perform (o : Op) : Program Res ε (Except ε (Res o)) := .call o .pure

/-- What operations do. The environment may make those fail that `mayFail`, without an
effect. -/
structure Semantics (σ : Type) {Op : Type} (Res : Op → Type) (ε : Type) where
  perform : (o : Op) → σ → Except ε (Res o × σ)
  mayFail : Op → Bool
  failure : Op → ε

namespace Semantics
variable (S : Semantics σ Res ε)

/-- One call in the state `s`; `fail` is the choice of the environment. -/
def step (o : Op) (fail : Bool) (s : σ) : Except ε (Res o) × σ :=
  if fail && S.mayFail o then (.error (S.failure o), s)
  else match S.perform o s with
    | .error e => (.error e, s)
    | .ok (r, s') => (.ok r, s')

/-- Run a program without interference; the list says which calls fail. -/
def run : Program Res ε α → List Bool → σ → α × σ
  | .pure a, _, s => (a, s)
  | .call o k, fails, s =>
    let next := S.step o (fails.headD false) s
    run (k next.1) fails.tail next.2

/-- The environment may change the state by `R` before each call and after the last; the
calls change it by `G`. `I` holds whenever the program is cut off, `Q` when it has
returned. -/
def Always (R G : σ → σ → Prop) (I : σ → Prop) (Q : α → σ → Prop) : Program Res ε α → σ → Prop
  | .pure a, s => ∀ s', R s s' → I s' ∧ Q a s'
  | .call o k, s => ∀ s', R s s' → I s' ∧ ∀ fail, G s' (S.step o fail s').2 ∧
    Always R G I Q (k (S.step o fail s').1) (S.step o fail s').2

variable {S} {R G : σ → σ → Prop} {I : σ → Prop} {Q : α → σ → Prop} {Q' : β → σ → Prop} {s s' : σ}

theorem step_ok {o : Op} {fail : Bool} {r : Res o} (hf : (fail && S.mayFail o) = false)
    (h : S.perform o s = .ok (r, s')) : S.step o fail s = (.ok r, s') := by
  simp [step, hf, h]

theorem step_error {o : Op} {fail : Bool} {e : ε} (hf : (fail && S.mayFail o) = false)
    (h : S.perform o s = .error e) : S.step o fail s = (.error e, s) := by
  simp [step, hf, h]

theorem step_fails {o : Op} {fail : Bool} (hf : (fail && S.mayFail o) = true) :
    S.step o fail s = (.error (S.failure o), s) := by
  simp [step, hf]

/-- How a call of `o` may fail in the state `s`. -/
def Fails (S : Semantics σ Res ε) (o : Op) (s : σ) (e : ε) : Prop :=
  S.mayFail o = true ∧ e = S.failure o ∨ S.perform o s = .error e

/-- A call fails without an effect, or does what it does. -/
theorem step_cases (o : Op) (fail : Bool) (s : σ) :
    (∃ e, S.Fails o s e ∧ S.step o fail s = (.error e, s)) ∨
      ∃ r s', S.perform o s = .ok (r, s') ∧ S.step o fail s = (.ok r, s') := by
  cases hf : fail && S.mayFail o with
  | true =>
    have hmay : S.mayFail o = true := (Bool.and_eq_true_iff.mp hf).2
    exact .inl ⟨_, .inl ⟨hmay, rfl⟩, step_fails hf⟩
  | false =>
    cases h : S.perform o s with
    | error e => exact .inl ⟨e, .inr h, step_error hf h⟩
    | ok p => exact .inr ⟨p.1, p.2, rfl, step_ok hf h⟩

theorem Always.now {p : Program Res ε α} (h : S.Always R G I Q p s) (hR : R s s') : I s' := by
  cases p with
  | pure a => exact (h s' hR).1
  | call o k => exact (h s' hR).1

/-- Interference before the next call changes nothing. -/
theorem Always.interfere (htrans : ∀ a b c, R a b → R b c → R a c) {p : Program Res ε α}
    (h : S.Always R G I Q p s) (hR : R s s') : S.Always R G I Q p s' := by
  cases p with
  | pure a => exact fun t ht => h t (htrans _ _ _ hR ht)
  | call o k => exact fun t ht => h t (htrans _ _ _ hR ht)

theorem Always.step {o : Op} {k : Except ε (Res o) → Program Res ε α}
    (h : S.Always R G I Q (.call o k) s) (hR : R s s') (fail : Bool) :
    G s' (S.step o fail s').2 ∧
      S.Always R G I Q (k (S.step o fail s').1) (S.step o fail s').2 := (h s' hR).2 fail

theorem Always.mono {p : Program Res ε α} {P : α → σ → Prop} (h : S.Always R G I Q p s)
    (hQ : ∀ a s, Q a s → P a s) : S.Always R G I P p s := by
  induction p generalizing s with
  | pure a => exact fun s' hR => ⟨(h s' hR).1, hQ a s' (h s' hR).2⟩
  | call o k ih =>
    intro s' hR
    exact ⟨(h s' hR).1, fun fail => ⟨((h s' hR).2 fail).1, ih _ ((h s' hR).2 fail).2⟩⟩

theorem Always.bind {p : Program Res ε α} {f : α → Program Res ε β}
    (h : S.Always R G I (fun a s => S.Always R G I Q' (f a) s) p s) (hrefl : ∀ s, R s s) :
    S.Always R G I Q' (p >>= f) s := by
  show S.Always R G I Q' (p.bind f) s
  induction p generalizing s with
  | pure a => exact (h s (hrefl s)).2
  | call o k ih =>
    intro s' hR
    exact ⟨(h s' hR).1, fun fail => ⟨((h s' hR).2 fail).1, ih _ ((h s' hR).2 fail).2⟩⟩

/-- A run of the program ends in its postcondition. -/
theorem Always.run {p : Program Res ε α} (h : S.Always R G I Q p s) (hrefl : ∀ s, R s s)
    (fails : List Bool) : Q (S.run p fails s).1 (S.run p fails s).2 := by
  induction p generalizing s fails with
  | pure a => exact (h s (hrefl s)).2
  | call o k ih => exact ih _ ((h s (hrefl s)).2 _).2 _

/-- A program that returns at once, where the environment cannot interfere. -/
theorem Always.pure {a : α} (hstable : ∀ s', R s s' → s' = s) (hI : I s) (hQ : Q a s) :
    S.Always R G I Q (Pure.pure a : Program Res ε α) s := by
  intro s' hR
  rw [hstable s' hR]
  exact ⟨hI, hQ⟩

/-- A call where the environment cannot interfere. -/
theorem Always.perform {o : Op} {k : Except ε (Res o) → Program Res ε α}
    (hstable : ∀ s', R s s' → s' = s) (hI : I s) (hG : G s s)
    (hfails : ∀ e, S.Fails o s e → S.Always R G I Q (k (.error e)) s)
    (hdoes : ∀ r s', S.perform o s = .ok (r, s') → G s s' ∧ S.Always R G I Q (k (.ok r)) s') :
    S.Always R G I Q (Program.perform o >>= k) s := by
  intro s' hR
  rw [hstable s' hR]
  refine ⟨hI, fun fail => ?_⟩
  show G s (S.step o fail s).2 ∧ S.Always R G I Q (k (S.step o fail s).1) (S.step o fail s).2
  rcases S.step_cases o fail s with ⟨e, hfail, he⟩ | ⟨r, t, hp, hr⟩
  · rw [he]
    exact ⟨hG, hfails e hfail⟩
  · rw [hr]
    exact hdoes r t hp

end Semantics
end Program
end Transition
