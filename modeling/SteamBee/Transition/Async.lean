import Mathlib.Order.Defs.Unbundled

/-! Asynchronous functions over a shared state. A function runs without interference up to its
next await; while it waits, the environment may change the state. -/
namespace Transition

/-- Where an asynchronous function has stopped. It awaits what `point` names; when that has
settled with a reply, the function runs on from the state of that time: `after` is the state at
its next stop and `rest` is that stop. -/
inductive Pause (σ π ρ α : Type) where
  | returned (a : α)
  | thrown
  | awaiting (point : π) (after : ρ → σ → σ) (rest : ρ → σ → Pause σ π ρ α)

/-- A call of an asynchronous function: the state at its first stop, and that stop. -/
def Async (σ π ρ α : Type) : Type := σ → σ × Pause σ π ρ α

variable {σ π ρ α β : Type}

def Pause.bind : Pause σ π ρ α → σ → (α → Async σ π ρ β) → σ × Pause σ π ρ β
  | .returned a, s, f => f a s
  | .thrown, s, _ => (s, .thrown)
  | .awaiting point after rest, s, f =>
    (s, .awaiting point (fun r u => ((rest r u).bind (after r u) f).1)
      fun r u => ((rest r u).bind (after r u) f).2)

/-- What the function throws is caught; `none` stands for it. -/
def Pause.attempt : Pause σ π ρ α → Pause σ π ρ (Option α)
  | .returned a => .returned (some a)
  | .thrown => .returned none
  | .awaiting point after rest => .awaiting point after fun r u => (rest r u).attempt

namespace Async

instance : Monad (Async σ π ρ) where
  pure a s := (s, .returned a)
  bind x f s := (x s).2.bind (x s).1 f

def get : Async σ π ρ σ := fun s => (s, .returned s)

def modify (f : σ → σ) : Async σ π ρ Unit := fun s => (f s, .returned ())

def throw : Async σ π ρ α := fun s => (s, .thrown)

def await (point : π) : Async σ π ρ ρ :=
  fun s => (s, .awaiting point (fun _ u => u) fun r _ => .returned r)

def when (c : Prop) [Decidable c] (x : Async σ π ρ Unit) : Async σ π ρ Unit :=
  if c then x else pure ()

/-- `try`, whose `catch` decides by the result. -/
def attempt (x : Async σ π ρ α) : Async σ π ρ (Option α) := fun s => ((x s).1, (x s).2.attempt)

end Async

/-- What the environment may do while a function waits, how it may settle what is awaited, what
each part of a function between two awaits does, and what holds at an await. -/
structure Discipline (σ π ρ : Type) where
  Rely : σ → σ → Prop
  Allowed : π → ρ → σ → Prop
  Guarantee : σ → σ → Prop
  Inv : π → σ → Prop
  rely_refl : ∀ s, Rely s s
  rely_trans : ∀ {s t u}, Rely s t → Rely t u → Rely s u
  guarantee_refl : ∀ s, Guarantee s s
  guarantee_trans : ∀ {s t u}, Guarantee s t → Guarantee t u → Guarantee s u
  stable : ∀ {p s t}, Rely s t → Inv p s → Inv p t

namespace Discipline
variable (D : Discipline σ π ρ) {Q Q' : α → σ → Prop} {P : β → σ → Prop} {E E' : σ → Prop} {s t : σ}
  {x : Async σ π ρ α} {f : α → Async σ π ρ β} {p : Pause σ π ρ α}

/-- Every part of a stopped function meets the guarantee and every await the invariant, whatever
the environment does; `Q` holds when the function returns, `E` when it throws. -/
def Holds (Q : α → σ → Prop) (E : σ → Prop) : Pause σ π ρ α → σ → Prop
  | .returned a, s => Q a s
  | .thrown, s => E s
  | .awaiting point after rest, s => D.Inv point s ∧
    ∀ u, D.Rely s u → ∀ r, D.Allowed point r u →
      D.Guarantee u (after r u) ∧ Holds Q E (rest r u) (after r u)

def Always (Q : α → σ → Prop) (E : σ → Prop) (x : Async σ π ρ α) (s : σ) : Prop :=
  D.Guarantee s (x s).1 ∧ D.Holds Q E (x s).2 (x s).1

variable {D}

theorem Holds.mono (h : D.Holds Q E p s) (hQ : ∀ a s, Q a s → Q' a s) (hE : ∀ s, E s → E' s) :
    D.Holds Q' E' p s := by
  induction p generalizing s with
  | returned a => exact hQ a s h
  | thrown => exact hE s h
  | awaiting point after rest ih =>
    refine ⟨h.1, fun u hu r hr => ?_⟩
    exact ⟨(h.2 u hu r hr).1, ih r u (h.2 u hu r hr).2⟩

theorem Always.mono (h : D.Always Q E x s) (hQ : ∀ a s, Q a s → Q' a s) (hE : ∀ s, E s → E' s) :
    D.Always Q' E' x s := ⟨h.1, h.2.mono hQ hE⟩

/-- What the environment does while a function waits changes nothing. -/
theorem Holds.interfere {point : π} {after : ρ → σ → σ} {rest : ρ → σ → Pause σ π ρ α}
    (h : D.Holds Q E (.awaiting point after rest) s) (hst : D.Rely s t) :
    D.Holds Q E (.awaiting point after rest) t :=
  ⟨D.stable hst h.1, fun u hu r => h.2 u (D.rely_trans hst hu) r⟩

theorem Holds.bind (h : D.Holds (fun a s => D.Always P E (f a) s) E p s) :
    D.Guarantee s (p.bind s f).1 ∧ D.Holds P E (p.bind s f).2 (p.bind s f).1 := by
  induction p generalizing s with
  | returned a => exact h
  | thrown => exact ⟨D.guarantee_refl s, h⟩
  | awaiting point after rest ih =>
    refine ⟨D.guarantee_refl s, h.1, fun u hu r hr => ?_⟩
    obtain ⟨hafter, hrest⟩ := h.2 u hu r hr
    exact ⟨D.guarantee_trans hafter (ih r u hrest).1, (ih r u hrest).2⟩

theorem Holds.attempt {Q : Option α → σ → Prop}
    (h : D.Holds (fun a => Q (some a)) (Q none) p s) : D.Holds Q E p.attempt s := by
  induction p generalizing s with
  | returned a => exact h
  | thrown => exact h
  | awaiting point after rest ih =>
    refine ⟨h.1, fun u hu r hr => ?_⟩
    exact ⟨(h.2 u hu r hr).1, ih r u (h.2 u hu r hr).2⟩

namespace Always

theorem pure {a : α} (h : Q a s) : D.Always Q E (Pure.pure a : Async σ π ρ α) s :=
  ⟨D.guarantee_refl s, h⟩

theorem throw (h : E s) : D.Always Q E (Async.throw : Async σ π ρ α) s :=
  ⟨D.guarantee_refl s, h⟩

theorem get {Q : σ → σ → Prop} (h : Q s s) : D.Always Q E (Async.get : Async σ π ρ σ) s :=
  ⟨D.guarantee_refl s, h⟩

theorem modify {Q : Unit → σ → Prop} {f : σ → σ} (hf : D.Guarantee s (f s)) (h : Q () (f s)) :
    D.Always Q E (Async.modify f : Async σ π ρ Unit) s := ⟨hf, h⟩

theorem await {Q : ρ → σ → Prop} {point : π} (hI : D.Inv point s)
    (h : ∀ u, D.Rely s u → ∀ r, D.Allowed point r u → Q r u) :
    D.Always Q E (Async.await point) s :=
  ⟨D.guarantee_refl s, hI, fun u hu r hr => ⟨D.guarantee_refl u, h u hu r hr⟩⟩

theorem bind (h : D.Always (fun a s => D.Always P E (f a) s) E x s) :
    D.Always P E (x >>= f) s := by
  obtain ⟨hfirst, hrest⟩ := h.2.bind
  exact ⟨D.guarantee_trans h.1 hfirst, hrest⟩

theorem attempt {Q : Option α → σ → Prop} (h : D.Always (fun a => Q (some a)) (Q none) x s) :
    D.Always Q E x.attempt s := ⟨h.1, h.2.attempt⟩

end Always

end Discipline

/-! ## What every part of a function does -/

/-- Every part of a stopped function relates the states before and after it by `G`. -/
def Pause.Keeps (G : σ → σ → Prop) : Pause σ π ρ α → Prop
  | .awaiting _ after rest => ∀ u r, G u (after r u) ∧ Keeps G (rest r u)
  | _ => True

def Async.Keeps (G : σ → σ → Prop) (x : Async σ π ρ α) : Prop :=
  ∀ s, G s (x s).1 ∧ (x s).2.Keeps G

section Keeps
variable {G : σ → σ → Prop}

theorem Pause.Keeps.bind [IsTrans σ G] [Std.Refl G] {p : Pause σ π ρ α} {f : α → Async σ π ρ β}
    (hp : p.Keeps G) (hf : ∀ a, (f a).Keeps G) (s : σ) :
    G s (p.bind s f).1 ∧ (p.bind s f).2.Keeps G := by
  induction p generalizing s with
  | returned a => exact hf a s
  | thrown => exact ⟨refl s, trivial⟩
  | awaiting point after rest ih =>
    refine ⟨refl s, fun u r => ?_⟩
    obtain ⟨hafter, hrest⟩ := hp u r
    obtain ⟨hnext, hlast⟩ := ih r u hrest (after r u)
    exact ⟨IsTrans.trans _ _ _ hafter hnext, hlast⟩

theorem Pause.Keeps.attempt {p : Pause σ π ρ α} (hp : p.Keeps G) : p.attempt.Keeps G := by
  induction p with
  | returned a => trivial
  | thrown => trivial
  | awaiting point after rest ih =>
    intro u r
    exact ⟨(hp u r).1, ih r u (hp u r).2⟩

theorem Pause.Keeps.mono {G' : σ → σ → Prop} {p : Pause σ π ρ α} (hp : p.Keeps G)
    (h : ∀ s t, G s t → G' s t) : p.Keeps G' := by
  induction p with
  | returned a => trivial
  | thrown => trivial
  | awaiting point after rest ih =>
    intro u r
    exact ⟨h _ _ (hp u r).1, ih r u (hp u r).2⟩

namespace Async.Keeps

theorem mono {G' : σ → σ → Prop} {x : Async σ π ρ α} (hx : x.Keeps G)
    (h : ∀ s t, G s t → G' s t) : x.Keeps G' := fun s => ⟨h _ _ (hx s).1, (hx s).2.mono h⟩

theorem ite {c : Prop} [Decidable c] {x y : Async σ π ρ α} (hx : x.Keeps G) (hy : y.Keeps G) :
    (if c then x else y).Keeps G := by
  split
  · exact hx
  · exact hy

theorem modify {f : σ → σ} (h : ∀ s, G s (f s)) : (Async.modify f : Async σ π ρ Unit).Keeps G :=
  fun s => ⟨h s, trivial⟩

theorem attempt {x : Async σ π ρ α} (h : x.Keeps G) : x.attempt.Keeps G :=
  fun s => ⟨(h s).1, (h s).2.attempt⟩

variable [Std.Refl G]

theorem pure (a : α) : (Pure.pure a : Async σ π ρ α).Keeps G := fun s => ⟨refl s, trivial⟩

theorem throw : (Async.throw : Async σ π ρ α).Keeps G := fun s => ⟨refl s, trivial⟩

theorem get : (Async.get : Async σ π ρ σ).Keeps G := fun s => ⟨refl s, trivial⟩

theorem await (point : π) : (Async.await point : Async σ π ρ ρ).Keeps G :=
  fun s => ⟨refl s, fun u _ => ⟨refl u, trivial⟩⟩

theorem bind [IsTrans σ G] {x : Async σ π ρ α} {f : α → Async σ π ρ β} (hx : x.Keeps G)
    (hf : ∀ a, (f a).Keeps G) : (x >>= f).Keeps G := by
  intro s
  obtain ⟨hfirst, hrest⟩ := (hx s).2.bind hf (x s).1
  exact ⟨IsTrans.trans _ _ _ (hx s).1 hfirst, hrest⟩

end Async.Keeps

/-- What the parts of a function and the environment keep is an invariant of the function. -/
theorem Pause.Keeps.holds {D : Discipline σ π ρ} {P : σ → Prop} {p : Pause σ π ρ α} {s : σ}
    (h : p.Keeps G) (hG : ∀ s t, P s → G s t → D.Guarantee s t ∧ P t)
    (hR : ∀ s t, D.Rely s t → P s → P t) (hI : ∀ point s, P s → D.Inv point s) (hs : P s) :
    D.Holds (fun _ => P) P p s := by
  induction p generalizing s with
  | returned a => exact hs
  | thrown => exact hs
  | awaiting point after rest ih =>
    refine ⟨hI point s hs, fun u hu r _ => ?_⟩
    obtain ⟨hguarantee, hP⟩ := hG _ _ (hR s u hu hs) (h u r).1
    exact ⟨hguarantee, ih r u (h u r).2 hP⟩

theorem Async.Keeps.always {D : Discipline σ π ρ} {P : σ → Prop} {x : Async σ π ρ α} {s : σ}
    (h : x.Keeps G) (hG : ∀ s t, P s → G s t → D.Guarantee s t ∧ P t)
    (hR : ∀ s t, D.Rely s t → P s → P t) (hI : ∀ point s, P s → D.Inv point s) (hs : P s) :
    D.Always (fun _ => P) P x s := by
  obtain ⟨hguarantee, hP⟩ := hG _ _ hs (h s).1
  exact ⟨hguarantee, (h s).2.holds hG hR hI hP⟩

end Keeps
end Transition
