import Mathlib.Logic.Relation
import Mathlib.Order.Basic

/-! Labelled transition systems whose steps are computed, runs restricted to the
steps that meet a condition, and the invariant rules for them. -/
namespace Transition

/-- A transition system: `next s a` is the state after action `a`, and `none`
when `a` cannot happen in `s`. Every choice of the environment is part of `a`. -/
structure Machine (σ α : Type*) where
  Starts : σ → Prop
  next : σ → α → Option σ

namespace Machine
variable {σ α : Type*} (M : Machine σ α) (C : σ → α → Prop)

/-- One step whose action meets `C` in the state before it. -/
def Step (s t : σ) : Prop := ∃ a, C s a ∧ M.next s a = some t

/-- `t` is reached from `s` by steps that all meet `C`. -/
def Leads : σ → σ → Prop := Relation.ReflTransGen (M.Step C)

/-- States of the runs all of whose steps meet `C`. -/
def ReachableWhen (t : σ) : Prop := ∃ s, M.Starts s ∧ M.Leads C s t

abbrev Reachable : σ → Prop := M.ReachableWhen fun _ _ => True

variable {M C}

theorem Leads.refl (s : σ) : M.Leads C s s := Relation.ReflTransGen.refl

theorem Leads.trans {s t u : σ} (h : M.Leads C s t) (h' : M.Leads C t u) : M.Leads C s u :=
  Relation.ReflTransGen.trans h h'

theorem Leads.tail {s t u : σ} (h : M.Leads C s t) {a : α} (hc : C t a)
    (hn : M.next t a = some u) : M.Leads C s u :=
  Relation.ReflTransGen.tail h ⟨a, hc, hn⟩

theorem Leads.mono {D : σ → α → Prop} (hCD : ∀ s a, C s a → D s a) {s t : σ}
    (h : M.Leads C s t) : M.Leads D s t :=
  Relation.ReflTransGen.mono (fun s _ ⟨a, hc, hn⟩ => ⟨a, hCD s a hc, hn⟩) _ _ h

theorem ReachableWhen.of_starts {s : σ} (h : M.Starts s) : M.ReachableWhen C s :=
  ⟨s, h, .refl s⟩

theorem ReachableWhen.leads {s t : σ} (h : M.ReachableWhen C s) (hl : M.Leads C s t) :
    M.ReachableWhen C t := by
  obtain ⟨s₀, h₀, hs⟩ := h
  exact ⟨s₀, h₀, hs.trans hl⟩

theorem ReachableWhen.mono {D : σ → α → Prop} (hCD : ∀ s a, C s a → D s a) {t : σ}
    (h : M.ReachableWhen C t) : M.ReachableWhen D t := by
  obtain ⟨s₀, h₀, hs⟩ := h
  exact ⟨s₀, h₀, hs.mono hCD⟩

theorem ReachableWhen.reachable {t : σ} (h : M.ReachableWhen C t) : M.Reachable t :=
  h.mono fun _ _ _ => trivial

/-- What every allowed step keeps is kept along a run. -/
theorem Leads.keeps {I : σ → Prop} {s t : σ} (h : M.Leads C s t) (hs : I s)
    (hstep : ∀ s a t, I s → C s a → M.next s a = some t → I t) : I t := by
  induction h with
  | refl => exact hs
  | tail _ hlast ih =>
    obtain ⟨a, hc, hn⟩ := hlast
    exact hstep _ a _ ih hc hn

/-- The invariant rule. -/
theorem ReachableWhen.invariant {I : σ → Prop} {t : σ} (h : M.ReachableWhen C t)
    (hinit : ∀ s, M.Starts s → I s)
    (hstep : ∀ s a t, I s → C s a → M.next s a = some t → I t) : I t := by
  obtain ⟨s₀, h₀, hl⟩ := h
  exact hl.keeps (hinit s₀ h₀) hstep

/-- The invariant rule with what is already known of the reachable states. -/
theorem ReachableWhen.invariant_of {I : σ → Prop} {t : σ} (h : M.ReachableWhen C t)
    (hinit : ∀ s, M.Starts s → I s)
    (hstep : ∀ s a t, M.ReachableWhen C s → I s → C s a → M.next s a = some t → I t) : I t := by
  have hboth : M.ReachableWhen C t ∧ I t := by
    refine h.invariant (I := fun s => M.ReachableWhen C s ∧ I s)
      (fun s hs => ⟨.of_starts hs, hinit s hs⟩) ?_
    rintro s a t ⟨hr, hi⟩ hc hn
    exact ⟨hr.leads (Leads.tail (.refl s) hc hn), hstep s a t hr hi hc hn⟩
  exact hboth.2

/-- Perform a list of actions; `none` when one of them cannot happen. -/
def exec (M : Machine σ α) (s : σ) : List α → Option σ
  | [] => some s
  | a :: as => (M.next s a).bind fun t => M.exec t as

/-- Perform a list of actions as long as each meets the test `c`. -/
def execWhen (M : Machine σ α) (c : σ → α → Bool) (s : σ) : List α → Option σ
  | [] => some s
  | a :: as => if c s a then (M.next s a).bind fun t => M.execWhen c t as else none

theorem leads_of_execWhen {c : σ → α → Bool} (hc : ∀ s a, c s a = true → C s a) {as : List α}
    {s t : σ} (h : M.execWhen c s as = some t) : M.Leads C s t := by
  induction as generalizing s with
  | nil =>
    obtain rfl : s = t := Option.some.inj h
    exact .refl s
  | cons a as ih =>
    simp only [execWhen] at h
    split at h
    next ha =>
      obtain ⟨u, hn, hu⟩ := Option.bind_eq_some_iff.mp h
      exact (Leads.tail (.refl s) (hc s a ha) hn).trans (ih hu)
    next => cases h

/-- The end of a run that can be performed. -/
theorem leads_execWhen {c : σ → α → Bool} (hc : ∀ s a, c s a = true → C s a) {as : List α}
    {s d : σ} (h : (M.execWhen c s as).isSome = true) :
    M.Leads C s ((M.execWhen c s as).getD d) := by
  obtain ⟨t, ht⟩ := Option.isSome_iff_exists.mp h
  rw [ht]
  exact leads_of_execWhen hc ht

/-- A run whose actions meet the condition in every state. -/
theorem leadsWhen_of_exec {as : List α} (hc : ∀ a ∈ as, ∀ s, C s a) {s t : σ}
    (h : M.exec s as = some t) : M.Leads C s t := by
  induction as generalizing s with
  | nil =>
    obtain rfl : s = t := Option.some.inj h
    exact .refl s
  | cons a as ih =>
    obtain ⟨u, hn, hu⟩ := Option.bind_eq_some_iff.mp h
    have hfirst : M.Leads C s u := Leads.tail (.refl s) (hc a List.mem_cons_self s) hn
    exact hfirst.trans (ih (fun b hb => hc b (List.mem_cons_of_mem a hb)) hu)

theorem leads_of_exec {as : List α} {s t : σ} (h : M.exec s as = some t) :
    M.Leads (fun _ _ => True) s t := leadsWhen_of_exec (fun _ _ _ => trivial) h

theorem reachableWhen_exec {as : List α} (hc : ∀ a ∈ as, ∀ s, C s a) {s d : σ} (hs : M.Starts s)
    (h : (M.exec s as).isSome = true) : M.ReachableWhen C ((M.exec s as).getD d) := by
  obtain ⟨t, ht⟩ := Option.isSome_iff_exists.mp h
  rw [ht]
  exact ⟨s, hs, leadsWhen_of_exec hc ht⟩

/-- A run that can be performed ends in a reachable state. -/
theorem reachable_exec {as : List α} {s d : σ} (hs : M.Starts s)
    (h : (M.exec s as).isSome = true) : M.Reachable ((M.exec s as).getD d) := by
  obtain ⟨t, ht⟩ := Option.isSome_iff_exists.mp h
  rw [ht]
  exact ⟨s, hs, leads_of_exec ht⟩

theorem reachable_execWhen {c : σ → α → Bool} (hc : ∀ s a, c s a = true → C s a) {as : List α}
    {s d : σ} (hs : M.Starts s) (h : (M.execWhen c s as).isSome = true) :
    M.ReachableWhen C ((M.execWhen c s as).getD d) :=
  ⟨s, hs, leads_execWhen hc h⟩

/-- The machine with a record beside its state: what each step notes. -/
def recording {γ : Type*} (M : Machine σ α) (start : γ) (note : γ → σ → α → γ) :
    Machine (σ × γ) α where
  Starts s := M.Starts s.1 ∧ s.2 = start
  next s a := (M.next s.1 a).map fun t => (t, note s.2 s.1 a)

theorem recording_next {γ : Type*} {start : γ} {note : γ → σ → α → γ} {s t : σ × γ} {a : α}
    (h : (M.recording start note).next s a = some t) :
    M.next s.1 a = some t.1 ∧ t.2 = note s.2 s.1 a := by
  obtain ⟨u, hu, rfl⟩ := Option.map_eq_some_iff.mp h
  exact ⟨hu, rfl⟩

/-- A recorded run is a run. -/
theorem ReachableWhen.of_recording {γ : Type*} {start : γ} {note : γ → σ → α → γ} {s : σ × γ}
    (h : (M.recording start note).ReachableWhen (fun s a => C s.1 a) s) : M.ReachableWhen C s.1 :=
  h.invariant (I := fun s => M.ReachableWhen C s.1) (fun _ hs => .of_starts hs.1)
    fun _ _ _ hr hc hn => hr.leads (Leads.tail (.refl _) hc (recording_next hn).1)

end Machine
end Transition
