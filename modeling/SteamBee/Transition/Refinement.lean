import SteamBee.Transition.Machine

/-! Refinement of one machine by another: a view of its states under which every step is a
run of the machine it refines. -/
namespace Transition

/-- `view` shows every run of `M` as a run of `N`. -/
structure Refines {σ τ α β : Type*} (M : Machine σ α) (N : Machine τ β) (view : σ → τ) : Prop where
  starts : ∀ s, M.Starts s → N.Starts (view s)
  step : ∀ s a t, M.next s a = some t → N.Leads (fun _ _ => True) (view s) (view t)

namespace Refines
variable {σ τ α β : Type*} {M : Machine σ α} {N : Machine τ β} {view : σ → τ}

theorem reachable (h : Refines M N view) {s : σ} (hs : M.Reachable s) : N.Reachable (view s) :=
  hs.invariant (I := fun s => N.Reachable (view s)) (fun s hs => .of_starts (h.starts s hs))
    fun s a t hr _ hn => hr.leads (h.step s a t hn)

end Refines
end Transition
