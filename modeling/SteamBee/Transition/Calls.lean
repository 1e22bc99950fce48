import SteamBee.Data.Table

/-! Asynchronous calls in flight. A call that waits is stored under its own number; it
goes on to wait for something else or returns. -/
namespace Transition

structure Calls (T : Type) where
  waiting : Table ℕ T
  drawn : ℕ
  deriving DecidableEq

namespace Calls
variable {T : Type} {c : Calls T} {id : ℕ} {t : T} {P Q : T → Prop}

def empty : Calls T := ⟨∅, 0⟩

def start (c : Calls T) (t : T) : Calls T := ⟨c.waiting.insert c.drawn t, c.drawn + 1⟩

def await (c : Calls T) (id : ℕ) (t : T) : Calls T := { c with waiting := c.waiting.insert id t }

def finish (c : Calls T) (id : ℕ) : Calls T := { c with waiting := c.waiting.erase id }

theorem lookup_start (k : ℕ) : (c.start t).waiting.lookup k =
    if k = c.drawn then some t else c.waiting.lookup k := Table.lookup_insert_eq _ _ _ _

theorem lookup_await (k : ℕ) : (c.await id t).waiting.lookup k =
    if k = id then some t else c.waiting.lookup k := Table.lookup_insert_eq _ _ _ _

theorem lookup_finish (k : ℕ) : (c.finish id).waiting.lookup k =
    if k = id then none else c.waiting.lookup k := Table.lookup_erase_eq _ _ _

theorem eq_or_lookup_of_start {k : ℕ} {u : T} (h : (c.start t).waiting.lookup k = some u) :
    u = t ∨ c.waiting.lookup k = some u := by
  rw [lookup_start] at h
  split_ifs at h
  · exact .inl (Option.some.inj h).symm
  · exact .inr h

theorem eq_or_lookup_of_await {k : ℕ} {u : T} (h : (c.await id t).waiting.lookup k = some u) :
    u = t ∨ c.waiting.lookup k = some u := by
  rw [lookup_await] at h
  split_ifs at h
  · exact .inl (Option.some.inj h).symm
  · exact .inr h

theorem lookup_of_finish {k : ℕ} {u : T} (h : (c.finish id).waiting.lookup k = some u) :
    c.waiting.lookup k = some u := by
  rw [lookup_finish] at h
  split_ifs at h
  exact h

def All (P : T → Prop) (c : Calls T) : Prop := ∀ k t, c.waiting.lookup k = some t → P t

theorem All.start (h : c.All P) (ht : P t) : (c.start t).All P := by
  intro k u hk
  rcases eq_or_lookup_of_start hk with rfl | hk
  · exact ht
  · exact h k u hk

theorem All.await (h : c.All P) (ht : P t) : (c.await id t).All P := by
  intro k u hk
  rcases eq_or_lookup_of_await hk with rfl | hk
  · exact ht
  · exact h k u hk

theorem All.finish (h : c.All P) : (c.finish id).All P :=
  fun k u hk => h k u (lookup_of_finish hk)

end Calls
end Transition
