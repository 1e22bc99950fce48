/-! How a computation that may throw comes to succeed: each of its parts has succeeded, and no
guard has stopped it. -/
namespace Outcome
variable {ε α β : Type} {x : Except ε α} {f : α → Except ε β} {a : α} {b : β} {e : ε}

theorem bind_eq_ok (h : x >>= f = .ok b) : ∃ a, x = .ok a ∧ f a = .ok b := by
  cases x with
  | error e => cases h
  | ok a => exact ⟨a, rfl, h⟩

/-- Behind a guard that throws. -/
theorem of_guard {c : Prop} [Decidable c] (h : (if c then .error e else x) = .ok a) :
    ¬c ∧ x = .ok a := by
  by_cases hc : c
  · rw [if_pos hc] at h
    cases h
  · rw [if_neg hc] at h
    exact ⟨hc, h⟩

theorem toOption_eq_some_iff : x.toOption = some a ↔ x = .ok a := by
  cases x with
  | error e =>
    constructor
    · intro h
      cases h
    · intro h
      cases h
  | ok b =>
    constructor
    · intro h
      rw [Option.some.inj h]
    · intro h
      rw [Except.ok.inj h]
      rfl

end Outcome
