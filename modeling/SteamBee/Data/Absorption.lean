import Mathlib.Data.List.Basic

/-! Merging snapshots towards a final one: what was taken before the final value stays below
it, and the final value swallows everything below it, from either side. -/
namespace Absorption
variable {α : Type*}

/-- `final` swallows what is `below` it, and merging does not leave what is below it. -/
structure Absorbs (merge : α → α → α) (below : α → Prop) (final : α) : Prop where
  keeps : ∀ a b, below a → below b → below (merge a b)
  absorbs : ∀ a, below a → merge a final = final
  absorbed : ∀ b, below b → merge final b = final

namespace Absorbs
variable {merge : α → α → α} {below : α → Prop} {final start : α} {values later : List α}

theorem foldl_below (h : Absorbs merge below final) (hstart : below start)
    (hvalues : ∀ value ∈ values, below value) : below (values.foldl merge start) := by
  induction values generalizing start with
  | nil => exact hstart
  | cons value values ih =>
    rw [List.forall_mem_cons] at hvalues
    exact ih (h.keeps start value hstart hvalues.1) hvalues.2

theorem foldl_final (h : Absorbs merge below final) (hvalues : ∀ value ∈ values, below value) :
    values.foldl merge final = final := by
  induction values with
  | nil => rfl
  | cons value values ih =>
    rw [List.forall_mem_cons] at hvalues
    rw [List.foldl_cons, h.absorbed value hvalues.1]
    exact ih hvalues.2

/-- In whatever order the values arrive, the final one is what stays. -/
theorem foldl_eq_final (h : Absorbs merge below final) (hstart : below start)
    (hvalues : ∀ value ∈ values, below value) (hlater : ∀ value ∈ later, below value) :
    (values ++ final :: later).foldl merge start = final := by
  rw [List.foldl_append, List.foldl_cons, h.absorbs _ (h.foldl_below hstart hvalues)]
  exact h.foldl_final hlater

end Absorbs
end Absorption
