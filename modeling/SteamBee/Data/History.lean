/-! Histories are lists of events, newest first: what held when each event happened. -/
namespace History
variable {E : Type}

/-- `P e older` for every event `e` of the history, where `older` is what was before it. -/
def Each (P : E → List E → Prop) : List E → Prop
  | [] => True
  | e :: older => P e older ∧ Each P older

theorem Each.of_append {P : E → List E → Prop} {newer older : List E}
    (h : Each P (newer ++ older)) : Each P older := by
  induction newer with
  | nil => exact h
  | cons _ _ ih => exact ih h.2

theorem Each.of_split {P : E → List E → Prop} {newer older : List E} {e : E}
    (h : Each P (newer ++ e :: older)) : P e older := h.of_append.1

end History
