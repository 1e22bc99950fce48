import Mathlib.Data.List.Sort

/-! Sorting by a comparator that orders its values: when no two values of a list compare equal,
the sorted list depends on which values there are and on nothing else. -/
namespace Sorting
variable {α : Type*} (cmp : α → α → Ordering)

def Precedes (left right : α) : Prop := cmp left right ≠ .gt

instance : DecidableRel (Precedes cmp) := fun left right =>
  inferInstanceAs (Decidable (cmp left right ≠ .gt))

def sort (l : List α) : List α := l.insertionSort (Precedes cmp)

/-- Different values of the list compare as different. -/
def Separates (l : List α) : Prop := ∀ a ∈ l, ∀ b ∈ l, cmp a b = .eq → a = b

theorem sort_perm (l : List α) : (sort cmp l).Perm l := List.perm_insertionSort _ l

variable {cmp} {l l' : List α}

theorem Separates.perm (h : Separates cmp l) (hl : l'.Perm l) : Separates cmp l' :=
  fun a ha b hb => h a (hl.subset ha) b (hl.subset hb)

variable [Std.TransCmp cmp]

theorem precedes_trans {a b c : α} (h : Precedes cmp a b) (h' : Precedes cmp b c) :
    Precedes cmp a c :=
  Ordering.isLE_iff_ne_gt.mp (Std.TransCmp.isLE_trans (Ordering.isLE_iff_ne_gt.mpr h)
    (Ordering.isLE_iff_ne_gt.mpr h'))

theorem precedes_total (a b : α) : Precedes cmp a b ∨ Precedes cmp b a := by
  unfold Precedes
  by_contra h
  push Not at h
  have hlt := Std.OrientedCmp.lt_of_gt h.1
  rw [h.2] at hlt
  cases hlt

theorem eq_of_precedes {a b : α} (h : Precedes cmp a b) (h' : Precedes cmp b a) : cmp a b = .eq := by
  unfold Precedes at *
  cases hc : cmp a b with
  | eq => rfl
  | gt => exact absurd hc h
  | lt => exact absurd (Std.OrientedCmp.gt_of_lt hc) h'

instance : IsTrans α (Precedes cmp) := ⟨fun _ _ _ => precedes_trans⟩

instance : Std.Total (Precedes cmp) := ⟨precedes_total⟩

theorem pairwise_sort (l : List α) : (sort cmp l).Pairwise (Precedes cmp) :=
  List.pairwise_insertionSort _ l

/-- There is one way to arrange the values. -/
theorem eq_of_perm (h : Separates cmp l) (hl : l'.Perm l) (hsorted : l.Pairwise (Precedes cmp))
    (hsorted' : l'.Pairwise (Precedes cmp)) : l' = l :=
  List.Perm.eq_of_pairwise (fun a b ha hb hab hba =>
    h a (hl.subset ha) b hb (eq_of_precedes hab hba)) hsorted' hsorted hl

theorem sort_congr (h : Separates cmp l) (hl : l'.Perm l) : sort cmp l' = sort cmp l :=
  eq_of_perm (h.perm (sort_perm cmp l))
    ((sort_perm cmp l').trans (hl.trans (sort_perm cmp l).symm)) (pairwise_sort l) (pairwise_sort l')

/-- A sorted list stays as it is. -/
theorem sort_of_pairwise (h : Separates cmp l) (hsorted : l.Pairwise (Precedes cmp)) :
    sort cmp l = l := eq_of_perm h (sort_perm cmp l) hsorted (pairwise_sort l)

end Sorting
