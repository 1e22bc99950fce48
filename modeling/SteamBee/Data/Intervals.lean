import Mathlib.Data.Finset.Card
import Mathlib.Order.Interval.Finset.Nat
import SteamBee.Data.Total

/-! Half-open intervals of instants that follow one another: how much of a range they cover.
`stop` is `none` for an interval that has no end. -/
namespace Intervals
variable {α : Type} (start : α → ℕ) (stop : α → Option ℕ)

def Covers (x : α) (t : ℕ) : Prop := start x ≤ t ∧ ∀ e, stop x = some e → t < e

instance (x : α) (t : ℕ) : Decidable (Covers start stop x t) :=
  decidable_of_iff (start x ≤ t ∧ (stop x).all (fun e => t < e) = true) (by simp [Covers, Option.all_eq_true])

def Before (x y : α) : Prop := ∃ e, stop x = some e ∧ e ≤ start y

def overlap (lo hi : ℕ) (x : α) : ℕ := min ((stop x).getD hi) hi - max (start x) lo

variable {start stop} {x y : α} {l : List α}

theorem Before.disjoint (h : Before start stop x y) (t : ℕ) :
    ¬ (Covers start stop x t ∧ Covers start stop y t) := by
  rintro ⟨hx, hy⟩
  obtain ⟨e, he, hle⟩ := h
  have hlt := hx.2 e he
  have hstart := hy.1
  omega

theorem card_covered (lo hi : ℕ) (x : α) :
    ((Finset.Ico lo hi).filter (Covers start stop x)).card = overlap start stop lo hi x := by
  have hfilter : (Finset.Ico lo hi).filter (Covers start stop x) =
      Finset.Ico (max (start x) lo) (min ((stop x).getD hi) hi) := by
    ext t
    simp only [Finset.mem_filter, Finset.mem_Ico, Covers]
    cases hstop : stop x with
    | none =>
      simp only [reduceCtorEq, false_implies, implies_true, and_true, Option.getD_none]
      omega
    | some e =>
      simp only [Option.some.injEq, forall_eq', Option.getD_some]
      omega
  rw [hfilter, Nat.card_Ico]
  rfl

/-- The overlaps of intervals that follow one another add up to what they cover together. By
induction on the list: the first interval has nothing in common with the later ones. -/
theorem total_overlap (h : l.Pairwise (Before start stop)) (lo hi : ℕ) :
    l.total (overlap start stop lo hi) =
      ((Finset.Ico lo hi).filter fun t => ∃ x ∈ l, Covers start stop x t).card := by
  induction l with
  | nil => simp
  | cons x l ih =>
    obtain ⟨hx, hl⟩ := List.pairwise_cons.mp h
    have hunion : (Finset.Ico lo hi).filter (fun t => ∃ y ∈ x :: l, Covers start stop y t) =
        (Finset.Ico lo hi).filter (Covers start stop x) ∪
          (Finset.Ico lo hi).filter fun t => ∃ y ∈ l, Covers start stop y t := by
      ext t
      simp only [Finset.mem_filter, Finset.mem_union, List.exists_mem_cons_iff, and_or_left]
    have hdisjoint : Disjoint ((Finset.Ico lo hi).filter (Covers start stop x))
        ((Finset.Ico lo hi).filter fun t => ∃ y ∈ l, Covers start stop y t) := by
      rw [Finset.disjoint_left]
      intro t ht ht'
      obtain ⟨y, hy, hcovers⟩ := (Finset.mem_filter.mp ht').2
      exact (hx y hy).disjoint t ⟨(Finset.mem_filter.mp ht).2, hcovers⟩
    rw [hunion, Finset.card_union_of_disjoint hdisjoint, card_covered, List.total_cons, ih hl]

end Intervals
