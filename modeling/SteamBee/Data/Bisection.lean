import Mathlib.Order.Bounds.Basic
import Mathlib.Data.Nat.Notation

/-! The loop of a binary search for the last index that passes a test, between two bounds. -/
namespace Bisection

/-- Look for the last index in `[low, stop)` that passes; `best` is the last one that was found
to. The first argument bounds the rounds that are left. -/
def search (passes : ℕ → Bool) : ℕ → ℕ → ℕ → Option ℕ → Option ℕ
  | 0, _, _, best => best
  | rounds + 1, low, stop, best =>
    if low < stop then
      let middle := (low + (stop - 1)) / 2
      if passes middle then search passes rounds (middle + 1) stop (some middle)
      else search passes rounds low middle best
    else best

/-- The last index in `[low, stop)` that passes. -/
def last (passes : ℕ → Bool) (low stop : ℕ) : Option ℕ :=
  search passes (stop - low) low stop none

variable {passes : ℕ → Bool} {rounds low stop : ℕ}

def Passing (passes : ℕ → Bool) (low stop : ℕ) : Set ℕ :=
  {i | low ≤ i ∧ i < stop ∧ passes i = true}

/-- What the loop returns when an index before a passing one passes too: the last passing index,
or what was found before. By induction on the rounds. -/
theorem search_spec (best : Option ℕ) (hpasses : ∀ i j, i ≤ j → passes j = true → passes i = true)
    (hrounds : stop - low ≤ rounds) :
    (∃ i, search passes rounds low stop best = some i ∧ IsGreatest (Passing passes low stop) i) ∨
      search passes rounds low stop best = best ∧ Passing passes low stop = ∅ := by
  induction rounds generalizing low stop best with
  | zero =>
    right
    refine ⟨rfl, Set.eq_empty_of_forall_notMem ?_⟩
    rintro i ⟨hlow, hstop, -⟩
    omega
  | succ rounds ih =>
    unfold search
    split_ifs with hlt
    · have hlow : low ≤ (low + (stop - 1)) / 2 := by omega
      have hstop : (low + (stop - 1)) / 2 < stop := by omega
      generalize (low + (stop - 1)) / 2 = middle at hlow hstop
      dsimp only
      split_ifs with hmiddle
      · have hrest : stop - (middle + 1) ≤ rounds := by omega
        rcases ih (some middle) hrest with ⟨i, hi, hgreatest⟩ | ⟨hsame, hempty⟩
        · left
          refine ⟨i, hi, ⟨?_, hgreatest.1.2⟩, ?_⟩
          · have hle := hgreatest.1.1
            omega
          · rintro j ⟨hj, hjstop, hpass⟩
            by_cases hjm : j ≤ middle
            · exact hjm.trans ((Nat.le_succ middle).trans hgreatest.1.1)
            · exact hgreatest.2 ⟨by omega, hjstop, hpass⟩
        · left
          refine ⟨middle, hsame, ⟨hlow, hstop, hmiddle⟩, ?_⟩
          rintro j ⟨hj, hjstop, hpass⟩
          by_contra hjm
          have hmem : j ∈ Passing passes (middle + 1) stop := ⟨by omega, hjstop, hpass⟩
          rw [hempty] at hmem
          exact hmem
      · have hsame : Passing passes low stop = Passing passes low middle := by
          ext j
          constructor
          · rintro ⟨hj, -, hpass⟩
            refine ⟨hj, ?_, hpass⟩
            by_contra hjm
            exact hmiddle (hpasses middle j (by omega) hpass)
          · rintro ⟨hj, hjm, hpass⟩
            exact ⟨hj, hjm.trans hstop, hpass⟩
        rw [hsame]
        exact ih best (by omega)
    · right
      refine ⟨rfl, Set.eq_empty_of_forall_notMem ?_⟩
      rintro i ⟨hlow, hstop, -⟩
      omega

/-- The search finds the last passing index, and nothing just if none passes. -/
theorem last_spec (hpasses : ∀ i j, i ≤ j → passes j = true → passes i = true) :
    (∃ i, last passes low stop = some i ∧ IsGreatest (Passing passes low stop) i) ∨
      last passes low stop = none ∧ Passing passes low stop = ∅ :=
  search_spec none hpasses le_rfl

end Bisection
