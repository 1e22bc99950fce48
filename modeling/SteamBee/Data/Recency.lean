import Mathlib.Data.Finset.Card
import Mathlib.Data.List.DropRight

/-! Lists in the order in which their members were last seen, of which only the newest ones are
kept, and what they forget of the observations that they are made of. -/
namespace List
variable {α : Type} [DecidableEq α] {l l' : List α} {x y : α} {n : ℕ}

def touch (l : List α) (x : α) : List α := l.filter (fun y => y ≠ x) ++ [x]

def newest (n : ℕ) (l : List α) : List α := l.drop (l.length - n)

/-- What is behind the last occurrence of `x`. -/
def since (x : α) (l : List α) : List α := l.rtakeWhile fun y => y ≠ x

omit [DecidableEq α] in
theorem newest_sublist (n : ℕ) (l : List α) : (l.newest n).Sublist l := drop_sublist _ _

omit [DecidableEq α] in
theorem length_newest_le (n : ℕ) (l : List α) : (l.newest n).length ≤ n := by
  unfold newest
  rw [length_drop]
  omega

omit [DecidableEq α] in
theorem newest_of_length_le (h : l.length ≤ n) : l.newest n = l := by
  rw [newest, Nat.sub_eq_zero_of_le h, drop_zero]

/-! ## What is behind a member -/

theorem since_concat (x y : α) (l : List α) :
    (l ++ [y]).since x = if y = x then [] else l.since x ++ [y] := by
  unfold since
  rw [rtakeWhile_concat]
  by_cases h : y = x
  · simp [h]
  · simp [h]

theorem since_append_of_mem (l : List α) (h : x ∈ l') : (l ++ l').since x = l'.since x := by
  induction l' using List.reverseRecOn with
  | nil => cases h
  | append_singleton l' y ih =>
    rw [← append_assoc, since_concat, since_concat]
    split_ifs with hy
    · rfl
    · have hmem : x ∈ l' := by
        simpa [Ne.symm hy] using h
      rw [ih hmem]

theorem since_append_of_notMem (l : List α) (h : x ∉ l') :
    (l ++ l').since x = l.since x ++ l' := by
  induction l' using List.reverseRecOn with
  | nil => rw [append_nil, append_nil]
  | append_singleton l' y ih =>
    rw [mem_append, mem_singleton, not_or] at h
    rw [← append_assoc, since_concat, if_neg (Ne.symm h.2), ih h.1, append_assoc]

theorem since_filter_subset {p : α → Bool} (hx : p x = true) (l : List α) :
    (l.filter p).since x ⊆ l.since x := by
  induction l using List.reverseRecOn with
  | nil => exact Subset.refl _
  | append_singleton l y ih =>
    rw [filter_append, filter_singleton, since_concat]
    by_cases hy : y = x
    · subst hy
      rw [hx, cond_true, since_concat, if_pos rfl, if_pos rfl]
      exact Subset.refl _
    · rw [if_neg hy]
      by_cases hp : p y = true
      · rw [hp, cond_true, since_concat, if_neg hy]
        exact append_subset.mpr
          ⟨Subset.trans ih (subset_append_left _ _), subset_append_right _ _⟩
      · rw [Bool.not_eq_true] at hp
        rw [hp, cond_false, append_nil]
        exact Subset.trans ih (subset_append_left _ _)

/-! ## Touching -/

theorem nodup_touch (h : l.Nodup) : (l.touch x).Nodup := by
  refine nodup_append.mpr ⟨h.filter _, nodup_singleton x, fun y hy z hz => ?_⟩
  rw [mem_singleton.mp hz]
  simpa using (mem_filter.mp hy).2

theorem nodup_foldl_touch (h : l.Nodup) (l' : List α) : (l'.foldl touch l).Nodup := by
  induction l' generalizing l with
  | nil => exact h
  | cons x l' ih => exact ih (nodup_touch h)

theorem mem_touch : y ∈ l.touch x ↔ y ∈ l ∨ y = x := by
  rw [touch, mem_append, mem_filter, mem_singleton]
  by_cases h : y = x
  · simp [h]
  · simp [h]

theorem mem_foldl_touch : y ∈ l'.foldl touch l ↔ y ∈ l ∨ y ∈ l' := by
  induction l' generalizing l with
  | nil => simp
  | cons x l' ih =>
    rw [foldl_cons, ih, mem_touch, mem_cons, or_assoc]

/-- Touching members that differ puts them behind the rest. -/
theorem foldl_touch_nodup (h : l'.Nodup) (l : List α) :
    l'.foldl touch l = l.filter (fun y => y ∉ l') ++ l' := by
  induction l' generalizing l with
  | nil => simp
  | cons x l' ih =>
    obtain ⟨hx, hnodup⟩ := nodup_cons.mp h
    have hsingle : [x].filter (fun y => decide (y ∉ l')) = [x] := by simp [hx]
    rw [foldl_cons, ih hnodup, touch, filter_append, filter_filter, hsingle, append_assoc,
      singleton_append]
    congr 1
    refine filter_congr fun y _ => ?_
    simp only [mem_cons, not_or, ne_eq, Bool.decide_and]
    exact Bool.and_comm _ _

/-! ## What is remembered -/

/-- Of each observation the list remembers when it was last made, unless `n` others have been
made since. -/
def Remembers (n : ℕ) (seen observed : List α) : Prop :=
  ∀ x ∈ observed, n ≤ (observed.since x).toFinset.card ∨
    x ∈ seen ∧ seen.since x ⊆ observed.since x

section Remembers
variable {seen observed : List α}

theorem Remembers.nil (n : ℕ) (seen : List α) : Remembers n seen [] := fun _ h => (by cases h)

theorem Remembers.touch (h : Remembers n seen observed) (y : α) :
    Remembers n (seen.touch y) (observed ++ [y]) := by
  intro x hx
  by_cases hy : y = x
  · subst hy
    right
    refine ⟨mem_touch.mpr (.inr rfl), ?_⟩
    rw [List.touch, since_concat, if_pos rfl]
    exact nil_subset _
  · have hold : x ∈ observed := by
      simpa [Ne.symm hy] using hx
    rw [since_concat, if_neg hy]
    rcases h x hold with hmany | ⟨hseen, hsub⟩
    · left
      apply hmany.trans
      apply Finset.card_le_card
      rw [toFinset_append]
      exact Finset.subset_union_left
    · right
      refine ⟨mem_touch.mpr (.inl hseen), ?_⟩
      rw [List.touch, since_concat, if_neg hy]
      have hkeep : (seen.filter fun z => z ≠ y).since x ⊆ seen.since x :=
        since_filter_subset (by simpa using Ne.symm hy) seen
      exact append_subset.mpr
        ⟨Subset.trans (Subset.trans hkeep hsub) (subset_append_left _ _), subset_append_right _ _⟩

theorem Remembers.foldl_touch (h : Remembers n seen observed) (ys : List α) :
    Remembers n (ys.foldl List.touch seen) (observed ++ ys) := by
  induction ys generalizing seen observed with
  | nil => rwa [append_nil]
  | cons y ys ih =>
    rw [foldl_cons, append_cons]
    exact ih (h.touch y)

/-- What is dropped has `n` members behind it. -/
theorem Remembers.newest (h : Remembers n seen observed) (hnodup : seen.Nodup) :
    Remembers n (seen.newest n) observed := by
  intro x hx
  rcases h x hx with hmany | ⟨hseen, hsub⟩
  · exact .inl hmany
  have hsplit : seen.take (seen.length - n) ++ seen.newest n = seen := take_append_drop _ _
  by_cases hkept : x ∈ seen.newest n
  · right
    refine ⟨hkept, ?_⟩
    rw [← hsplit, since_append_of_mem _ hkept] at hsub
    exact hsub
  · left
    have hlength : n ≤ (seen.newest n).length := by
      by_contra hshort
      unfold List.newest at hshort hkept
      rw [length_drop] at hshort
      have hzero : seen.length - n = 0 := by omega
      rw [hzero, drop_zero] at hkept
      exact hkept hseen
    rw [← hsplit, since_append_of_notMem _ hkept] at hsub
    have hbehind : seen.newest n ⊆ observed.since x := Subset.trans (subset_append_right _ _) hsub
    have hcard : (seen.newest n).toFinset.card = (seen.newest n).length :=
      toFinset_card_of_nodup (hnodup.sublist (newest_sublist n seen))
    rw [← hcard] at hlength
    apply hlength.trans
    apply Finset.card_le_card
    intro y hy
    rw [mem_toFinset] at hy ⊢
    exact hbehind hy

/-- Older members before the list change nothing. -/
theorem Remembers.older (h : Remembers n seen observed) (older : List α) :
    Remembers n (older ++ seen) observed := by
  intro x hx
  rcases h x hx with hmany | ⟨hseen, hsub⟩
  · exact .inl hmany
  · right
    refine ⟨mem_append_right _ hseen, ?_⟩
    rw [since_append_of_mem _ hseen]
    exact hsub

end Remembers

/-! ## The order of the last uses -/

/-- The members of `l` are used ones, and each was used again behind the last use of all that
stand before it. -/
structure ByRecency (uses l : List α) : Prop where
  nodup : l.Nodup
  used : l ⊆ uses
  order : l.Pairwise fun x y => y ∈ uses.since x

section ByRecency
variable {uses : List α}

theorem ByRecency.nil (uses : List α) : ByRecency uses [] :=
  ⟨nodup_nil, nil_subset _, Pairwise.nil⟩

theorem ByRecency.sublist (h : ByRecency uses l) (hsub : l'.Sublist l) : ByRecency uses l' :=
  ⟨h.nodup.sublist hsub, Subset.trans hsub.subset h.used, h.order.sublist hsub⟩

theorem ByRecency.later (h : ByRecency uses (l ++ l')) (hx : x ∈ l) (hy : y ∈ l') :
    y ∈ uses.since x :=
  (pairwise_append.mp h.order).2.2 x hx y hy

theorem ByRecency.concat (h : ByRecency uses l) (hx : x ∉ l) :
    ByRecency (uses ++ [x]) (l ++ [x]) := by
  have hlast : ∀ y ∈ l, (uses ++ [x]).since y = uses.since y ++ [x] := by
    intro y hy
    rw [since_concat, if_neg]
    rintro rfl
    exact hx hy
  constructor
  · rw [nodup_append]
    refine ⟨h.nodup, nodup_singleton x, fun y hy z hz => ?_⟩
    rw [mem_singleton.mp hz]
    rintro rfl
    exact hx hy
  · apply append_subset.mpr
    exact ⟨Subset.trans h.used (subset_append_left _ _), subset_append_right _ _⟩
  · rw [pairwise_append]
    refine ⟨?_, pairwise_singleton _ _, fun y hy z hz => ?_⟩
    · apply h.order.imp_of_mem
      intro y z hy _ hyz
      rw [hlast y hy]
      exact mem_append_left _ hyz
    · rw [hlast y hy]
      exact mem_append_right _ hz

end ByRecency

-- a large bound is not to be counted down to when two lists are compared
attribute [irreducible] newest

end List
