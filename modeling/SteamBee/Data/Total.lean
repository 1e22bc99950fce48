/-! Sums of a quantity over a list, as a fold adds them up, and how two such sums compare
when the lists are matched by keys. -/
namespace List
variable {α β κ : Type}

def total (l : List α) (f : α → Nat) : Nat := l.foldl (fun sum x => sum + f x) 0

theorem foldl_total (l : List α) (f : α → Nat) (n : Nat) :
    l.foldl (fun sum x => sum + f x) n = n + l.total f := by
  unfold total
  induction l generalizing n with
  | nil => rfl
  | cons x l ih =>
    simp only [foldl_cons]
    rw [ih (n + f x), ih (0 + f x)]
    omega

@[simp] theorem total_nil (f : α → Nat) : ([] : List α).total f = 0 := rfl

@[simp] theorem total_cons (x : α) (l : List α) (f : α → Nat) :
    (x :: l).total f = f x + l.total f := by
  have h := foldl_total l f (0 + f x)
  unfold total at h ⊢
  simp only [foldl_cons]
  omega

@[simp] theorem total_append (l l' : List α) (f : α → Nat) :
    (l ++ l').total f = l.total f + l'.total f := by
  induction l with
  | nil => simp
  | cons x l ih =>
    simp only [cons_append, total_cons]
    omega

theorem total_map (l : List α) (g : α → β) (f : β → Nat) :
    (l.map g).total f = l.total fun x => f (g x) := by
  induction l with
  | nil => rfl
  | cons x l ih => simp only [map_cons, total_cons, ih]

theorem total_congr {l : List α} {f g : α → Nat} (h : ∀ x ∈ l, f x = g x) :
    l.total f = l.total g := by
  induction l with
  | nil => rfl
  | cons x l ih =>
    have hx : f x = g x := h x mem_cons_self
    have hl : l.total f = l.total g := ih fun y hy => h y (mem_cons_of_mem x hy)
    simp only [total_cons, hx, hl]

theorem total_add (l : List α) (f g : α → Nat) :
    l.total (fun x => f x + g x) = l.total f + l.total g := by
  induction l with
  | nil => rfl
  | cons x l ih =>
    simp only [total_cons]
    omega

theorem total_eq_zero {l : List α} {f : α → Nat} (h : ∀ x ∈ l, f x = 0) : l.total f = 0 := by
  induction l with
  | nil => rfl
  | cons x l ih =>
    have hx : f x = 0 := h x mem_cons_self
    have hl : l.total f = 0 := ih fun y hy => h y (mem_cons_of_mem x hy)
    simp only [total_cons, hx, hl]

theorem total_comm (l : List α) (l' : List β) (f : α → β → Nat) :
    l.total (fun x => l'.total (f x)) = l'.total fun y => l.total fun x => f x y := by
  induction l with
  | nil => exact (total_eq_zero fun _ _ => rfl).symm
  | cons x l ih =>
    simp only [total_cons, ih]
    exact (total_add l' _ _).symm

theorem total_eq_zero_iff {l : List α} {f : α → Nat} : l.total f = 0 ↔ ∀ x ∈ l, f x = 0 := by
  constructor
  · intro h
    induction l with
    | nil =>
      intro x hx
      cases hx
    | cons y l ih =>
      rw [total_cons] at h
      intro x hx
      rcases mem_cons.mp hx with rfl | hx
      · omega
      · exact ih (by omega) x hx
  · exact total_eq_zero

theorem total_filter (l : List α) (p : α → Bool) (f : α → Nat) :
    (l.filter p).total f = l.total fun x => if p x then f x else 0 := by
  induction l with
  | nil => rfl
  | cons x l ih =>
    by_cases h : p x = true
    · simp [h, ih]
    · simp [h, ih]

theorem total_le {l : List α} {f : α → Nat} {n : Nat} (h : ∀ x ∈ l, f x ≤ n) :
    l.total f ≤ l.length * n := by
  induction l with
  | nil => exact Nat.zero_le _
  | cons x l ih =>
    have hx : f x ≤ n := h x mem_cons_self
    have hl : l.total f ≤ l.length * n := ih fun y hy => h y (mem_cons_of_mem x hy)
    rw [total_cons, length_cons, Nat.succ_mul]
    omega

theorem Perm.total_eq {l l' : List α} (h : l.Perm l') (f : α → Nat) : l.total f = l'.total f := by
  induction h with
  | nil => rfl
  | cons x _ ih => simp only [total_cons, ih]
  | swap x y l =>
    simp only [total_cons]
    omega
  | trans _ _ ih ih' => exact ih.trans ih'

/-- Two quantities that differ on one key only. -/
theorem total_except {l : List α} {f g : α → Nat} {x : α} (key : α → κ)
    (hkeys : (l.map key).Nodup) (hx : x ∈ l) (h : ∀ y ∈ l, key y ≠ key x → f y = g y) :
    l.total f + g x = l.total g + f x := by
  induction l with
  | nil => cases hx
  | cons y l ih =>
    obtain ⟨hy, hnodup⟩ := nodup_cons.mp hkeys
    simp only [total_cons]
    rcases mem_cons.mp hx with rfl | hxl
    · have hl : l.total f = l.total g := by
        apply total_congr
        intro z hz
        apply h z (mem_cons_of_mem x hz)
        intro heq
        exact hy (heq ▸ mem_map_of_mem hz)
      omega
    · have hne : key y ≠ key x := by
        intro heq
        exact hy (heq ▸ mem_map_of_mem hxl)
      have hfy : f y = g y := h y mem_cons_self hne
      have hl := ih hnodup hxl fun z hz => h z (mem_cons_of_mem y hz)
      omega

/-- Each positive summand on the left has its own one on the right that is not less.
By induction on the left list, taking the partner of its head out of the right one. -/
theorem total_le_total {l : List α} {l' : List β} {f : α → Nat} {g : β → Nat} (key : α → κ)
    (key' : β → κ) (hkeys : (l.map key).Nodup)
    (h : ∀ x ∈ l, 0 < f x → ∃ y ∈ l', key' y = key x ∧ f x ≤ g y) : l.total f ≤ l'.total g := by
  induction l generalizing l' with
  | nil => exact Nat.zero_le _
  | cons x l ih =>
    obtain ⟨hx, hnodup⟩ := nodup_cons.mp hkeys
    simp only [total_cons]
    rcases Nat.eq_zero_or_pos (f x) with hzero | hpos
    · have hl := ih hnodup fun z hz => h z (mem_cons_of_mem x hz)
      omega
    · obtain ⟨y, hy, hkey, hle⟩ := h x mem_cons_self hpos
      obtain ⟨s, t, rfl⟩ := append_of_mem hy
      have hl : l.total f ≤ (s ++ t).total g := by
        apply ih hnodup
        intro z hz hzpos
        obtain ⟨w, hw, hwkey, hwle⟩ := h z (mem_cons_of_mem x hz) hzpos
        refine ⟨w, ?_, hwkey, hwle⟩
        have hne : w ≠ y := by
          rintro rfl
          exact hx (hkey.symm.trans hwkey ▸ mem_map_of_mem hz)
        simp only [mem_append, mem_cons] at hw ⊢
        rcases hw with hw | hw | hw
        · exact .inl hw
        · exact absurd hw hne
        · exact .inr hw
      simp only [total_append, total_cons] at hl ⊢
      omega

end List
