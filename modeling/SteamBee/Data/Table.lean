import Mathlib.Data.List.AList

/-! Finite tables over `AList`: the entries of one key type and one value type,
with the bulk deletion and the in-place update that a mutable map offers. -/

/-- A finite map from keys to values of one type. -/
abbrev Table (K V : Type) := AList fun _ : K => V

namespace Table
variable {K V : Type}

/-- Delete every entry that fails the test. -/
def retain (p : K → V → Bool) (t : Table K V) : Table K V :=
  ⟨t.entries.filter fun e => p e.1 e.2, t.nodupKeys.sublist List.filter_sublist⟩

def update (f : K → V → V) (t : Table K V) : Table K V :=
  ⟨t.entries.map fun e => ⟨e.1, f e.1 e.2⟩, t.nodupKeys.map₂ f⟩

def size (t : Table K V) : ℕ := t.entries.length

variable [DecidableEq K]

def modify (k : K) (f : V → V) (t : Table K V) : Table K V :=
  t.update fun k' v => if k' = k then f v else v

theorem lookup_insert_eq (t : Table K V) (k k' : K) (v : V) :
    (t.insert k v).lookup k' = if k' = k then some v else t.lookup k' := by
  split_ifs with h
  · rw [h, AList.lookup_insert]
  · exact AList.lookup_insert_ne h

theorem lookup_erase_eq (t : Table K V) (k k' : K) :
    (t.erase k).lookup k' = if k' = k then none else t.lookup k' := by
  split_ifs with h
  · rw [h, AList.lookup_erase]
  · exact AList.lookup_erase_ne h

theorem lookup_eq_some_iff {t : Table K V} {k : K} {v : V} :
    t.lookup k = some v ↔ ⟨k, v⟩ ∈ t.entries := AList.mem_lookup_iff

theorem lookup_retain (p : K → V → Bool) (t : Table K V) (k : K) :
    (t.retain p).lookup k = (t.lookup k).filter (p k) := by
  ext v
  rw [lookup_eq_some_iff]
  simp only [retain, List.mem_filter, Option.filter_eq_some_iff, lookup_eq_some_iff]

@[simp] theorem lookup_update (f : K → V → V) (t : Table K V) (k : K) :
    (t.update f).lookup k = (t.lookup k).map (f k) :=
  List.dlookup_map₂ k

theorem lookup_modify (k k' : K) (f : V → V) (t : Table K V) :
    (t.modify k f).lookup k' = if k' = k then (t.lookup k).map f else t.lookup k' := by
  rw [modify, lookup_update]
  split_ifs with h
  · subst h; rfl
  · cases t.lookup k' <;> rfl

theorem modify_of_lookup_none {t : Table K V} {k : K} {f : V → V} (h : t.lookup k = none) :
    t.modify k f = t := by
  apply AList.ext
  show t.entries.map _ = t.entries
  conv_rhs => rw [← List.map_id' t.entries]
  apply List.map_congr_left
  intro e he
  have hne : e.1 ≠ k := by
    intro heq
    have hlook := lookup_eq_some_iff.mpr he
    rw [heq, h] at hlook
    cases hlook
  simp [hne]

/-- An entry left by `retain` was there before. -/
theorem lookup_of_retain {p : K → V → Bool} {t : Table K V} {k : K} {v : V}
    (h : (t.retain p).lookup k = some v) : t.lookup k = some v ∧ p k v = true := by
  rw [lookup_retain] at h
  exact Option.filter_eq_some_iff.mp h

end Table
