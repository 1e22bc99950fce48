import Mathlib.Data.List.Nodup

/-! Maps that keep the order of insertion, as lists whose members carry their keys. -/
namespace List
variable {α κ : Type} [DecidableEq κ] {key : α → κ} {k : κ} {change : α → α} {fresh : α}
  {l : List α} {x : α}

/-- Change the member at the key, or add `fresh` at the end. -/
def upsert (key : α → κ) (k : κ) (change : α → α) (fresh : α) (l : List α) : List α :=
  if k ∈ l.map key then l.map fun x => if key x = k then change x else x else l ++ [fresh]

theorem map_key_upsert (hchange : ∀ x, key x = k → key (change x) = k) (hfresh : key fresh = k) :
    (l.upsert key k change fresh).map key =
      if k ∈ l.map key then l.map key else l.map key ++ [k] := by
  unfold upsert
  split_ifs with h
  · rw [map_map]
    refine map_congr_left fun x _ => ?_
    simp only [Function.comp_apply]
    split_ifs with hx
    · rw [hchange x hx, hx]
    · rfl
  · rw [map_append, map_singleton, hfresh]

theorem nodup_upsert (hl : (l.map key).Nodup) (hchange : ∀ x, key x = k → key (change x) = k)
    (hfresh : key fresh = k) : ((l.upsert key k change fresh).map key).Nodup := by
  rw [map_key_upsert hchange hfresh]
  split_ifs with h
  · exact hl
  · rw [nodup_append]
    refine ⟨hl, nodup_singleton k, fun a ha b hb => ?_⟩
    rw [mem_singleton.mp hb]
    rintro rfl
    exact h ha

theorem mem_upsert (h : x ∈ l.upsert key k change fresh) :
    x ∈ l ∧ key x ≠ k ∨ (∃ y ∈ l, key y = k ∧ x = change y) ∨ k ∉ l.map key ∧ x = fresh := by
  unfold upsert at h
  split_ifs at h with hk
  · obtain ⟨y, hy, rfl⟩ := mem_map.mp h
    split_ifs with hkey
    · exact .inr (.inl ⟨y, hy, hkey, rfl⟩)
    · exact .inl ⟨hy, hkey⟩
  · rcases mem_append.mp h with h | h
    · refine .inl ⟨h, fun hkey => hk ?_⟩
      exact mem_map.mpr ⟨x, h, hkey⟩
    · exact .inr (.inr ⟨hk, mem_singleton.mp h⟩)

theorem map_upsert {β : Type} {key' : β → κ} {change' : β → β} (f : α → β)
    (hkey : ∀ x, key' (f x) = key x) (hchange : ∀ x, f (change x) = change' (f x)) :
    (l.upsert key k change fresh).map f = (l.map f).upsert key' k change' (f fresh) := by
  have hkeys : (l.map f).map key' = l.map key := by
    rw [map_map]
    exact map_congr_left fun x _ => hkey x
  unfold upsert
  rw [hkeys]
  split_ifs with h
  · rw [map_map, map_map]
    refine map_congr_left fun x _ => ?_
    simp only [Function.comp_apply, hkey]
    split_ifs
    · exact hchange x
    · rfl
  · rw [map_append, map_singleton]

end List
