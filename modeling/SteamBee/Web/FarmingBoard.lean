import Mathlib.Data.List.Nodup
import SteamBee.Farming.Order

/-! The board of the farming games in the web client: what its buttons make of the pinned games,
and how the service then lists them. -/
namespace SteamBee.Web.FarmingBoard
open Farming

/-- What the board asks to change of the rules. -/
structure Filters where
  whitelist : Option (List AppId) := none
  blacklist : Option (List AppId) := none
  priority : Option (List AppId) := none
  deriving DecidableEq, Repr

section Board
variable (snapshot : FarmingSnapshot)

def withDrops : List FarmingGame :=
  snapshot.games.filter fun game => decide (0 < game.remainingDrops)

def next : List FarmingGame :=
  (withDrops snapshot).filter fun game =>
    !snapshot.activeAppIds.contains game.appId && game.skipReason.isNone

def pinned : List FarmingGame :=
  snapshot.config.priority.filterMap fun appId =>
    (next snapshot).find? fun game => game.appId == appId

def pulledForward (appId : AppId) (index : ℤ) : List AppId :=
  let rest := ((pinned snapshot).map FarmingGame.appId).filter (· != appId)
  let at_ := (max 0 (min index rest.length)).toNat
  rest.take at_ ++ appId :: rest.drop at_

/-- Put a game at a position among those that are pulled forward. -/
def pinAt (appId : AppId) (index : ℤ) : Filters :=
  let rest := pulledForward snapshot appId index
  -- the pins of games that run or are hidden
  let others := snapshot.config.priority.filter fun id =>
    !rest.contains id && !(pinned snapshot).any fun game => game.appId == id
  { priority := some (others ++ rest) }

def unpin (appId : AppId) : Filters :=
  { priority := some (snapshot.config.priority.filter (· != appId)) }

/-- An empty whitelist means every game, so it is never emptied here. -/
def exclude (appId : AppId) : Filters :=
  let narrowed := snapshot.config.whitelist.filter (· != appId)
  { whitelist := some (if narrowed.isEmpty then snapshot.config.whitelist else narrowed)
    blacklist := some (snapshot.config.blacklist ++ [appId])
    priority := some (snapshot.config.priority.filter (· != appId)) }

def waits (appId : AppId) : Bool := (next snapshot).any fun game => game.appId == appId

/-- What an edit of one game leaves of the pins: no other pin is lost, those that wait are shown as
requested, and among those that wait, as among those that do not, the others stay in order. -/
structure Edits (appId : AppId) (requested priority : List AppId) : Prop where
  nodup : priority.Nodup
  kept : ∀ id ∈ snapshot.config.priority, id ≠ appId → id ∈ priority
  only : ∀ id ∈ priority, id ∈ snapshot.config.priority ∨ id = appId
  shown : priority.filter (waits snapshot) = requested.filter (waits snapshot)
  waiting : (priority.filter (· != appId)).filter (waits snapshot) =
    (snapshot.config.priority.filter (· != appId)).filter (waits snapshot)
  hidden : (priority.filter (· != appId)).filter (!waits snapshot ·) =
    (snapshot.config.priority.filter (· != appId)).filter (!waits snapshot ·)

/-- The service lists the pinned games that wait as they stand in `requested`. -/
def Lists (setup : Setup) (requested priority : List AppId) : Prop :=
  ∀ session : Session, session.snapshot.config.priority = priority →
    ((session.orderGames setup).snapshot.games.filter fun game =>
        waits snapshot game.appId && priority.contains game.appId).Pairwise fun first second =>
      first.appId = second.appId ∨ [first.appId, second.appId].Sublist requested

end Board

variable {snapshot : FarmingSnapshot} {appId id : AppId} {index : ℤ}
  {requested priority : List AppId} {setup : Setup}

/-! ## Lists -/

/-- Parting a list keeps it as it is if and only if its parts stand apart in it. -/
theorem filter_append_filter_eq_iff {α : Type*} {p : α → Bool} {l : List α} :
    l.filter (!p ·) ++ l.filter p = l ↔ l.Pairwise fun x y => p x = true → p y = true := by
  induction l with
  | nil => simp
  | cons x l ih =>
    rw [List.pairwise_cons, ← ih]
    cases hx : p x with
    | false => simp [hx]
    | true =>
      rw [List.filter_cons_of_neg (by simp [hx]), List.filter_cons_of_pos hx]
      constructor
      · intro h
        cases hfront : l.filter (!p ·) with
        | nil =>
          rw [hfront, List.nil_append, List.cons.injEq] at h
          rw [List.nil_append]
          refine ⟨fun y hy _ => ?_, h.2⟩
          have hnone := List.filter_eq_nil_iff.mp hfront y hy
          simpa using hnone
        | cons y front =>
          have hmem : y ∈ l.filter (!p ·) := hfront ▸ List.mem_cons_self
          rw [hfront, List.cons_append, List.cons.injEq] at h
          have hy := (List.mem_filter.mp hmem).2
          rw [h.1, hx] at hy
          cases hy
      · rintro ⟨hall, hrest⟩
        have hfront : l.filter (!p ·) = [] := by
          rw [List.filter_eq_nil_iff]
          intro y hy
          rw [hall y hy rfl]
          decide
        rw [hfront, List.nil_append] at hrest ⊢
        rw [hrest]

/-- Two members at different positions stand in that order. -/
theorem pair_sublist {α : Type*} {l : List α} {x y : α} {i j : ℕ} (hi : l[i]? = some x)
    (hj : l[j]? = some y) (hlt : i < j) : [x, y].Sublist l := by
  have hx : x ∈ l.take j := by
    apply List.mem_of_getElem? (i := i)
    rw [List.getElem?_take_of_lt hlt]
    exact hi
  have hy : y ∈ l.drop j := by
    apply List.mem_of_getElem? (i := 0)
    rw [List.getElem?_drop]
    exact hj
  have happend := (List.singleton_sublist.mpr hx).append (List.singleton_sublist.mpr hy)
  rwa [List.take_append_drop] at happend

/-! ## The pins that wait -/

theorem map_pinned (snapshot : FarmingSnapshot) : (pinned snapshot).map FarmingGame.appId =
    snapshot.config.priority.filter (waits snapshot) := by
  unfold pinned
  generalize snapshot.config.priority = priority
  induction priority with
  | nil => rfl
  | cons appId priority ih =>
    cases hfind : (next snapshot).find? fun game => game.appId == appId with
    | none =>
      have hnot : waits snapshot appId = false := by
        rw [waits, List.any_eq_false]
        exact List.find?_eq_none.mp hfind
      simp only [List.filterMap_cons, hfind]
      rw [ih, List.filter_cons_of_neg (by rw [hnot]; decide)]
    | some game =>
      have hid : game.appId = appId := by simpa using List.find?_some hfind
      have hwaits : waits snapshot appId = true :=
        List.any_eq_true.mpr ⟨game, List.mem_of_find?_eq_some hfind, by simpa using hid⟩
      simp only [List.filterMap_cons, hfind]
      rw [List.map_cons, ih, hid, List.filter_cons_of_pos hwaits]

theorem mem_pulledForward :
    id ∈ pulledForward snapshot appId index ↔
      id = appId ∨ id ∈ snapshot.config.priority ∧ waits snapshot id = true := by
  unfold pulledForward
  rw [map_pinned]
  generalize (max 0 (min index _)).toNat = at_
  rw [List.mem_append, List.mem_cons, or_left_comm, ← List.mem_append, List.take_append_drop,
    List.mem_filter, List.mem_filter]
  by_cases hid : id = appId
  · simp [hid]
  · simp [hid]

theorem nodup_pulledForward (h : snapshot.config.priority.Nodup) :
    (pulledForward snapshot appId index).Nodup := by
  unfold pulledForward
  rw [map_pinned]
  generalize (max 0 (min index _)).toNat = at_
  rw [List.perm_middle.nodup_iff, List.take_append_drop, List.nodup_cons]
  refine ⟨?_, (h.filter _).filter _⟩
  simp

/-- The other games that are pulled forward stay as they were. -/
theorem filter_pulledForward : (pulledForward snapshot appId index).filter (· != appId) =
    (snapshot.config.priority.filter (waits snapshot)).filter (· != appId) := by
  unfold pulledForward
  rw [map_pinned]
  generalize (max 0 (min index _)).toNat = at_
  rw [List.filter_append, List.filter_cons_of_neg (by simp), ← List.filter_append,
    List.take_append_drop, List.filter_filter]
  simp

/-- The pins of the other games, which are not shown. -/
theorem priority_pinAt (snapshot : FarmingSnapshot) (appId : AppId) (index : ℤ) :
    (pinAt snapshot appId index).priority =
      some ((snapshot.config.priority.filter (· != appId)).filter (!waits snapshot ·) ++
        pulledForward snapshot appId index) := by
  unfold pinAt
  dsimp only
  congr 2
  rw [List.filter_filter]
  apply List.filter_congr
  intro id hid
  have hpinned : ((pinned snapshot).any fun game => game.appId == id) = waits snapshot id := by
    have hmem : id ∈ (pinned snapshot).map FarmingGame.appId ↔ waits snapshot id = true := by
      rw [map_pinned, List.mem_filter]
      exact and_iff_right hid
    rw [Bool.eq_iff_iff, ← hmem, List.any_eq_true, List.mem_map]
    simp
  rw [hpinned]
  cases hwaits : waits snapshot id with
  | true => simp
  | false =>
    by_cases hsame : id = appId
    · simp [hsame, mem_pulledForward]
    · simp [hsame, mem_pulledForward, hwaits]

/-! ## Edits -/

theorem edits_filter (h : snapshot.config.priority.Nodup) (appId : AppId) :
    Edits snapshot appId ((pinned snapshot).map FarmingGame.appId |>.filter (· != appId))
      (snapshot.config.priority.filter (· != appId)) := by
  constructor
  case nodup => exact h.filter _
  case kept => exact fun id hid hne => List.mem_filter.mpr ⟨hid, by simpa using hne⟩
  case only => exact fun id hid => Or.inl (List.mem_filter.mp hid).1
  case shown =>
    rw [map_pinned, List.filter_filter, List.filter_filter, List.filter_filter]
    apply List.filter_congr
    intro id _
    cases waits snapshot id <;> simp
  case waiting => rw [List.filter_filter, List.filter_filter, List.filter_filter]; simp
  case hidden => rw [List.filter_filter, List.filter_filter, List.filter_filter]; simp

theorem edits_pinAt (h : snapshot.config.priority.Nodup) :
    Edits snapshot appId (pulledForward snapshot appId index)
      ((snapshot.config.priority.filter (· != appId)).filter (!waits snapshot ·) ++
        pulledForward snapshot appId index) := by
  have hshown : ∀ id ∈ pulledForward snapshot appId index, id ≠ appId →
      waits snapshot id = true := by
    intro id hid hne
    rcases mem_pulledForward.mp hid with heq | ⟨-, hwaits⟩
    · exact absurd heq hne
    · exact hwaits
  constructor
  case nodup =>
    rw [List.nodup_append]
    refine ⟨(h.filter _).filter _, nodup_pulledForward h, ?_⟩
    rintro id hid other hother rfl
    simp only [List.mem_filter, bne_iff_ne, ne_eq, Bool.not_eq_true'] at hid
    rw [hshown id hother hid.1.2] at hid
    cases hid.2
  case kept =>
    intro id hid hne
    rw [List.mem_append, mem_pulledForward, List.mem_filter, List.mem_filter]
    cases hwaits : waits snapshot id with
    | true => exact Or.inr (Or.inr ⟨hid, rfl⟩)
    | false => exact Or.inl ⟨⟨hid, by simpa using hne⟩, rfl⟩
  case only =>
    intro id hid
    rcases List.mem_append.mp hid with hother | hrest
    · exact Or.inl (List.mem_filter.mp (List.mem_filter.mp hother).1).1
    · rcases mem_pulledForward.mp hrest with heq | ⟨hmem, -⟩
      · exact Or.inr heq
      · exact Or.inl hmem
  case shown =>
    rw [List.filter_append, List.filter_filter]
    simp
  case waiting =>
    rw [List.filter_append, filter_pulledForward, List.filter_append]
    simp only [List.filter_filter]
    have hnone : snapshot.config.priority.filter (fun id => waits snapshot id && (id != appId &&
        (!waits snapshot id && id != appId))) = [] := by
      rw [List.filter_eq_nil_iff]
      intro id _
      cases waits snapshot id <;> simp
    rw [hnone, List.nil_append]
    apply List.filter_congr
    intro id _
    cases waits snapshot id <;> simp
  case hidden =>
    rw [List.filter_append, filter_pulledForward, List.filter_append]
    simp only [List.filter_filter]
    have hnone : snapshot.config.priority.filter (fun id => !waits snapshot id && (id != appId &&
        waits snapshot id)) = [] := by
      rw [List.filter_eq_nil_iff]
      intro id _
      cases waits snapshot id <;> simp
    rw [hnone, List.append_nil]
    apply List.filter_congr
    intro id _
    cases waits snapshot id <;> simp

/-- The pins of the other games keep their order if and only if none that waits stands before one
that does not. -/
theorem filter_pinAt_eq_iff (snapshot : FarmingSnapshot) (appId : AppId) (index : ℤ) :
    ((snapshot.config.priority.filter (· != appId)).filter (!waits snapshot ·) ++
        pulledForward snapshot appId index).filter (· != appId) =
      snapshot.config.priority.filter (· != appId) ↔
    (snapshot.config.priority.filter (· != appId)).Pairwise fun first second =>
      waits snapshot first = true → waits snapshot second = true := by
  rw [← filter_append_filter_eq_iff, List.filter_append, filter_pulledForward]
  have hothers : ((snapshot.config.priority.filter (· != appId)).filter
      (!waits snapshot ·)).filter (· != appId) =
      (snapshot.config.priority.filter (· != appId)).filter (!waits snapshot ·) := by
    simp only [List.filter_filter]
    apply List.filter_congr
    intro id _
    cases waits snapshot id <;> simp
  have hrest : (snapshot.config.priority.filter (waits snapshot)).filter (· != appId) =
      (snapshot.config.priority.filter (· != appId)).filter (waits snapshot) := by
    simp only [List.filter_filter, Bool.and_comm]
  rw [hothers, hrest]

/-! ## The order of the service -/

theorem pin_le_of_inOrder {config : FarmingConfig} {badgeOrder : List AppId}
    {first second : FarmingGame} (h : InOrder setup config badgeOrder first second) :
    pinOf config first ≤ pinOf config second := by
  rcases h with hlt | ⟨heq, -⟩
  · exact hlt.le
  · exact heq.le

/-- Two pinned games stand in the list of pins as they do by their positions in it. -/
theorem sublist_of_pin_le {config : FarmingConfig} {first second : FarmingGame}
    (hfirst : first.appId ∈ config.priority) (hsecond : second.appId ∈ config.priority)
    (hle : pinOf config first ≤ pinOf config second) :
    first.appId = second.appId ∨ [first.appId, second.appId].Sublist config.priority := by
  obtain ⟨i, hi⟩ := Option.isSome_iff_exists.mp (mapIndex_isSome hfirst)
  obtain ⟨j, hj⟩ := Option.isSome_iff_exists.mp (mapIndex_isSome hsecond)
  have hpositions : i ≤ j := by simpa [pinOf, hi, hj] using hle
  rcases hpositions.lt_or_eq with hlt | rfl
  · exact Or.inr (pair_sublist (getElem?_of_mapIndex hi) (getElem?_of_mapIndex hj) hlt)
  · left
    have hids := getElem?_of_mapIndex hi
    rw [getElem?_of_mapIndex hj] at hids
    exact (Option.some.inj hids).symm

/-- The service takes the pins in their order, whatever the rest of the rules. -/
theorem lists_of_shown [Std.TransCmp setup.localeCompare]
    (hshown : priority.filter (waits snapshot) = requested.filter (waits snapshot)) :
    Lists snapshot setup requested priority := by
  rintro session rfl
  have hordered : (session.orderGames setup).snapshot.games.Pairwise
      (InOrder setup session.snapshot.config session.badgeOrder) :=
    Session.ordered_orderGames session
  apply (hordered.filter _).imp_of_mem
  intro first second hfirst hsecond horder
  simp only [List.mem_filter, Bool.and_eq_true, List.contains_iff_mem] at hfirst hsecond
  rcases sublist_of_pin_le hfirst.2.2 hsecond.2.2 (pin_le_of_inOrder horder) with heq | hpair
  · exact Or.inl heq
  · right
    have hwaits := hpair.filter (waits snapshot)
    rw [List.filter_cons_of_pos hfirst.2.1, List.filter_cons_of_pos hsecond.2.1,
      List.filter_nil, hshown] at hwaits
    exact hwaits.trans List.filter_sublist

/-- Two games wait, of which one is pinned before a game that is on no badge page. -/
def hiddenPin : FarmingSnapshot where
  accountId := "bee"
  phase := .stopped
  config := { priority := [10, 30] }
  games := [⟨10, "a", 2, none, none, none, none⟩, ⟨20, "b", 2, none, none, none, none⟩]
  activeAppIds := []
  remainingDrops := 4
  scannedAt := some 0
  startedAt := none
  truncated := false
  reason := none
  canStart := true
  gameLimit := 32
  pricing := false

/-- A pin that is not shown may come to stand before one that is, and neither is edited. -/
theorem not_pinAt_order : ¬ ∀ (snapshot : FarmingSnapshot) (appId : AppId) (index : ℤ) priority,
    snapshot.config.priority.Nodup → (pinAt snapshot appId index).priority = some priority →
    priority.filter (· != appId) = snapshot.config.priority.filter (· != appId) := by
  intro h
  have hpriority : (pinAt hiddenPin 20 1).priority = some [30, 10, 20] := by decide +kernel
  have hclaimed := h hiddenPin 20 1 _ (by decide) hpriority
  revert hclaimed
  decide

/-- Each edit of the board keeps the other pins, shows those that wait as requested, and is listed
so by the service. The other pins stay in order among those that wait and among those that do not;
all of them stay in order when a game is released or excluded, and when it is put among those that
are pulled forward if and only if no other pin that waits stands before one that does not. -/
theorem edits_listed [Std.TransCmp setup.localeCompare] (h : snapshot.config.priority.Nodup)
    (appId : AppId) :
    (∀ index, ∃ priority, (pinAt snapshot appId index).priority = some priority ∧
      Edits snapshot appId (pulledForward snapshot appId index) priority ∧ appId ∈ priority ∧
      Lists snapshot setup (pulledForward snapshot appId index) priority ∧
      (priority.filter (· != appId) = snapshot.config.priority.filter (· != appId) ↔
        (snapshot.config.priority.filter (· != appId)).Pairwise fun first second =>
          waits snapshot first = true → waits snapshot second = true)) ∧
    ∃ priority, (unpin snapshot appId).priority = some priority ∧
      (exclude snapshot appId).priority = some priority ∧
      Edits snapshot appId (((pinned snapshot).map FarmingGame.appId).filter (· != appId))
        priority ∧ appId ∉ priority ∧
      Lists snapshot setup (((pinned snapshot).map FarmingGame.appId).filter (· != appId))
        priority ∧
      priority.filter (· != appId) = snapshot.config.priority.filter (· != appId) := by
  constructor
  · intro index
    refine ⟨_, priority_pinAt snapshot appId index, edits_pinAt h, ?_,
      lists_of_shown (edits_pinAt h).shown, filter_pinAt_eq_iff snapshot appId index⟩
    exact List.mem_append_right _ (mem_pulledForward.mpr (Or.inl rfl))
  · refine ⟨_, rfl, rfl, edits_filter h appId, ?_, lists_of_shown (edits_filter h appId).shown, ?_⟩
    · simp
    · rw [List.filter_filter]
      simp

theorem edits_listed_hiddenPin : Edits hiddenPin 20 [10, 20] [30, 10, 20] ∧
    Lists hiddenPin { accountId := "bee", localeCompare := compare } [10, 20] [30, 10, 20] := by
  have htrans : Std.TransCmp (compare : String → String → Ordering) := inferInstance
  obtain ⟨priority, hpriority, hedits, -, hlists, -⟩ :=
    (@edits_listed hiddenPin { accountId := "bee", localeCompare := compare } htrans (by decide)
      20).1 1
  have hnew : (pinAt hiddenPin 20 1).priority = some [30, 10, 20] := by decide +kernel
  have hshown : pulledForward hiddenPin 20 1 = [10, 20] := by decide +kernel
  rw [hnew] at hpriority
  obtain rfl := Option.some.inj hpriority
  rw [hshown] at hedits hlists
  exact ⟨hedits, hlists⟩

end SteamBee.Web.FarmingBoard
