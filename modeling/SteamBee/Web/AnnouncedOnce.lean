import SteamBee.Web.FreeGamesWatcher

/-! An offer is announced once, as long as fewer offers than the memory holds have been observed
since. -/
namespace SteamBee.Web
open Text Transition
variable {offers : List FreeGameOffer} {offer : FreeGameOffer} {seen observed : List ℤ}
  {state fallback : OfferNotificationState} {storage : OfferStorage} {baselined baseline : Bool}
  {s t : WatcherState} {a : WatcherAction}

/-! ## One snapshot -/

theorem offerIds_cons_none (h : offerId offer.appId = none) (offers : List FreeGameOffer) :
    offerIds (offer :: offers) = offerIds offers := by
  simp [offerIds, h]

theorem offerIds_cons_some {id : ℤ} (h : offerId offer.appId = some id)
    (offers : List FreeGameOffer) : offerIds (offer :: offers) = id :: offerIds offers := by
  simp [offerIds, h]

theorem acceptOffers_seen (baselined : Bool) (seen : List ℤ) (offers : List FreeGameOffer) :
    (acceptOffers baselined seen offers).1 = (offerIds offers).foldl List.touch seen := by
  induction offers generalizing seen with
  | nil => rfl
  | cons offer offers ih =>
    unfold acceptOffers
    cases hid : offerId offer.appId with
    | none =>
      rw [offerIds_cons_none hid]
      exact ih seen
    | some id =>
      rw [offerIds_cons_some hid, List.foldl_cons]
      exact ih (seen.touch id)

/-- The new offers were not seen before, and are taken in with the others. -/
theorem acceptOffers_new (h : offer ∈ (acceptOffers baselined seen offers).2) :
    ∃ id, offerId offer.appId = some id ∧ id ∉ seen ∧ id ∈ offerIds offers := by
  induction offers generalizing seen with
  | nil => cases h
  | cons first offers ih =>
    unfold acceptOffers at h
    cases hid : offerId first.appId with
    | none =>
      rw [offerIds_cons_none hid]
      rw [hid] at h
      exact ih h
    | some id =>
      rw [offerIds_cons_some hid]
      rw [hid] at h
      dsimp only at h
      have hrest (h : offer ∈ (acceptOffers baselined (seen.touch id) offers).2) :
          ∃ other, offerId offer.appId = some other ∧ other ∉ seen ∧
            other ∈ id :: offerIds offers := by
        obtain ⟨other, hother, hunseen, hmem⟩ := ih h
        rw [List.mem_touch, not_or] at hunseen
        exact ⟨other, hother, hunseen.1, List.mem_cons_of_mem _ hmem⟩
      split_ifs at h with hnew
      · rcases List.mem_cons.mp h with rfl | h
        · simp only [Bool.and_eq_true, Bool.not_eq_true', decide_eq_false_iff_not] at hnew
          exact ⟨id, hid, hnew.2, List.mem_cons_self⟩
        · exact hrest h
      · exact hrest h

theorem acceptOffers_distinct (baselined : Bool) (seen : List ℤ) (offers : List FreeGameOffer) :
    (offerIds (acceptOffers baselined seen offers).2).Nodup := by
  induction offers generalizing seen with
  | nil => exact List.nodup_nil
  | cons offer offers ih =>
    unfold acceptOffers
    cases hid : offerId offer.appId with
    | none => exact ih seen
    | some id =>
      dsimp only
      split_ifs
      · rw [offerIds_cons_some hid]
        refine List.nodup_cons.mpr ⟨fun hmem => ?_, ih _⟩
        obtain ⟨other, hother, hsame⟩ := List.mem_filterMap.mp hmem
        obtain ⟨id', hid', hunseen, -⟩ := acceptOffers_new hother
        rw [hsame] at hid'
        cases hid'
        exact hunseen (List.mem_touch.mpr (.inr rfl))
      · exact ih _

theorem acceptOffers_baseline (seen : List ℤ) (offers : List FreeGameOffer) :
    (acceptOffers false seen offers).2 = [] := by
  induction offers generalizing seen with
  | nil => rfl
  | cons offer offers ih =>
    unfold acceptOffers
    cases offerId offer.appId with
    | none => exact ih seen
    | some id => exact ih _

/-! ## One commit -/

theorem normal_readStoredState (h : readStoredState storage = some state) : state.Normal := by
  unfold readStoredState at h
  split at h
  · cases h
  · split at h
    · cases h
      exact normal_normalizeState _
    · cases h

theorem normal_mergedState (h : fallback.Normal) : (mergedState storage fallback).Normal := by
  unfold mergedState
  split
  · exact normal_normalizeSeen _ _ _
  · exact h

def storedSeen (storage : OfferStorage) : List ℤ :=
  ((readStoredState storage).map fun state => state.seen).getD []

/-- What a tab remembers goes before what is stored. -/
theorem remembers_mergedState (h : fallback.Normal)
    (hseen : List.Remembers seenLimit (storedSeen storage) observed) :
    List.Remembers seenLimit (mergedState storage fallback).seen observed := by
  unfold storedSeen at hseen
  unfold mergedState
  cases hstored : readStoredState storage with
  | none =>
    rw [hstored] at hseen
    have holder := hseen.older fallback.seen
    rwa [Option.map_none, Option.getD_none, List.append_nil] at holder
  | some stored =>
    rw [hstored] at hseen
    have hnormal := normal_readStoredState hstored
    have hids : ∀ id ∈ fallback.seen ++ stored.seen, IsOfferId id := by
      intro id hid
      rcases List.mem_append.mp hid with hid | hid
      · exact h.ids id hid
      · exact hnormal.ids id hid
    dsimp only
    unfold normalizeSeen
    rw [filterMap_seenValues hids]
    refine List.Remembers.newest ?_ (List.nodup_foldl_touch List.nodup_nil _)
    rw [List.foldl_append, List.foldl_touch_nodup hnormal.distinct]
    exact hseen.older _

theorem storedSeen_persistState (h : state.Normal) :
    storedSeen (persistState state) = state.seen := by
  unfold storedSeen
  rw [readStoredState_persistState h]
  rfl

/-- The state behind a snapshot: what is observed goes behind what was seen. -/
def stateAfter (state : OfferNotificationState) (offers : List FreeGameOffer) :
    OfferNotificationState :=
  ⟨true, true, ((offerIds offers).foldl List.touch state.seen).newest seenLimit⟩

theorem normal_stateAfter (h : state.Normal) (offers : List FreeGameOffer) :
    (stateAfter state offers).Normal := by
  apply normal_newest
  · intro id hid
    rw [List.mem_foldl_touch] at hid
    rcases hid with hid | hid
    · exact h.ids id hid
    · obtain ⟨offer, -, hoffer⟩ := List.mem_filterMap.mp hid
      exact (offerId_eq_some_iff.mp hoffer).2
  · exact List.nodup_foldl_touch h.distinct _

theorem acceptOfferSnapshot_eq (h : state.Normal) (henabled : state.enabled = true)
    (offers : List FreeGameOffer) : acceptOfferSnapshot state offers =
      ⟨stateAfter state offers, (acceptOffers state.baselined state.seen offers).2⟩ := by
  unfold acceptOfferSnapshot
  dsimp only
  rw [h.eq, if_pos henabled, acceptOffers_seen, henabled]
  rfl

def snapshotOf (state : OfferNotificationState) (offers : List FreeGameOffer) (baseline : Bool) :
    OfferSnapshot :=
  ⟨stateAfter state offers,
    (acceptOffers (state.baselined && !baseline) state.seen offers).2⟩

/-- A commit that takes effect. -/
theorem commitOfferSnapshot_eq (h : fallback.Normal)
    (henabled : (mergedState storage fallback).enabled = true) (offers : List FreeGameOffer)
    (baseline : Bool) : commitOfferSnapshot storage fallback offers baseline true true =
      (persistState (stateAfter (mergedState storage fallback) offers),
        snapshotOf (mergedState storage fallback) offers baseline) := by
  have hmerged := @normal_mergedState fallback storage h
  unfold commitOfferSnapshot
  dsimp only
  rw [h.eq, if_pos rfl, if_pos henabled, if_pos rfl]
  generalize mergedState storage fallback = merged at *
  have hstored : (if baseline = true then { merged with baselined := false } else merged) =
      { merged with baselined := merged.baselined && !baseline } := by
    cases baseline with
    | true => simp
    | false => simp
  have hnormal : OfferNotificationState.Normal
      { merged with baselined := merged.baselined && !baseline } := by
    constructor
    case ids => exact hmerged.ids
    case distinct => exact hmerged.distinct
    case limit => exact hmerged.limit
  rw [hstored, acceptOfferSnapshot_eq hnormal henabled]
  rfl

theorem commitOfferSnapshot_idle {current : Bool} (h : ¬ (current &&
      (mergedState storage (normalizeState fallback.value)).enabled) = true)
    (offers : List FreeGameOffer) (baseline : Bool) :
    (commitOfferSnapshot storage fallback offers baseline current current).1 = storage ∧
      (commitOfferSnapshot storage fallback offers baseline current current).2.newOffers = [] := by
  unfold commitOfferSnapshot
  dsimp only
  cases current with
  | false => exact ⟨rfl, rfl⟩
  | true =>
    rw [Bool.true_and] at h
    rw [if_pos rfl, if_neg h]
    exact ⟨rfl, rfl⟩

/-! ## Runs -/

/-- What the watchers do besides committing. -/
theorem watcherNext_cases (h : watcherNext s a = some t) :
    (∃ id watcher, t = s.setWatcher id watcher ∧
      ∀ snapshot number, watcher.phase = .settling snapshot number →
        ∃ old, s.watchers.lookup id = some old ∧ old.phase = .settling snapshot number) ∨
    (∃ id watcher fallback offers baseline,
      t = s.commit id watcher fallback offers baseline) ∨
    (∃ id watcher snapshot number, s.watchers.lookup id = some watcher ∧
      watcher.phase = .settling snapshot number ∧ t = s.settle id watcher snapshot number) := by
  cases a with
  | mount id preference =>
    simp only [watcherNext] at h
    split_ifs at h
    cases h
    exact .inl ⟨id, _, rfl, fun _ _ hphase => (by cases hphase)⟩
  | hear id state =>
    obtain ⟨watcher, hlook, rfl⟩ := Option.map_eq_some_iff.mp h
    exact .inl ⟨id, _, rfl, fun _ _ hphase => ⟨watcher, hlook, hphase⟩⟩
  | cancel id =>
    obtain ⟨watcher, hlook, rfl⟩ := Option.map_eq_some_iff.mp h
    exact .inl ⟨id, _, rfl, fun _ _ hphase => ⟨watcher, hlook, hphase⟩⟩
  | answer id offers =>
    simp only [watcherNext] at h
    cases hlook : s.watchers.lookup id with
    | none => simp [hlook] at h
    | some watcher =>
      simp only [hlook] at h
      split_ifs at h
      cases h
      exact .inl ⟨id, _, rfl, fun _ _ hphase => (by cases hphase)⟩
  | commit id =>
    simp only [watcherNext] at h
    cases hlook : s.watchers.lookup id with
    | none => simp [hlook] at h
    | some watcher =>
      simp only [hlook] at h
      split at h
      · cases h
        exact .inr (.inl ⟨id, _, _, _, _, rfl⟩)
      · cases h
  | settle id =>
    simp only [watcherNext] at h
    cases hlook : s.watchers.lookup id with
    | none => simp [hlook] at h
    | some watcher =>
      simp only [hlook] at h
      split at h
      · next snapshot number hphase =>
        cases h
        exact .inr (.inr ⟨id, _, _, _, hlook, hphase, rfl⟩)
      · cases h

def observations (commits : List OfferCommit) : List ℤ :=
  commits.flatMap fun commit => commit.observed

theorem observations_concat (commits : List OfferCommit) (commit : OfferCommit) :
    observations (commits ++ [commit]) = observations commits ++ commit.observed := by
  simp [observations]

/-- What is asked of the new offers of a commit, after some earlier ones. -/
structure NewsOf (earlier : List OfferCommit) (commit : OfferCommit) : Prop where
  again : ∀ id ∈ offerIds commit.newOffers, id ∈ observations earlier →
    seenLimit ≤ ((observations earlier).since id).toFinset.card
  distinct : (offerIds commit.newOffers).Nodup
  observed : offerIds commit.newOffers ⊆ commit.observed
  baseline : commit.establishes = true → commit.newOffers = []

/-- The storage remembers what was observed, and each commit announces only news. -/
structure Recorded (s : WatcherState) : Prop where
  remembers : List.Remembers seenLimit (storedSeen s.storage) (observations s.commits)
  news : ∀ earlier commit, earlier ++ [commit] <+: s.commits → NewsOf earlier commit

theorem Recorded.of_eq (h : Recorded s) (hstorage : t.storage = s.storage)
    (hcommits : t.commits = s.commits) : Recorded t := by
  constructor
  case remembers =>
    rw [hstorage, hcommits]
    exact h.remembers
  case news =>
    rw [hcommits]
    exact h.news

theorem Recorded.commit (h : Recorded s) (id : WatcherId) (watcher : OfferWatcher)
    (fallback : OfferNotificationState) (offers : List FreeGameOffer) (baseline : Bool) :
    Recorded (s.commit id watcher fallback offers baseline) := by
  unfold WatcherState.commit
  dsimp only
  by_cases heffect : (watcher.isCurrent &&
    (mergedState s.storage (normalizeState fallback.value)).enabled) = true
  · rw [if_pos heffect]
    obtain ⟨hcurrent, henabled⟩ := Bool.and_eq_true_iff.mp heffect
    have hnormal := normal_normalizeState fallback.value
    have hagain : commitOfferSnapshot s.storage fallback offers baseline true true =
          commitOfferSnapshot s.storage (normalizeState fallback.value) offers baseline true
            true := by
      unfold commitOfferSnapshot
      rw [hnormal.eq]
    have hmerged := @normal_mergedState _ s.storage hnormal
    have hremembers := remembers_mergedState hnormal h.remembers
    rw [hcurrent, hagain, commitOfferSnapshot_eq hnormal henabled]
    constructor
    case remembers =>
      rw [observations_concat]
      dsimp only
      rw [storedSeen_persistState (normal_stateAfter hmerged offers)]
      apply (hremembers.foldl_touch _).newest
      exact List.nodup_foldl_touch hmerged.distinct _
    case news =>
      intro earlier commit hprefix
      rcases List.prefix_concat_iff.mp hprefix with heq | hold
      · obtain ⟨rfl, hcommit⟩ := List.append_inj' heq rfl
        obtain rfl := List.singleton_inj.mp hcommit
        constructor
        case again =>
          intro id hid hobserved
          obtain ⟨offer, hoffer, hofferId⟩ := List.mem_filterMap.mp hid
          obtain ⟨id', hid', hunseen, -⟩ := acceptOffers_new hoffer
          rw [hofferId] at hid'
          cases hid'
          rcases hremembers id hobserved with hmany | ⟨hseen, -⟩
          · exact hmany
          · exact absurd hseen hunseen
        case distinct => exact acceptOffers_distinct _ _ _
        case observed =>
          intro id hid
          obtain ⟨offer, hoffer, hofferId⟩ := List.mem_filterMap.mp hid
          obtain ⟨id', hid', -, hmem⟩ := acceptOffers_new hoffer
          rw [hofferId] at hid'
          cases hid'
          exact hmem
        case baseline =>
          intro hestablishes
          dsimp only at hestablishes ⊢
          have hquiet : ((mergedState s.storage (normalizeState fallback.value)).baselined &&
              !baseline) = false := by
            cases baseline with
            | true => simp
            | false => simpa using hestablishes
          unfold snapshotOf
          dsimp only
          rw [hquiet]
          exact acceptOffers_baseline _ _
      · exact h.news earlier commit hold
  · rw [if_neg heffect]
    exact h.of_eq (commitOfferSnapshot_idle heffect offers baseline).1 rfl

theorem recorded (h : watcherMachine.Reachable s) : Recorded s := by
  refine h.invariant (I := Recorded) ?_ ?_
  · rintro s ⟨-, hcommits, -⟩
    constructor
    case remembers =>
      rw [hcommits]
      exact .nil _ _
    case news =>
      intro earlier commit hprefix
      rw [hcommits] at hprefix
      simp at hprefix
  · intro s a t hs _ hstep
    rcases watcherNext_cases hstep with ⟨id, watcher, rfl, -⟩ |
      ⟨id, watcher, fallback, offers, baseline, rfl⟩ | ⟨id, watcher, snapshot, number, -, -, rfl⟩
    · exact hs.of_eq rfl rfl
    · exact hs.commit id watcher fallback offers baseline
    · unfold WatcherState.settle
      split_ifs
      · exact hs.of_eq rfl rfl
      · exact hs.of_eq rfl rfl
      · exact hs.of_eq rfl rfl

/-! ## Notices -/

def OfCommit (s : WatcherState) (number : Option ℕ) (newOffers : List FreeGameOffer) : Prop :=
  ∃ n commit, number = some n ∧ s.commits[n]? = some commit ∧ commit.newOffers = newOffers

def Settling (s : WatcherState) (id : WatcherId) (snapshot : OfferSnapshot)
    (number : Option ℕ) : Prop :=
  ∃ watcher, s.watchers.lookup id = some watcher ∧ watcher.phase = .settling snapshot number

/-- Each result is shown by one watcher, and once. -/
structure Handed (s : WatcherState) : Prop where
  settling : ∀ id snapshot number, Settling s id snapshot number → snapshot.newOffers = [] ∨
    OfCommit s number snapshot.newOffers ∧ number ∉ s.announced.map Prod.fst
  bound : ∀ id snapshot n, Settling s id snapshot (some n) → n < s.commits.length
  apart : ∀ id id' snapshot snapshot' n, Settling s id snapshot (some n) →
    Settling s id' snapshot' (some n) → id = id'
  announced : ∀ shown ∈ s.announced, OfCommit s shown.1 shown.2
  once : (s.announced.map Prod.fst).Nodup

theorem OfCommit.lt {number : Option ℕ} {newOffers : List FreeGameOffer}
    (h : OfCommit s number newOffers) : ∃ n < s.commits.length, number = some n := by
  obtain ⟨n, commit, hnumber, hcommit, -⟩ := h
  exact ⟨n, (List.getElem?_eq_some_iff.mp hcommit).1, hnumber⟩

theorem OfCommit.append {number : Option ℕ} {newOffers : List FreeGameOffer}
    (h : OfCommit s number newOffers) {commits : List OfferCommit}
    (ht : t.commits = s.commits ++ commits) : OfCommit t number newOffers := by
  obtain ⟨n, commit, hnumber, hcommit, hnew⟩ := h
  refine ⟨n, commit, hnumber, ?_, hnew⟩
  rw [ht, List.getElem?_append_left (List.getElem?_eq_some_iff.mp hcommit).1, hcommit]

theorem settling_insert {id other : WatcherId} {watcher : OfferWatcher}
    {snapshot : OfferSnapshot} {number : Option ℕ}
    (ht : t.watchers = s.watchers.insert id watcher) (h : Settling t other snapshot number) :
    other = id ∧ watcher.phase = .settling snapshot number ∨
      other ≠ id ∧ Settling s other snapshot number := by
  obtain ⟨found, hlook, hphase⟩ := h
  rw [ht, Table.lookup_insert_eq] at hlook
  split_ifs at hlook with hid
  · cases hlook
    exact .inl ⟨hid, hphase⟩
  · exact .inr ⟨hid, found, hlook, hphase⟩

/-- Steps that hand nothing out. -/
theorem Handed.keep {id : WatcherId} {watcher : OfferWatcher} (h : Handed s)
    (hkept : ∀ snapshot number, watcher.phase = .settling snapshot number →
      Settling s id snapshot number) : Handed (s.setWatcher id watcher) := by
  have hold {other : WatcherId} {snapshot : OfferSnapshot} {number : Option ℕ}
      (hsettling : Settling (s.setWatcher id watcher) other snapshot number) :
      Settling s other snapshot number := by
    rcases settling_insert rfl hsettling with ⟨rfl, hphase⟩ | ⟨-, hsettling⟩
    · exact hkept snapshot number hphase
    · exact hsettling
  constructor
  case settling => exact fun _ _ _ hs => h.settling _ _ _ (hold hs)
  case bound => exact fun _ _ _ hs => h.bound _ _ _ (hold hs)
  case apart => exact fun _ _ _ _ _ hs hs' => h.apart _ _ _ _ _ (hold hs) (hold hs')
  case announced => exact h.announced
  case once => exact h.once

theorem Handed.commit (h : Handed s) (id : WatcherId) (watcher : OfferWatcher)
    (fallback : OfferNotificationState) (offers : List FreeGameOffer) (baseline : Bool) :
    Handed (s.commit id watcher fallback offers baseline) := by
  unfold WatcherState.commit
  dsimp only
  by_cases heffect : (watcher.isCurrent &&
    (mergedState s.storage (normalizeState fallback.value)).enabled) = true
  · rw [if_pos heffect]
    generalize commitOfferSnapshot s.storage fallback offers baseline watcher.isCurrent
      watcher.isCurrent = result
    constructor
    case settling =>
      intro other snapshot number hsettling
      rcases settling_insert rfl hsettling with ⟨rfl, hphase⟩ | ⟨-, hsettling⟩
      · cases hphase
        right
        refine ⟨⟨s.commits.length, _, rfl, List.getElem?_concat_length, rfl⟩, fun hmem => ?_⟩
        obtain ⟨shown, hshown, hnumber⟩ := List.mem_map.mp hmem
        obtain ⟨n, hlt, hn⟩ := (h.announced shown hshown).lt
        rw [hnumber] at hn
        cases hn
        exact lt_irrefl _ hlt
      · rcases h.settling other snapshot number hsettling with hnone | ⟨hof, hunshown⟩
        · exact .inl hnone
        · exact .inr ⟨hof.append rfl, hunshown⟩
    case bound =>
      intro other snapshot n hsettling
      dsimp only
      rw [List.length_append, List.length_singleton]
      rcases settling_insert rfl hsettling with ⟨rfl, hphase⟩ | ⟨-, hsettling⟩
      · cases hphase
        exact Nat.lt_succ_self _
      · exact Nat.lt_succ_of_lt (h.bound other snapshot n hsettling)
    case apart =>
      intro other other' snapshot snapshot' n hsettling hsettling'
      rcases settling_insert rfl hsettling with ⟨rfl, hphase⟩ | ⟨-, hold⟩
      · rcases settling_insert rfl hsettling' with ⟨rfl, -⟩ | ⟨-, hold'⟩
        · rfl
        · cases hphase
          exact absurd (h.bound _ _ _ hold') (lt_irrefl _)
      · rcases settling_insert rfl hsettling' with ⟨rfl, hphase⟩ | ⟨-, hold'⟩
        · cases hphase
          exact absurd (h.bound _ _ _ hold) (lt_irrefl _)
        · exact h.apart _ _ _ _ n hold hold'
    case announced => exact fun shown hshown => (h.announced shown hshown).append rfl
    case once => exact h.once
  · rw [if_neg heffect]
    obtain ⟨-, hnone⟩ := commitOfferSnapshot_idle heffect offers baseline
    generalize commitOfferSnapshot s.storage fallback offers baseline watcher.isCurrent
      watcher.isCurrent = result at hnone
    constructor
    case settling =>
      intro other snapshot number hsettling
      rcases settling_insert rfl hsettling with ⟨rfl, hphase⟩ | ⟨-, hsettling⟩
      · cases hphase
        exact .inl hnone
      · exact h.settling other snapshot number hsettling
    case bound =>
      intro other snapshot n hsettling
      rcases settling_insert rfl hsettling with ⟨rfl, hphase⟩ | ⟨-, hsettling⟩
      · cases hphase
      · exact h.bound other snapshot n hsettling
    case apart =>
      intro other other' snapshot snapshot' n hsettling hsettling'
      rcases settling_insert rfl hsettling with ⟨rfl, hphase⟩ | ⟨-, hsettling⟩
      · cases hphase
      · rcases settling_insert rfl hsettling' with ⟨rfl, hphase⟩ | ⟨-, hsettling'⟩
        · cases hphase
        · exact h.apart _ _ _ _ n hsettling hsettling'
    case announced => exact h.announced
    case once => exact h.once

theorem Handed.settle {id : WatcherId} {watcher : OfferWatcher} {snapshot : OfferSnapshot}
    {number : Option ℕ} (h : Handed s) (hlook : s.watchers.lookup id = some watcher)
    (hphase : watcher.phase = .settling snapshot number) :
    Handed (s.settle id watcher snapshot number) := by
  have hhanded : Settling s id snapshot number := ⟨watcher, hlook, hphase⟩
  have hidle (preference : OfferNotificationState) (baseline : Bool) : Handed (s.setWatcher id
      { watcher with baseline := baseline, preference := preference, phase := .idle }) :=
    h.keep fun _ _ hphase => (by cases hphase)
  unfold WatcherState.settle
  by_cases hcurrent : watcher.isCurrent = true
  · rw [if_pos hcurrent]
    have hrest := hidle snapshot.state false
    by_cases hempty : snapshot.newOffers.isEmpty = true
    · rw [if_pos hempty]
      exact hrest
    · rw [if_neg hempty]
      rcases h.settling id snapshot number hhanded with hnone | ⟨hof, hunshown⟩
      · rw [hnone] at hempty
        exact absurd rfl hempty
      constructor
      case settling =>
        intro other snapshot' number' hsettling
        rcases hrest.settling other snapshot' number' hsettling with hnone | ⟨hof', hunshown'⟩
        · exact .inl hnone
        · refine .inr ⟨hof', fun hmem => ?_⟩
          rw [List.map_append, List.mem_append] at hmem
          rcases hmem with hmem | hmem
          · exact hunshown' hmem
          · rw [List.map_singleton, List.mem_singleton] at hmem
            subst hmem
            obtain ⟨n, -, rfl⟩ := hof.lt
            rcases settling_insert (s := s) rfl hsettling with ⟨-, hphase'⟩ | ⟨hne, hsettling⟩
            · cases hphase'
            · exact hne (h.apart _ _ _ _ n hsettling hhanded)
      case bound => exact hrest.bound
      case apart => exact hrest.apart
      case announced =>
        intro shown hshown
        rcases List.mem_append.mp hshown with hshown | hshown
        · exact h.announced shown hshown
        · rw [List.mem_singleton.mp hshown]
          exact hof
      case once =>
        rw [List.map_append, List.map_singleton, List.nodup_append]
        refine ⟨h.once, List.nodup_singleton _, fun x hx y hy => ?_⟩
        rw [List.mem_singleton.mp hy]
        rintro rfl
        exact hunshown hx
  · rw [if_neg hcurrent]
    exact hidle watcher.preference watcher.baseline

theorem handed (h : watcherMachine.Reachable s) : Handed s := by
  refine h.invariant (I := Handed) ?_ ?_
  · rintro s ⟨hwatchers, -, hannounced⟩
    have hnone (id : WatcherId) (snapshot : OfferSnapshot) (number : Option ℕ) :
        ¬ Settling s id snapshot number := by
      rintro ⟨watcher, hlook, -⟩
      rw [hwatchers, AList.lookup_empty] at hlook
      cases hlook
    constructor
    case settling => exact fun _ _ _ hs => absurd hs (hnone _ _ _)
    case bound => exact fun _ _ _ hs => absurd hs (hnone _ _ _)
    case apart => exact fun _ _ _ _ _ hs _ => absurd hs (hnone _ _ _)
    case announced =>
      rw [hannounced]
      exact fun _ hshown => (by cases hshown)
    case once =>
      rw [hannounced]
      exact List.nodup_nil
  · intro s a t hs _ hstep
    rcases watcherNext_cases hstep with ⟨id, watcher, rfl, hkept⟩ |
      ⟨id, watcher, fallback, offers, baseline, rfl⟩ |
      ⟨id, watcher, snapshot, number, hlook, hphase, rfl⟩
    · exact hs.keep hkept
    · exact hs.commit id watcher fallback offers baseline
    · exact hs.settle hlook hphase

/-! ### A full memory -/

theorem mergedState_self (h : state.Normal) : mergedState (persistState state) state = state := by
  have hseen : normalizeSeen (seenValues (state.seen ++ state.seen)) = state.seen := by
    have hids : ∀ id ∈ state.seen ++ state.seen, IsOfferId id := fun id hid =>
      (List.mem_append.mp hid).elim (h.ids id) (h.ids id)
    have hnone : ((state.seen.foldl List.touch []).filter fun id => id ∉ state.seen) = [] := by
      refine List.filter_eq_nil_iff.mpr fun id hid => ?_
      rw [List.mem_foldl_touch] at hid
      simpa using hid
    unfold normalizeSeen
    rw [filterMap_seenValues hids, List.foldl_append, List.foldl_touch_nodup h.distinct, hnone,
      List.nil_append, List.newest_of_length_le h.limit]
  unfold mergedState
  rw [readStoredState_persistState h]
  dsimp only
  rw [hseen]

/-- A watcher whose tab is the only one, between two polls. -/
structure Resting (s : WatcherState) (state : OfferNotificationState) (baseline : Bool) : Prop where
  normal : state.Normal
  enabled : state.enabled = true
  storage : s.storage = persistState state
  watcher : s.watchers.lookup 0 = some ⟨state, baseline, false, .idle⟩

/-- The commit of a poll. -/
theorem Resting.commit (h : Resting s state baseline) {watcher : OfferWatcher}
    (hcurrent : watcher.isCurrent = true) (hstorage : t.storage = s.storage)
    (offers : List FreeGameOffer) : t.commit 0 watcher state offers baseline =
      { t with
        storage := persistState (stateAfter state offers)
        watchers := t.watchers.insert 0 { watcher with
          phase := .settling (snapshotOf state offers baseline) (some t.commits.length) }
        commits := t.commits ++ [⟨offerIds offers, baseline || !state.baselined,
          (snapshotOf state offers baseline).newOffers⟩] } := by
  have hmerged : mergedState t.storage state = state := by
    rw [hstorage, h.storage, mergedState_self h.normal]
  have hcommit := @commitOfferSnapshot_eq _ t.storage h.normal (by rw [hmerged, h.enabled]) offers
    baseline
  rw [hmerged] at hcommit
  unfold WatcherState.commit
  dsimp only
  rw [h.normal.eq, hmerged, hcurrent, h.enabled, hcommit]
  rfl

theorem Resting.poll (h : Resting s state baseline) (offers : List FreeGameOffer) :
    ∃ t, watcherMachine.Leads (fun _ _ => True) s t ∧ Resting t (stateAfter state offers) false ∧
      t.commits = s.commits ++ [⟨offerIds offers, baseline || !state.baselined,
        (snapshotOf state offers baseline).newOffers⟩] ∧
      t.announced =
        if (snapshotOf state offers baseline).newOffers.isEmpty then s.announced
        else s.announced ++
          [(some s.commits.length, (snapshotOf state offers baseline).newOffers)] := by
  have hcurrent (phase : PollPhase) :
      OfferWatcher.isCurrent ⟨state, baseline, false, phase⟩ = true := h.enabled
  obtain ⟨asked, hanswer, hstorage, hcommits, hshown, hlook⟩ :
      ∃ asked, watcherMachine.next s (.answer 0 offers) = some asked ∧
        asked.storage = s.storage ∧ asked.commits = s.commits ∧ asked.announced = s.announced ∧
        asked.watchers.lookup 0 =
          some ⟨state, baseline, false, .waiting state offers baseline⟩ := by
    refine ⟨s.setWatcher 0 ⟨state, baseline, false, .waiting state offers baseline⟩, ?_, rfl, rfl,
      rfl, ?_⟩
    · simp only [watcherMachine, watcherNext, h.watcher]
      rw [if_pos ⟨trivial, hcurrent .idle⟩]
    · rw [WatcherState.setWatcher, Table.lookup_insert_eq, if_pos rfl]
  obtain ⟨done, hcommit, hstorage', hcommits', hshown', hlook'⟩ :
      ∃ done, watcherMachine.next asked (.commit 0) = some done ∧
        done.storage = persistState (stateAfter state offers) ∧
        done.commits = s.commits ++ [⟨offerIds offers, baseline || !state.baselined,
          (snapshotOf state offers baseline).newOffers⟩] ∧
        done.announced = s.announced ∧
        done.watchers.lookup 0 = some ⟨state, baseline, false,
          .settling (snapshotOf state offers baseline) (some s.commits.length)⟩ := by
    have hnext : watcherMachine.next asked (.commit 0) = some (asked.commit 0
        ⟨state, baseline, false, .waiting state offers baseline⟩ state offers baseline) := by
      simp only [watcherMachine, watcherNext, hlook]
    rw [h.commit (hcurrent _) hstorage, hcommits] at hnext
    refine ⟨_, hnext, rfl, rfl, hshown, ?_⟩
    rw [Table.lookup_insert_eq, if_pos rfl]
  have hsettle : watcherMachine.next done (.settle 0) = some (done.settle 0
      ⟨state, baseline, false,
        .settling (snapshotOf state offers baseline) (some s.commits.length)⟩
      (snapshotOf state offers baseline) (some s.commits.length)) := by
    simp only [watcherMachine, watcherNext, hlook']
  rw [WatcherState.settle, if_pos (hcurrent _)] at hsettle
  refine ⟨_, ((Machine.Leads.refl s).tail trivial hanswer |>.tail trivial hcommit).tail trivial
    hsettle, ⟨normal_stateAfter h.normal offers, rfl, hstorage', ?_⟩, hcommits', ?_⟩
  · rw [Table.lookup_insert_eq, if_pos rfl]
    rfl
  · rw [← hshown']

theorem acceptOffers_unseen {id : ℤ} (hid : offerId offer.appId = some id) (h : id ∉ seen) :
    (acceptOffers true seen [offer]).2 = [offer] := by
  simp [acceptOffers, hid, h]

def namedOffer (id : ℕ) : FreeGameOffer := ⟨.integer id, "Game"⟩

def fullSnapshot : List FreeGameOffer := (List.range 500).map fun n => namedOffer (n + 1)

def fullIds : List ℤ := (List.range 500).map fun n => ((n + 1 : ℕ) : ℤ)

theorem nodup_fullIds : fullIds.Nodup := by
  refine List.nodup_range.map fun m n h => ?_
  simpa using h

theorem offerIds_fullSnapshot : offerIds fullSnapshot = fullIds := by decide +kernel

theorem stateAfter_fullSnapshot :
    stateAfter ⟨true, false, []⟩ fullSnapshot = ⟨true, true, fullIds⟩ := by
  have hlength : fullIds.length ≤ seenLimit := by decide +kernel
  unfold stateAfter
  rw [offerIds_fullSnapshot, List.foldl_touch_nodup nodup_fullIds, List.filter_nil, List.nil_append,
    List.newest_of_length_le hlength]

def fullCommits : List OfferCommit :=
  [⟨fullIds, true, []⟩, ⟨[501], false, [namedOffer 501]⟩, ⟨[1], false, [namedOffer 1]⟩]

/-- A tab in which the notices have just been enabled gets a full snapshot, another offer, and the
first one of the full snapshot again. -/
theorem reachable_fullCommits : ∃ s, watcherMachine.Reachable s ∧ s.commits = fullCommits ∧
    s.announced = [(some 1, [namedOffer 501]), (some 2, [namedOffer 1])] := by
  have hempty : OfferNotificationState.Normal ⟨true, false, []⟩ :=
    ⟨fun _ h => (by cases h), List.nodup_nil, Nat.zero_le _⟩
  let start : WatcherState := ⟨persistState ⟨true, false, []⟩, ∅, [], []⟩
  have hmount : watcherMachine.next start (.mount 0 ⟨true, false, []⟩) =
      some (start.setWatcher 0 ⟨⟨true, false, []⟩, true, false, .idle⟩) := rfl
  have hresting : Resting (start.setWatcher 0 ⟨⟨true, false, []⟩, true, false, .idle⟩)
      ⟨true, false, []⟩ true := ⟨hempty, rfl, rfl, rfl⟩
  obtain ⟨s, hs, hrest, hcommits, hannounced⟩ := hresting.poll fullSnapshot
  rw [stateAfter_fullSnapshot] at hrest
  obtain ⟨s', hs', hrest', hcommits', hannounced'⟩ := hrest.poll [namedOffer 501]
  obtain ⟨s'', hs'', -, hcommits'', hannounced''⟩ := hrest'.poll [namedOffer 1]
  have hfirst : (snapshotOf ⟨true, false, []⟩ fullSnapshot true).newOffers = [] := by
    unfold snapshotOf
    dsimp only
    rw [Bool.false_and]
    exact acceptOffers_baseline _ _
  have hid (id : ℕ) (h : IsOfferId id) : offerId (namedOffer id).appId = some (id : ℤ) :=
    offerId_eq_some_iff.mpr ⟨rfl, h⟩
  have hsecond : (snapshotOf ⟨true, true, fullIds⟩ [namedOffer 501] false).newOffers =
      [namedOffer 501] := by
    have hunseen : ((501 : ℕ) : ℤ) ∉ fullIds := by decide +kernel
    unfold snapshotOf
    dsimp only
    rw [Bool.not_false, Bool.and_true]
    exact acceptOffers_unseen (hid 501 (by decide)) hunseen
  have hthird : (snapshotOf (stateAfter ⟨true, true, fullIds⟩ [namedOffer 501]) [namedOffer 1]
      false).newOffers = [namedOffer 1] := by
    have hunseen : ((1 : ℕ) : ℤ) ∉ (stateAfter ⟨true, true, fullIds⟩ [namedOffer 501]).seen := by
      decide +kernel
    unfold snapshotOf
    dsimp only
    rw [Bool.not_false, Bool.and_true]
    exact acceptOffers_unseen (hid 1 (by decide)) hunseen
  rw [hfirst, offerIds_fullSnapshot] at hcommits
  rw [hfirst] at hannounced
  rw [hsecond] at hcommits' hannounced'
  rw [hthird] at hcommits'' hannounced''
  refine ⟨s'', ?_, ?_, ?_⟩
  · exact ⟨start, ⟨rfl, rfl, rfl⟩,
      (((Machine.Leads.refl start).tail trivial hmount).trans hs).trans (hs'.trans hs'')⟩
  · rw [hcommits'', hcommits', hcommits]
    rfl
  · rw [hannounced'', hannounced', hannounced, hcommits', hcommits]
    rfl

/-- Each commit announces only news, and its new offers are shown at most once. -/
structure AnnouncedOnce (s : WatcherState) : Prop where
  news : ∀ earlier commit, earlier ++ [commit] <+: s.commits → NewsOf earlier commit
  announced : ∀ shown ∈ s.announced, OfCommit s shown.1 shown.2
  once : (s.announced.map Prod.fst).Nodup

theorem announced_once (h : watcherMachine.Reachable s) : AnnouncedOnce s := by
  have hhanded := handed h
  constructor
  case news => exact (recorded h).news
  case announced => exact hhanded.announced
  case once => exact hhanded.once

theorem announced_once_fullCommits : ∃ s, watcherMachine.Reachable s ∧ s.commits = fullCommits ∧
    AnnouncedOnce s := by
  obtain ⟨s, hs, hcommits, -⟩ := reachable_fullCommits
  exact ⟨s, hs, hcommits, announced_once hs⟩

/-- The same when only the snapshots count that came after the one in which an offer was last
seen. -/
def AnnouncedOnceBySnapshots (s : WatcherState) : Prop :=
  ∀ earlier commit, earlier ++ [commit] <+: s.commits →
    ∀ id ∈ offerIds commit.newOffers, id ∈ observations earlier →
      seenLimit ≤
        (observations (earlier.rtakeWhile fun other => id ∉ other.observed)).toFinset.card

/-- One id after its full snapshot, the first offer of it is announced again. -/
theorem not_announced_once_by_snapshots : ¬ ∀ s, watcherMachine.Reachable s →
    (∀ commit ∈ s.commits, commit.observed.length ≤ seenLimit) → AnnouncedOnceBySnapshots s := by
  intro hclaim
  obtain ⟨s, hs, hcommits, -⟩ := reachable_fullCommits
  have hsmall : ∀ commit ∈ s.commits, commit.observed.length ≤ seenLimit := by
    rw [hcommits]
    decide +kernel
  have hprefix : fullCommits.take 2 ++ [⟨[1], false, [namedOffer 1]⟩] <+: s.commits := by
    rw [hcommits]
    exact List.prefix_refl _
  have hmany := hclaim s hs hsmall _ _ hprefix 1 (by decide +kernel) (by decide +kernel)
  revert hmany
  decide +kernel

end SteamBee.Web
