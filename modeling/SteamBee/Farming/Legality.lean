import SteamBee.Farming.Order

/-! What the controller asks the adapter to apply: in every run only games that the settings
allow, as many as they allow, and a pulled-forward game alone. -/
namespace SteamBee.Farming
open Transition

/-- A game that may be played under the settings at the time `now`. -/
structure Allowed (config : FarmingConfig) (now : ℕ) (game : FarmingGame) : Prop where
  drops : 0 < game.remainingDrops
  blacklist : game.appId ∉ config.blacklist
  whitelist : config.whitelist = [] ∨ game.appId ∈ config.whitelist
  refundable : config.skipRefundable = true → 120 ≤ game.playtimeMinutes.getD 0 ∨
    ∃ acquiredAt, game.acquiredAt = some acquiredAt ∧ acquiredAt + 14 * 24 * 60 * 60000 < now

/-- What a selection owes to the session it was made from, whose games were filtered at `now`. -/
structure Legal (setup : Setup) (now : ℕ) (s : Session) (appIds : List AppId) : Prop where
  nonempty : appIds ≠ []
  distinct : appIds.Nodup
  allowed : ∀ appId ∈ appIds, ∃ game ∈ s.snapshot.games, game.appId = appId ∧
    Allowed s.snapshot.config now game
  limit : appIds.length ≤ min 32 (min s.snapshot.config.maxConcurrentGames s.snapshot.gameLimit)
  several : 1 < appIds.length → ∀ game ∈ s.snapshot.games, game.appId ∈ appIds →
    game.playtimeMinutes.getD 0 < 120
  pinned : ∀ first ∈ s.snapshot.games, Allowed s.snapshot.config now first →
    (∀ game ∈ s.snapshot.games, Allowed s.snapshot.config now game →
      InOrder setup s.snapshot.config s.badgeOrder first game) →
    first.appId ∈ s.snapshot.config.priority → appIds = [first.appId]

theorem skipReasonOf_eq_none {config : FarmingConfig} {now : ℕ} {game : FarmingGame} :
    skipReasonOf config now game = none ↔ game.appId ∉ config.blacklist ∧
      (config.whitelist = [] ∨ game.appId ∈ config.whitelist) ∧
      (config.skipRefundable = true → 120 ≤ game.playtimeMinutes.getD 0 ∨
        ∃ acquiredAt, game.acquiredAt = some acquiredAt ∧
          acquiredAt + 14 * 24 * 60 * 60000 < now) := by
  have hlength : 0 < config.whitelist.length ↔ config.whitelist ≠ [] := List.length_pos_iff
  unfold skipReasonOf
  by_cases hblack : game.appId ∈ config.blacklist
  · simp [hblack]
  by_cases hwhite : 0 < config.whitelist.length ∧ game.appId ∉ config.whitelist
  · simp only [hblack, hwhite, if_false]
    simp [hlength.mp hwhite.1]
  have hwhite' : config.whitelist = [] ∨ game.appId ∈ config.whitelist := by
    rw [hlength] at hwhite
    by_cases hnil : config.whitelist = []
    · exact .inl hnil
    · exact .inr (by simpa [hnil] using hwhite)
  simp only [hblack, hwhite, if_false, hwhite', not_false_eq_true, true_and]
  by_cases hrefund : (!config.skipRefundable) = true ∨ 120 ≤ game.playtimeMinutes.getD 0
  · simp only [hrefund, if_true, true_iff]
    intro hskip
    rcases hrefund with hrefund | hplayed
    · simp [hskip] at hrefund
    · exact .inl hplayed
  · simp only [hrefund, if_false]
    obtain ⟨hskip, hplayed⟩ := not_or.mp hrefund
    have hskip : config.skipRefundable = true := by simpa using hskip
    simp only [hskip, hplayed, forall_const, false_or]
    cases hacquired : game.acquiredAt with
    | none => simp
    | some acquiredAt =>
      dsimp only
      split_ifs with hfuture hwindow
      · simp only [Option.some.injEq, exists_eq_left', false_iff]
        omega
      · simp only [Option.some.injEq, exists_eq_left', false_iff]
        omega
      · simp only [Option.some.injEq, exists_eq_left', true_iff]
        omega

section Select
variable {config : FarmingConfig} {gameLimit : ℕ} {games : List FarmingGame}

structure Selects (config : FarmingConfig) (gameLimit : ℕ) (games chosen : List FarmingGame) :
    Prop where
  sublist : chosen.Sublist (eligibleGames games)
  limit : chosen.length ≤ min 32 (min config.maxConcurrentGames gameLimit)
  several : 1 < chosen.length → ∀ game ∈ chosen, game.playtimeMinutes.getD 0 < 120
  pinned : ∀ first, (eligibleGames games).head? = some first → first.appId ∈ config.priority →
    chosen = [] ∨ chosen = [first]

theorem take_head? {α : Type*} {l : List α} {x : α} (h : l.head? = some x) : l.take 1 = [x] := by
  cases l with
  | nil => cases h
  | cons y l => simpa using h

theorem select_spec (config : FarmingConfig) (gameLimit : ℕ) (games : List FarmingGame) :
    ∃ chosen, (select config gameLimit games).appIds = chosen.map FarmingGame.appId ∧
      Selects config gameLimit games chosen := by
  refine ⟨_, rfl, ?_⟩
  by_cases hpulled : ((eligibleGames games).head?.any fun first =>
      decide (first.appId ∈ config.priority)) = true
  · simp only [hpulled, if_true]
    refine ⟨(List.take_sublist _ _).trans (List.take_sublist _ _), List.length_take_le _ _,
      fun hmany => ?_, fun first hfirst hpin => ?_⟩
    · rw [List.length_take, List.length_take] at hmany
      omega
    · rw [take_head? hfirst]
      cases min 32 (min config.maxConcurrentGames gameLimit) with
      | zero => exact .inl rfl
      | succ n => exact .inr (by simp)
  · have hnotpinned (first : FarmingGame) (hfirst : (eligibleGames games).head? = some first) :
        first.appId ∉ config.priority := by
      simpa [hfirst] using hpulled
    simp only [hpulled, Bool.not_false, Bool.true_and, Bool.false_eq_true,
      if_false, Bool.not_eq_true']
    split_ifs with hwarm
    · refine ⟨(List.take_sublist _ _).trans List.filter_sublist, List.length_take_le _ _,
        fun _ game hgame => ?_, fun first hfirst hpin => absurd hpin (hnotpinned first hfirst)⟩
      have hmem := List.mem_of_mem_take hgame
      simpa using (List.mem_filter.mp hmem).2
    · refine ⟨List.take_sublist _ _, (List.length_take_le _ _).trans (min_le_right _ _),
        fun hmany => ?_, fun first hfirst hpin => absurd hpin (hnotpinned first hfirst)⟩
      rw [List.length_take] at hmany
      omega

end Select

def Filtered (now : ℕ) (s : Session) : Prop :=
  ∀ game ∈ s.snapshot.games, game.skipReason = skipReasonOf s.snapshot.config now game

section Legal
variable {setup : Setup} {now : ℕ} {s t : Session}

theorem filtered_filterGames (shuttingDown : Bool) (s : Session) :
    Filtered now (s.filterGames setup now shuttingDown).1 := by
  rw [Session.filterGames_eq]
  have hprices := Session.sameGames_priceGames setup now shuttingDown
    ((s.skipped now).orderGames setup)
  intro game hgame
  rw [hprices.games] at hgame
  rw [hprices.config]
  have hmem := ((s.skipped now).orderGames_perm setup).subset hgame
  obtain ⟨old, -, rfl⟩ := List.mem_map.mp hmem
  rfl

theorem Filtered.sameGames (h : Filtered now s) (hsame : s.SameGames t) : Filtered now t := by
  unfold Filtered
  rw [hsame.games, hsame.config]
  exact h

theorem Filtered.mem_eligible (h : Filtered now s) {game : FarmingGame} :
    game ∈ eligibleGames s.snapshot.games ↔
      game ∈ s.snapshot.games ∧ Allowed s.snapshot.config now game := by
  unfold eligibleGames
  rw [List.mem_filter]
  refine and_congr_right fun hgame => ?_
  simp only [h game hgame, Bool.and_eq_true, Option.isNone_iff_eq_none, decide_eq_true_eq,
    skipReasonOf_eq_none]
  exact ⟨fun ⟨⟨hb, hw, hr⟩, hd⟩ => ⟨hd, hb, hw, hr⟩, fun ⟨hd, hb, hw, hr⟩ => ⟨⟨hb, hw, hr⟩, hd⟩⟩

variable [Std.TransCmp setup.localeCompare]

/-- The first allowed game in the order that is meant heads the eligible ones. -/
theorem head?_eligible (hf : Filtered now s) (hd : s.Distinct) (ho : s.Ordered setup)
    {first : FarmingGame} (hmem : first ∈ s.snapshot.games)
    (hallowed : Allowed s.snapshot.config now first)
    (hfirst : ∀ game ∈ s.snapshot.games, Allowed s.snapshot.config now game →
      InOrder setup s.snapshot.config s.badgeOrder first game) :
    (eligibleGames s.snapshot.games).head? = some first := by
  have hin : first ∈ eligibleGames s.snapshot.games := hf.mem_eligible.mpr ⟨hmem, hallowed⟩
  have hpairwise : (eligibleGames s.snapshot.games).Pairwise
      (InOrder setup s.snapshot.config s.badgeOrder) := ho.sublist List.filter_sublist
  cases he : eligibleGames s.snapshot.games with
  | nil => simp [he] at hin
  | cons head rest =>
    rw [he] at hin hpairwise
    rcases List.mem_cons.mp hin with rfl | hrest
    · rfl
    · have hhead : head ∈ eligibleGames s.snapshot.games := by simp [he]
      obtain ⟨hheadmem, hheadallowed⟩ := hf.mem_eligible.mp hhead
      have hbefore := (precedes_iff_inOrder ..).mpr ((List.pairwise_cons.mp hpairwise).1 first hrest)
      have hafter := (precedes_iff_inOrder ..).mpr (hfirst head hheadmem hheadallowed)
      rw [List.head?_cons, hd.separates s.snapshot.config head hheadmem first hmem
        (Sorting.eq_of_precedes hbefore hafter)]

/-- What is selected from filtered games in order is legal. -/
theorem legal_select (hf : Filtered now s) (hd : s.Distinct) (ho : s.Ordered setup)
    (hne : (select s.snapshot.config s.snapshot.gameLimit s.snapshot.games).appIds ≠ []) :
    Legal setup now s (select s.snapshot.config s.snapshot.gameLimit s.snapshot.games).appIds := by
  obtain ⟨chosen, heq, hselects⟩ :=
    select_spec s.snapshot.config s.snapshot.gameLimit s.snapshot.games
  rw [heq] at hne ⊢
  have hmem (game : FarmingGame) (hgame : game ∈ chosen) :
      game ∈ s.snapshot.games ∧ Allowed s.snapshot.config now game :=
    hf.mem_eligible.mp (hselects.sublist.subset hgame)
  constructor
  case nonempty => exact hne
  case distinct =>
    exact hd.ids.sublist ((hselects.sublist.trans List.filter_sublist).map FarmingGame.appId)
  case allowed =>
    intro appId happ
    obtain ⟨game, hgame, rfl⟩ := List.mem_map.mp happ
    exact ⟨game, (hmem game hgame).1, rfl, (hmem game hgame).2⟩
  case limit =>
    rw [List.length_map]
    exact hselects.limit
  case several =>
    intro hmany game hgame happ
    rw [List.length_map] at hmany
    obtain ⟨other, hother, hid⟩ := List.mem_map.mp happ
    obtain rfl := List.inj_on_of_nodup_map hd.ids (hmem other hother).1 hgame hid
    exact hselects.several hmany other hother
  case pinned =>
    intro first hfirst hallowed hbefore hpin
    have hhead := head?_eligible hf hd ho hfirst hallowed hbefore
    rcases hselects.pinned first hhead hpin with rfl | rfl
    · exact absurd rfl hne
    · rfl

namespace Controller
variable {c d : Controller} {action : Action}

/-- In every run in which Steam lists a game once: a step that calls `apply` passes a selection
that is legal in the session that the step leaves. -/
theorem legal_of_apply (h : (controllerMachine setup).ReachableWhen DistinctDiscovery c)
    (hC : DistinctDiscovery c action) (hn : (controllerMachine setup).next c action = some d)
    {id : TaskId} {a : Advance} {appIds : List AppId} {warmingUp : Bool}
    (hcall : d.tasks.lookup id = some (.advance a (.apply .pending appIds warmingUp)))
    (hnew : c.tasks.lookup id ≠ some (.advance a (.apply .pending appIds warmingUp))) :
    ∃ s', d.session = some s' ∧ Legal setup c.now s' appIds := by
  have hshaped : Shaped d := shaped_next (shaped_of_reachable h.reachable) hn
  obtain ⟨s', hs', -⟩ := session_of_task hshaped hcall
  refine ⟨s', hs', ?_⟩
  obtain ⟨s, hbegins, hturn⟩ := turn_of_reachable h.reachable hn hs'
  have hs := hbegins.distinct (distinct_of_reachable h)
  cases hturn with
  | stays hgames h => exact absurd (h.calls id a appIds warmingUp hcall) hnew
  | rests hgames h => exact absurd (h.calls id a appIds warmingUp hcall) hnew
  | scans discovery down hseen hgames h => exact absurd (h.calls id a appIds warmingUp hcall) hnew
  | begins limit hgames hcounting hactive hsince hlimit hstands hcalls =>
    exact absurd (hcalls id a appIds warmingUp hcall) hnew
  | credits limit hgames hcounting htimer hactive hlimit hstands hcalls =>
    exact absurd (hcalls id a appIds warmingUp hcall) hnew
  | arms ids warm hgames hstand hlimit hsince hactive hstands hcalls =>
    exact absurd (hcalls id a appIds warmingUp hcall) hnew
  | chooses t limit hsource hlimit hgames hactive h =>
    have hd := (Session.relabels_filterGames setup c.now c.shuttingDown t).distinct
      (distinct_of_source hs hC hsource)
    cases h with
    | rests h => exact absurd (h.calls id a appIds warmingUp hcall) hnew
    | arms hsince hactive' hsame hstands hcalls =>
      exact absurd (hcalls id a appIds warmingUp hcall) hnew
    | calls k b hnonempty hpending hothers hactive' htimer hstands =>
      by_cases hk : id = k
      · subst hk
        rw [hpending] at hcall
        obtain ⟨-, hpoint⟩ := Task.advance.inj (Option.some.inj hcall)
        obtain ⟨-, rfl, -⟩ := Point.apply.inj hpoint
        subst hlimit
        exact legal_select ((filtered_filterGames c.shuttingDown t).sameGames hgames)
          (hgames.distinct hd) (hgames.ordered (Session.ordered_filterGames ..)) hnonempty
      · exact absurd (hothers id a appIds warmingUp hk hcall) hnew

def waitsForBadges : Controller :=
  ((controllerMachine plainSetup).exec .empty
    [.start { maxConcurrentGames := 2, skipRefundable := false, blacklist := [20] } none false,
      .settle 0 (.availability ⟨true, none, 32⟩), .act 0, .settle 0 .done]).getD .empty

def threeBadges : Action :=
  .settle 0 (.discovery ⟨[⟨10, "b", 3, some 30, none, none, none⟩,
    ⟨20, "a", 1, none, none, none, none⟩, ⟨30, "c", 2, none, none, none, none⟩], false⟩)

theorem legal_of_apply_waitsForBadges : ∃ d s', (controllerMachine plainSetup).next waitsForBadges
      threeBadges = some d ∧ d.session = some s' ∧ Legal plainSetup 0 s' [10, 30] := by
  have hreach : (controllerMachine plainSetup).ReachableWhen DistinctDiscovery waitsForBadges := by
    refine Machine.reachableWhen_exec (fun a ha c => ?_) rfl (by decide +kernel)
    simp only [List.mem_cons, List.not_mem_nil, or_false] at ha
    rcases ha with rfl | rfl | rfl | rfl
    · trivial
    · trivial
    · trivial
    · trivial
  have htrans : Std.TransCmp plainSetup.localeCompare :=
    inferInstanceAs (Std.TransCmp (compare : String → String → Ordering))
  obtain ⟨d, hd⟩ : ∃ d, (controllerMachine plainSetup).next waitsForBadges threeBadges = some d :=
    Option.isSome_iff_exists.mp (by decide +kernel)
  have hcall : ((controllerMachine plainSetup).next waitsForBadges threeBadges).bind
      (fun d => d.tasks.lookup 0) =
        some (.advance ⟨some false, 1, true⟩ (.apply .pending [10, 30] true)) := by decide +kernel
  rw [hd] at hcall
  have hnew : waitsForBadges.tasks.lookup 0 ≠
      some (.advance ⟨some false, 1, true⟩ (.apply .pending [10, 30] true)) := by decide +kernel
  have hdistinct : DistinctDiscovery waitsForBadges threeBadges := by
    show List.Nodup _
    decide
  obtain ⟨s', hs', hlegal⟩ := legal_of_apply hreach hdistinct hd hcall hnew
  exact ⟨d, s', hd, hs', hlegal⟩

end Controller
end Legal
end SteamBee.Farming
