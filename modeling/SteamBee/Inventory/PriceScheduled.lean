import SteamBee.Inventory.PriceSlots

/-! In every run of the price scheduler at most two operations are active and at most forty
wait, a slot is free only when none waits, and every accepted operation settles once. -/
namespace SteamBee.Inventory
namespace PriceScheduler
variable {s t : PriceScheduler} {a : ReadAction} {id : ReadId} {read : Read}

theorem Filled.frame (h : s.Filled) (hactive : t.active = s.active)
    (hwaiting : t.waiting = s.waiting) : t.Filled := by
  constructor
  case active => exact hactive ▸ h.active
  case waiting => exact hwaiting ▸ h.waiting
  case full =>
    rw [hwaiting, hactive]
    exact h.full

theorem outcome_frame (s : PriceScheduler) (response : PriceResponse) :
    (s.outcome response).2 = s ∨ (s.outcome response).2 = s.rateLimited := by
  unfold outcome
  split_ifs
  · exact .inr rfl
  · exact .inl rfl
  · split
    · exact .inl rfl
    · exact .inl rfl

/-- An operation whose stage is known has no result before it settles. -/
theorem resultOf_eq (hread : s.reads.lookup id = some read) :
    s.resultOf id = read.stage.result := by
  rw [resultOf, stageOf_eq hread]
  rfl

/-- The step of an operation whose request is out. -/
theorem Linked.ended {u : PriceScheduler} (h : s.Linked) (hf : s.Filled)
    (hread : s.reads.lookup id = some read) (hstage : read.stage = .active)
    (hu : u = s ∨ u = s.rateLimited) (result : ReadResult) :
    (u.setStage id read (.ended result)).Linked ∧ (u.setStage id read (.ended result)).Filled ∧
      s.Keeps (u.setStage id read (.ended result)) := by
  have hnone : s.resultOf id = none := by
    rw [resultOf_eq hread, hstage]
    rfl
  rcases hu with rfl | rfl
  · refine ⟨?_, hf.frame rfl rfl, .of_except hnone fun k hne =>
      (stageOf_insert (s := u) rfl k).trans (if_neg hne)⟩
    exact h.proceed hread hstage rfl rfl rfl rfl rfl rfl rfl (.inl ⟨rfl, rfl⟩) rfl
  · refine ⟨?_, hf.frame rfl rfl, .of_except hnone fun k hne =>
      (stageOf_insert (s := s) rfl k).trans (if_neg hne)⟩
    exact h.proceed hread hstage rfl rfl rfl rfl rfl rfl rfl (.inl ⟨rfl, rfl⟩) rfl

theorem Linked.settle (h : s.Linked) (hf : s.Filled) (hn : s.settle id = some t) :
    t.Linked ∧ t.Filled ∧ s.Keeps t := by
  obtain ⟨read, hread, hn⟩ := Option.bind_eq_some_iff.mp hn
  split at hn
  next result hstage =>
    obtain rfl := Option.some.inj hn
    have hnone : s.resultOf id = none := by
      rw [resultOf_eq hread, hstage]
      rfl
    refine ⟨?_, hf.frame rfl rfl, .of_except hnone fun k hne =>
      (stageOf_insert (s := s) rfl k).trans (if_neg hne)⟩
    exact h.proceed hread hstage rfl rfl rfl rfl rfl rfl rfl (.inr ⟨rfl, rfl, rfl⟩) rfl
  next => cases hn

/-- A slot becomes free and the queue moves up. -/
theorem Linked.release (h : s.Linked) (hf : s.Filled) (hn : s.release id = some t) :
    t.Linked ∧ t.Filled ∧ s.Keeps t := by
  obtain ⟨read, hread, hn⟩ := Option.bind_eq_some_iff.mp hn
  split at hn
  next result hstage =>
    obtain rfl := Option.some.inj hn
    have hholds : s.stageIs ReadStage.holdsSlot id = true := by
      rw [stageIs_eq hread, hstage]
      rfl
    obtain ⟨holders, -, hlength, hmem⟩ := h.slots
    have hpos : 0 < s.active := hlength ▸ List.length_pos_of_mem ((hmem id).mpr hholds)
    have hlinked : { s.setStage id read (.released result) with
        active := s.active - 1 }.Linked :=
      h.proceed hread hstage rfl rfl rfl rfl rfl (Nat.sub_add_cancel hpos) rfl
        (.inl ⟨rfl, rfl⟩) rfl
    have hkeeps : s.Keeps { s.setStage id read (.released result) with
        active := s.active - 1 } := by
      intro k r hr
      have hk := stageOf_insert (s := s) (t := { s.setStage id read (.released result) with
        active := s.active - 1 }) rfl k
      rw [resultOf, hk]
      split_ifs with heq
      · rw [heq, resultOf_eq hread, hstage] at hr
        exact hr
      · exact hr
    obtain ⟨hlinks, hfills, hpump⟩ := hlinked.pumpFrom rfl
      ((Nat.sub_le _ _).trans hf.active) hf.waiting
    exact ⟨hlinks, hfills, hkeeps.trans hpump⟩
  next => cases hn

theorem Linked.timeout (h : s.Linked) (hf : s.Filled) (hn : s.timeout id = some t) :
    t.Linked ∧ t.Filled ∧ s.Keeps t := by
  obtain ⟨read, hread, hn⟩ := Option.bind_eq_some_iff.mp hn
  split at hn
  next timeoutAt hstage =>
    split_ifs at hn
    obtain rfl := Option.some.inj hn
    have hid : s.Unstarted id := .inr ⟨timeoutAt, by rw [stageOf_eq hread, hstage]⟩
    have hlt : id < s.drawn := (h.accepted id).mp (by rw [stageOf_eq hread]; rfl)
    refine ⟨?_, ⟨hf.active, ?_, fun hne => hf.full ?_⟩, .of_except hid.resultOf_eq fun k hne =>
      (stageOf_insert (s := s) rfl k).trans (if_neg hne)⟩
    · apply h.refuse hid
      · exact fun k => ⟨.inr, fun hk => hk.elim (fun heq => heq ▸ hlt) fun hk => hk⟩
      · exact h.queue.erase id
      · exact fun k => h.queue.mem_erase_iff
    · exact List.erase_sublist.length_le.trans hf.waiting
    · intro hempty
      apply hne
      show s.waiting.erase id = []
      rw [hempty]
      rfl
  next => cases hn

/-- The step lemma. -/
theorem Linked.next (h : s.Linked) (hf : s.Filled) (hn : priceSchedulerMachine.next s a = some t) :
    t.Linked ∧ t.Filled ∧ s.Keeps t := by
  cases a with
  | schedule current =>
    simp only [priceSchedulerMachine, PriceScheduler.schedule] at hn
    cases hs : s.scheduleError with
    | some error =>
      rw [hs] at hn
      obtain rfl := Option.some.inj hn
      exact ⟨h, hf, .of_stages fun _ => rfl⟩
    | none =>
      rw [hs] at hn
      obtain rfl := Option.some.inj hn
      exact h.accept hf hs current
  | outdate id =>
    obtain ⟨read, hread, hn⟩ := Option.bind_eq_some_iff.mp hn
    obtain rfl := Option.some.inj hn
    have hstages (k : ReadId) : ({ s with reads := s.reads.insert id { read with
        current := false } } : PriceScheduler).stageOf k = s.stageOf k := by
      rw [stageOf_insert (s := s) rfl]
      split_ifs with hk
      · rw [hk, stageOf_eq hread]
      · rfl
    exact ⟨h.frame hstages rfl rfl rfl rfl le_rfl, hf.frame rfl rfl, .of_stages hstages⟩
  | answer id response =>
    obtain ⟨read, hread, hn⟩ := Option.bind_eq_some_iff.mp hn
    split at hn
    next hstage =>
      obtain rfl := Option.some.inj hn
      exact h.ended hf hread hstage (s.outcome_frame response) _
    next => cases hn
  | fail id =>
    obtain ⟨read, hread, hn⟩ := Option.bind_eq_some_iff.mp hn
    split at hn
    next hstage =>
      obtain rfl := Option.some.inj hn
      exact h.ended hf hread hstage (.inl rfl) _
    next => cases hn
  | settle id => exact h.settle hf hn
  | release id => exact h.release hf hn
  | timeout id => exact h.timeout hf hn
  | observe =>
    obtain rfl := Option.some.inj hn
    unfold PriceScheduler.observe
    split_ifs
    · exact ⟨h.frame (fun _ => rfl) rfl rfl rfl rfl le_rfl, hf.frame rfl rfl,
        .of_stages fun _ => rfl⟩
    · exact ⟨h, hf, .of_stages fun _ => rfl⟩
  | tick elapsed =>
    obtain rfl := Option.some.inj hn
    exact ⟨h.frame (fun _ => rfl) rfl rfl rfl rfl (Nat.le_add_right _ _), hf.frame rfl rfl,
      .of_stages fun _ => rfl⟩

theorem filled_empty (now : ℕ) : (empty now).Filled where
  active := Nat.zero_le _
  waiting := Nat.zero_le _
  full hne := absurd rfl hne

/-- The invariant of the reachable states. -/
theorem linked_of_reachable (h : priceSchedulerMachine.Reachable s) : s.Linked ∧ s.Filled := by
  refine h.invariant (I := fun s => s.Linked ∧ s.Filled) ?_ ?_
  · rintro s ⟨now, rfl⟩
    exact ⟨linked_empty now, filled_empty now⟩
  · intro s a t hs _ hn
    obtain ⟨hlinked, hfilled, -⟩ := hs.1.next hs.2 hn
    exact ⟨hlinked, hfilled⟩

/-- What a step does to the cooldown: it leaves it alone, a 429 answer extends it, or an
observation resets it after it has passed. -/
inductive CooldownStep (s t : PriceScheduler) : Prop where
  | still (hstep : t.cooldownStep = s.cooldownStep) (huntil : t.cooldownUntil = s.cooldownUntil)
  | extended (hstep : t.cooldownStep = min (s.cooldownStep + 1) 4)
      (huntil : s.cooldownUntil ≤ t.cooldownUntil)
  | reset (hpassed : s.cooldownUntil ≤ s.now) (hstep : t.cooldownStep = 0)
      (huntil : t.cooldownUntil = 0)

theorem start_cooldown (s : PriceScheduler) (id : ReadId) (read : Read) :
    (s.start id read).cooldownStep = s.cooldownStep ∧
      (s.start id read).cooldownUntil = s.cooldownUntil := by
  unfold PriceScheduler.start operate
  split
  next => exact ⟨rfl, rfl⟩
  next => dsimp only; split_ifs <;> exact ⟨rfl, rfl⟩

theorem pumpFrom_cooldown (waiting : List ReadId) (s : PriceScheduler) :
    (s.pumpFrom waiting).cooldownStep = s.cooldownStep ∧
      (s.pumpFrom waiting).cooldownUntil = s.cooldownUntil := by
  induction waiting generalizing s with
  | nil => exact ⟨rfl, rfl⟩
  | cons id rest ih =>
    unfold PriceScheduler.pumpFrom
    split_ifs
    · dsimp only
      split
      next read _ =>
        obtain ⟨hstep, huntil⟩ := ih ({ s with waiting := rest }.start id read)
        obtain ⟨hstep', huntil'⟩ := start_cooldown { s with waiting := rest } id read
        exact ⟨hstep.trans hstep', huntil.trans huntil'⟩
      next => exact ih { s with waiting := rest }
    · exact ⟨rfl, rfl⟩

theorem cooldownStep_of_next (hn : priceSchedulerMachine.next s a = some t) :
    s.CooldownStep t := by
  cases a with
  | schedule current =>
    simp only [priceSchedulerMachine, PriceScheduler.schedule] at hn
    cases hs : s.scheduleError with
    | some error =>
      rw [hs] at hn
      obtain rfl := Option.some.inj hn
      exact .still rfl rfl
    | none =>
      rw [hs] at hn
      obtain rfl := Option.some.inj hn
      unfold accept
      dsimp only
      split_ifs
      · obtain ⟨hstep, huntil⟩ := start_cooldown { s with drawn := s.drawn + 1 } s.drawn
          ⟨current, .waiting (s.now + waitingTimeout)⟩
        exact .still hstep huntil
      · exact .still rfl rfl
  | outdate id =>
    obtain ⟨read, -, hn⟩ := Option.bind_eq_some_iff.mp hn
    obtain rfl := Option.some.inj hn
    exact .still rfl rfl
  | answer id response =>
    obtain ⟨read, -, hn⟩ := Option.bind_eq_some_iff.mp hn
    split at hn
    next =>
      obtain rfl := Option.some.inj hn
      rcases s.outcome_frame response with heq | heq
      · rw [heq]
        exact .still rfl rfl
      · rw [heq]
        exact .extended rfl (le_max_left _ _)
    next => cases hn
  | fail id =>
    obtain ⟨read, -, hn⟩ := Option.bind_eq_some_iff.mp hn
    split at hn
    next =>
      obtain rfl := Option.some.inj hn
      exact .still rfl rfl
    next => cases hn
  | settle id =>
    obtain ⟨read, -, hn⟩ := Option.bind_eq_some_iff.mp hn
    split at hn
    next =>
      obtain rfl := Option.some.inj hn
      exact .still rfl rfl
    next => cases hn
  | release id =>
    obtain ⟨read, -, hn⟩ := Option.bind_eq_some_iff.mp hn
    split at hn
    next =>
      obtain rfl := Option.some.inj hn
      obtain ⟨hstep, huntil⟩ := pumpFrom_cooldown _ _
      exact .still hstep huntil
    next => cases hn
  | timeout id =>
    obtain ⟨read, -, hn⟩ := Option.bind_eq_some_iff.mp hn
    split at hn
    next =>
      split_ifs at hn
      obtain rfl := Option.some.inj hn
      exact .still rfl rfl
    next => cases hn
  | observe =>
    obtain rfl := Option.some.inj hn
    unfold PriceScheduler.observe
    split_ifs with hpassed
    · exact .reset hpassed rfl rfl
    · exact .still rfl rfl
  | tick elapsed =>
    obtain rfl := Option.some.inj hn
    exact .still rfl rfl

theorem cooldownStep_le (h : priceSchedulerMachine.Reachable s) : s.cooldownStep ≤ 4 := by
  refine h.invariant (I := fun s => s.cooldownStep ≤ 4) ?_ ?_
  · rintro s ⟨now, rfl⟩
    exact Nat.zero_le _
  · intro s a t hs _ hn
    cases cooldownStep_of_next hn with
    | still hstep => exact hstep ▸ hs
    | extended hstep =>
      rw [hstep]
      exact min_le_right _ _
    | reset _ hstep =>
      rw [hstep]
      exact Nat.zero_le _

/-- An accepted operation whose promise has not settled, and the step that brings it on. -/
inductive Pending (s : PriceScheduler) (id : ReadId) : Prop where
  | waiting (timeoutAt : ℕ) (hstage : s.stageOf id = some (.waiting timeoutAt))
      (hmem : id ∈ s.waiting) (hsoon : timeoutAt ≤ s.now + 20000)
      (htimeout : timeoutAt ≤ s.now → ∃ t error,
        priceSchedulerMachine.next s (.timeout id) = some t ∧
          t.resultOf id = some (.error (.priceRead error)))
  | active (hstage : s.stageOf id = some .active)
      (hanswer : ∀ response, ∃ t result,
        priceSchedulerMachine.next s (.answer id response) = some t ∧
          t.stageOf id = some (.ended result))
  | ended (result : ReadResult) (hstage : s.stageOf id = some (.ended result))
      (hsettle : ∃ t, priceSchedulerMachine.next s (.settle id) = some t ∧
        t.resultOf id = some result)

theorem exists_read {stage : ReadStage} (h : s.stageOf id = some stage) :
    ∃ current, s.reads.lookup id = some ⟨current, stage⟩ := by
  obtain ⟨read, hread, rfl⟩ := Option.map_eq_some_iff.mp h
  exact ⟨read.current, hread⟩

theorem stageOf_setStage (s : PriceScheduler) (id : ReadId) (read : Read) (stage : ReadStage) :
    (s.setStage id read stage).stageOf id = some stage := by
  rw [stageOf_insert (s := s) rfl, if_pos rfl]

theorem exists_stage {p : ReadStage → Bool} (h : s.stageIs p id = true) :
    ∃ stage, s.stageOf id = some stage ∧ p stage = true := by
  simpa [stageIs, Option.any_eq_true] using h

/-- No more operations hold a slot than the counter says. -/
theorem Linked.length_le (h : s.Linked) {ids : List ReadId} (hnodup : ids.Nodup)
    (hids : ∀ id ∈ ids, s.stageIs ReadStage.holdsSlot id = true) : ids.length ≤ s.active := by
  obtain ⟨holders, -, hlength, hmem⟩ := h.slots
  have hsub : ids ⊆ holders := fun id hid => (hmem id).mpr (hids id hid)
  exact hlength ▸ (List.subperm_of_subset hnodup hsub).length_le

theorem Linked.pending (h : s.Linked) (hid : id < s.drawn) (hnone : s.resultOf id = none) :
    s.Pending id := by
  obtain ⟨stage, hstage⟩ := Option.isSome_iff_exists.mp ((h.accepted id).mpr hid)
  obtain ⟨current, hread⟩ := exists_read hstage
  rw [resultOf, hstage] at hnone
  cases stage with
  | waiting timeoutAt =>
    have hmem : id ∈ s.waiting := by
      rw [h.waits, stageIs, hstage]
      rfl
    refine .waiting timeoutAt hstage hmem (h.timers id timeoutAt hstage) fun hpassed => ?_
    refine ⟨{ s with waiting := s.waiting.erase id }.refuse id ⟨current, .waiting timeoutAt⟩
      ⟨.rateLimited, some (s.now + 1000)⟩, ⟨.rateLimited, some (s.now + 1000)⟩, ?_, ?_⟩
    · simp [priceSchedulerMachine, PriceScheduler.timeout, hread, hpassed]
    · exact congrArg (Option.bind · ReadStage.result) (stageOf_setStage _ id _ _)
  | active =>
    refine .active hstage fun response => ?_
    refine ⟨(s.outcome response).2.setStage id ⟨current, .active⟩
      (.ended (s.outcome response).1), (s.outcome response).1, ?_, stageOf_setStage _ id _ _⟩
    simp [priceSchedulerMachine, PriceScheduler.answer, hread]
  | ended result =>
    refine .ended result hstage ⟨(s.setStage id ⟨current, .ended result⟩
      (.settled result)).note (.settled id), ?_, ?_⟩
    · simp [priceSchedulerMachine, PriceScheduler.settle, hread]
    · exact congrArg (Option.bind · ReadStage.result) (stageOf_setStage _ id _ _)
  | settled result => cases hnone
  | released result => cases hnone
  | refused error => cases hnone

end PriceScheduler

structure Schedules (s : PriceScheduler) : Prop where
  twoActive : ∀ ids : List ReadId, ids.Nodup →
    (∀ id ∈ ids, s.stageIs ReadStage.holdsSlot id = true) → ids.length ≤ 2
  fortyWaiting : ∀ ids : List ReadId, ids.Nodup →
    (∀ id ∈ ids, s.stageIs ReadStage.isWaiting id = true) → ids.length ≤ 40
  noStall : (∀ id result, s.stageOf id ≠ some (.ended result) ∧
      s.stageOf id ≠ some (.settled result)) →
    ∀ id, s.stageIs ReadStage.isWaiting id = true →
      ∃ i j, i ≠ j ∧ s.stageOf i = some .active ∧ s.stageOf j = some .active
  startedOnce : ∀ id, s.log.count (.started id) ≤ 1
  settledOnce : ∀ id, s.log.count (.settled id) = if (s.resultOf id).isSome then 1 else 0
  noneLost : ∀ id < s.drawn, s.resultOf id = none → s.Pending id
  resultStays : ∀ a t, priceSchedulerMachine.next s a = some t → ∀ id result,
    s.resultOf id = some result → t.resultOf id = some result
  cooldownHolds : ∀ id now cooldownUntil,
    .requested id now cooldownUntil ∈ s.log → cooldownUntil ≤ now
  resetAfterCooldown : ∀ a t, priceSchedulerMachine.next s a = some t →
    t.cooldownStep < s.cooldownStep ∨ t.cooldownUntil < s.cooldownUntil →
      s.cooldownUntil ≤ s.now

/-- Every reachable state keeps the promises of the scheduler. -/
theorem schedules_of_reachable {s : PriceScheduler} (h : priceSchedulerMachine.Reachable s) :
    Schedules s := by
  obtain ⟨hs, hf⟩ := PriceScheduler.linked_of_reachable h
  constructor
  case twoActive =>
    intro ids hnodup hids
    exact (hs.length_le hnodup hids).trans hf.active
  case fortyWaiting =>
    intro ids hnodup hids
    have hsub : ids ⊆ s.waiting := fun id hid => (hs.waits id).mpr (hids id hid)
    exact (List.subperm_of_subset hnodup hsub).length_le.trans hf.waiting
  case noStall =>
    intro hrest id hid
    have hwaiting : s.waiting ≠ [] := List.ne_nil_of_mem ((hs.waits id).mpr hid)
    obtain ⟨holders, hnodup, hlength, hmem⟩ := hs.slots
    rw [hf.full hwaiting] at hlength
    obtain ⟨i, j, rfl⟩ := List.length_eq_two.mp hlength
    -- at rest an operation that holds a slot waits for its answer
    have hactive (k : ReadId) (hk : k ∈ [i, j]) : s.stageOf k = some .active := by
      obtain ⟨stage, hstage, hholds⟩ := PriceScheduler.exists_stage ((hmem k).mp hk)
      cases stage with
      | active => exact hstage
      | ended result => exact absurd hstage (hrest k result).1
      | settled result => exact absurd hstage (hrest k result).2
      | _ => cases hholds
    refine ⟨i, j, ?_, hactive i (by simp), hactive j (by simp)⟩
    rintro rfl
    simp at hnodup
  case startedOnce =>
    intro id
    rw [hs.started]
    exact Bool.toNat_le _
  case settledOnce =>
    intro id
    rw [hs.settled]
    cases (s.resultOf id).isSome with
    | true => rfl
    | false => rfl
  case noneLost => exact fun id hid hnone => hs.pending hid hnone
  case resultStays => exact fun a t hn => (hs.next hf hn).2.2
  case cooldownHolds => exact hs.requests
  case resetAfterCooldown =>
    intro a t hn hless
    have hle := PriceScheduler.cooldownStep_le h
    cases PriceScheduler.cooldownStep_of_next hn with
    | still hstep huntil => omega
    | extended hstep huntil =>
      have hmin : s.cooldownStep ≤ min (s.cooldownStep + 1) 4 := le_min (Nat.le_succ _) hle
      omega
    | reset hpassed => exact hpassed

/-- Two requests run and two wait; the first is answered with 429, so that its end refuses
those that waited. -/
def limitedFirst : PriceScheduler :=
  (priceSchedulerMachine.exec (.empty 1000)
    [.schedule true, .schedule true, .schedule true, .schedule true, .answer 0 ⟨429, false, none⟩,
      .settle 0, .release 0]).getD (.empty 1000)

theorem schedules_limitedFirst : Schedules limitedFirst ∧ limitedFirst.active = 1 ∧
    limitedFirst.waiting = [] ∧ limitedFirst.cooldownUntil = 61000 ∧
    limitedFirst.log.count (.settled 3) = 1 :=
  ⟨schedules_of_reachable (Transition.Machine.reachable_exec ⟨1000, rfl⟩ (by decide)),
    by decide, by decide, by decide, by decide⟩

end SteamBee.Inventory
