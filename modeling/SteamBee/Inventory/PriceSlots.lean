import SteamBee.Inventory.PriceScheduler

/-! The slots and the queue of the price reader agree with the stages of its operations,
whatever frees a slot. -/
namespace SteamBee.Inventory.PriceScheduler
variable {s t : PriceScheduler} {id k : ReadId} {read : Read} {stage : ReadStage} {a : ReadAction}

def stageOf (s : PriceScheduler) (id : ReadId) : Option ReadStage :=
  (s.reads.lookup id).map fun read => read.stage

def stageIs (s : PriceScheduler) (p : ReadStage → Bool) (id : ReadId) : Bool :=
  (s.stageOf id).any p

def resultOf (s : PriceScheduler) (id : ReadId) : Option ReadResult :=
  (s.stageOf id).bind ReadStage.result

/-- The queue, the slots and the log follow the stages. -/
structure Linked (s : PriceScheduler) : Prop where
  accepted : ∀ id, (s.stageOf id).isSome = true ↔ id < s.drawn
  queue : s.waiting.Nodup
  waits : ∀ id, id ∈ s.waiting ↔ s.stageIs ReadStage.isWaiting id = true
  slots : ∃ holders : List ReadId, holders.Nodup ∧ holders.length = s.active ∧
    ∀ id, id ∈ holders ↔ s.stageIs ReadStage.holdsSlot id = true
  started : ∀ id, s.log.count (.started id) = (s.stageIs ReadStage.isStarted id).toNat
  settled : ∀ id, s.log.count (.settled id) = (s.resultOf id).isSome.toNat
  timers : ∀ id timeoutAt, s.stageOf id = some (.waiting timeoutAt) →
    timeoutAt ≤ s.now + waitingTimeout
  requests : ∀ id now cooldownUntil, .requested id now cooldownUntil ∈ s.log → cooldownUntil ≤ now

/-- The operation `id` comes to `stage`, and nothing else changes its stage. -/
structure Change (s : PriceScheduler) (id : ReadId) (stage : ReadStage) (t : PriceScheduler) :
    Prop where
  stages : ∀ k, t.stageOf k = if k = id then some stage else s.stageOf k
  accepted : ∀ k, k < t.drawn ↔ k = id ∨ k < s.drawn
  queue : t.waiting.Nodup
  waits : ∀ k, k ∈ t.waiting ↔ if k = id then stage.isWaiting = true else k ∈ s.waiting
  slots : t.active + (s.stageIs ReadStage.holdsSlot id).toNat = s.active + stage.holdsSlot.toNat
  started : ∀ k, t.log.count (.started k) =
    if k = id then stage.isStarted.toNat else s.log.count (.started k)
  settled : ∀ k, t.log.count (.settled k) =
    if k = id then stage.result.isSome.toNat else s.log.count (.settled k)
  timers : ∀ timeoutAt, stage = .waiting timeoutAt → timeoutAt ≤ t.now + waitingTimeout
  requests : ∀ id now cooldownUntil, .requested id now cooldownUntil ∈ t.log →
    .requested id now cooldownUntil ∈ s.log ∨ cooldownUntil ≤ now
  now : s.now = t.now

theorem linked_empty (now : ℕ) : (empty now).Linked where
  accepted id := ⟨fun h => (by cases h), fun h => absurd h (Nat.not_lt_zero id)⟩
  queue := .nil
  waits id := ⟨fun h => (by cases h), fun h => (by cases h)⟩
  slots := ⟨[], .nil, rfl, fun id => ⟨fun h => (by cases h), fun h => (by cases h)⟩⟩
  started _ := rfl
  settled _ := rfl
  timers _ _ h := by cases h
  requests _ _ _ h := by cases h

/-- The operations that hold a slot, after one of them has changed. -/
theorem exists_holders {holders : List ReadId} {held holds : Bool} {active : ℕ}
    (hnodup : holders.Nodup) (hid : id ∈ holders ↔ held = true)
    (hactive : active + held.toNat = holders.length + holds.toNat) :
    ∃ after : List ReadId, after.Nodup ∧ after.length = active ∧
      ∀ k, k ∈ after ↔ if k = id then holds = true else k ∈ holders := by
  cases held with
  | true =>
    have hmem : id ∈ holders := hid.mpr rfl
    have hpos : 0 < holders.length := List.length_pos_of_mem hmem
    have herase : (holders.erase id).length = holders.length - 1 := List.length_erase_of_mem hmem
    have hmemErase (k : ReadId) : k ∈ holders.erase id ↔ k ≠ id ∧ k ∈ holders :=
      hnodup.mem_erase_iff
    cases holds with
    | true =>
      refine ⟨holders, hnodup, by simp at hactive; omega, fun k => ?_⟩
      split_ifs with hk
      · simp [hk, hmem]
      · rfl
    | false =>
      refine ⟨holders.erase id, hnodup.erase id, by simp at hactive; omega, fun k => ?_⟩
      rw [hmemErase]
      split_ifs with hk
      · simp [hk]
      · simp [hk]
  | false =>
    have hmem : id ∉ holders := by simpa using hid
    cases holds with
    | true =>
      refine ⟨id :: holders, List.nodup_cons.mpr ⟨hmem, hnodup⟩, by simp at hactive ⊢; omega,
        fun k => ?_⟩
      split_ifs with hk
      · simp [hk]
      · simp [hk]
    | false =>
      refine ⟨holders, hnodup, by simp at hactive; omega, fun k => ?_⟩
      split_ifs with hk
      · simp [hk, hmem]
      · rfl

/-- The step lemma of one operation. -/
theorem Linked.change (h : s.Linked) (hc : s.Change id stage t) : t.Linked := by
  have hpred (p : ReadStage → Bool) (k : ReadId) :
      t.stageIs p k = if k = id then p stage else s.stageIs p k := by
    unfold stageIs
    rw [hc.stages]
    split_ifs <;> rfl
  constructor
  case accepted =>
    intro k
    rw [hc.accepted, hc.stages, ← h.accepted]
    split_ifs with hk
    · simp [hk]
    · simp [hk]
  case queue => exact hc.queue
  case waits =>
    intro k
    rw [hc.waits, hpred]
    split_ifs
    · rfl
    · exact h.waits k
  case slots =>
    obtain ⟨holders, hnodup, hlength, hholders⟩ := h.slots
    have hactive := hc.slots
    rw [← hlength] at hactive
    obtain ⟨after, hafter, hlen, hmem⟩ := exists_holders hnodup (hholders id) hactive
    refine ⟨after, hafter, hlen, fun k => ?_⟩
    rw [hmem, hpred]
    split_ifs
    · rfl
    · exact hholders k
  case started =>
    intro k
    rw [hc.started, hpred]
    split_ifs
    · rfl
    · exact h.started k
  case settled =>
    intro k
    rw [hc.settled, resultOf, hc.stages]
    split_ifs
    · rfl
    · exact h.settled k
  case timers =>
    intro k timeoutAt hk
    rw [hc.stages] at hk
    split_ifs at hk
    · exact hc.timers timeoutAt (Option.some.inj hk)
    · exact hc.now ▸ h.timers k timeoutAt hk
  case requests =>
    intro k now cooldownUntil hk
    rcases hc.requests k now cooldownUntil hk with hold | hnow
    · exact h.requests k now cooldownUntil hold
    · exact hnow

/-- The cooldown and the clock matter to no stage. -/
theorem Linked.frame (h : s.Linked) (hstages : ∀ k, t.stageOf k = s.stageOf k)
    (hwaiting : t.waiting = s.waiting) (hactive : t.active = s.active)
    (hdrawn : t.drawn = s.drawn) (hlog : t.log = s.log) (hnow : s.now ≤ t.now) : t.Linked := by
  have hpred (p : ReadStage → Bool) (k : ReadId) : t.stageIs p k = s.stageIs p k := by
    rw [stageIs, stageIs, hstages]
  have hresult (k : ReadId) : t.resultOf k = s.resultOf k := by
    rw [resultOf, resultOf, hstages]
  constructor
  case accepted => simpa only [hstages, hdrawn] using h.accepted
  case queue => exact hwaiting ▸ h.queue
  case waits => simpa only [hwaiting, hpred] using h.waits
  case slots => simpa only [hactive, hpred] using h.slots
  case started => simpa only [hlog, hpred] using h.started
  case settled => simpa only [hlog, hresult] using h.settled
  case timers =>
    intro k timeoutAt hk
    rw [hstages] at hk
    have hle := h.timers k timeoutAt hk
    omega
  case requests => simpa only [hlog] using h.requests

theorem stageOf_insert (hreads : t.reads = s.reads.insert id read) (k : ReadId) :
    t.stageOf k = if k = id then some read.stage else s.stageOf k := by
  rw [stageOf, hreads, Table.lookup_insert_eq]
  split_ifs <;> rfl

theorem stageOf_eq (hread : s.reads.lookup id = some read) : s.stageOf id = some read.stage := by
  rw [stageOf, hread]
  rfl

theorem stageIs_eq (hread : s.reads.lookup id = some read) (p : ReadStage → Bool) :
    s.stageIs p id = p read.stage := by
  rw [stageIs, stageOf_eq hread]
  rfl

theorem Linked.not_mem (h : s.Linked) (hread : s.reads.lookup id = some read)
    (hstage : read.stage.isWaiting = false) : id ∉ s.waiting := by
  rw [h.waits, stageIs_eq hread, hstage]
  exact Bool.false_ne_true

theorem count_settled (log : List ReadEvent) (id k : ReadId) :
    (.settled id :: log).count (.settled k) = log.count (.settled k) + if k = id then 1 else 0 := by
  rw [List.count_cons]
  by_cases hk : k = id
  · simp [hk]
  · have hne : ¬ id = k := fun heq => hk heq.symm
    simp [hk, hne]

theorem count_started (log : List ReadEvent) (id k : ReadId) :
    (.started id :: log).count (.started k) = log.count (.started k) + if k = id then 1 else 0 := by
  rw [List.count_cons]
  by_cases hk : k = id
  · simp [hk]
  · have hne : ¬ id = k := fun heq => hk heq.symm
    simp [hk, hne]

/-- An operation whose stage is known takes the next one, and the log grows by what it
notes of itself. -/
theorem Linked.proceed (h : s.Linked) {old : ReadStage} (hread : s.reads.lookup id = some read)
    (hstage : read.stage = old)
    (hreads : t.reads = s.reads.insert id { read with stage }) (hdrawn : t.drawn = s.drawn)
    (hwaiting : t.waiting = s.waiting) (hold : old.isWaiting = false)
    (hnew : stage.isWaiting = false)
    (hslots : t.active + old.holdsSlot.toNat = s.active + stage.holdsSlot.toNat)
    (hstarted : stage.isStarted = old.isStarted)
    (hlog : t.log = s.log ∧ stage.result.isSome = old.result.isSome ∨
      t.log = .settled id :: s.log ∧ old.result = none ∧ stage.result.isSome = true)
    (hnow : t.now = s.now) : t.Linked := by
  subst hstage
  suffices hc : s.Change id stage t from h.change hc
  have hlt : id < s.drawn := (h.accepted id).mp (by rw [stageOf_eq hread]; rfl)
  have hsettled : s.log.count (.settled id) = read.stage.result.isSome.toNat := by
    rw [h.settled, resultOf, stageOf_eq hread]
    rfl
  constructor
  case stages => exact stageOf_insert hreads
  case accepted =>
    intro k
    rw [hdrawn]
    exact ⟨.inr, fun hk => hk.elim (fun heq => heq ▸ hlt) fun hk => hk⟩
  case queue => exact hwaiting ▸ h.queue
  case waits =>
    intro k
    rw [hwaiting]
    split_ifs with hk
    · subst hk
      simp [h.not_mem hread hold, hnew]
    · rfl
  case slots => rw [stageIs_eq hread]; exact hslots
  case started =>
    intro k
    have hcount : t.log.count (.started k) = s.log.count (.started k) := by
      rcases hlog with ⟨hlog, -⟩ | ⟨hlog, -⟩ <;> simp [hlog]
    rw [hcount, hstarted]
    split_ifs with hk
    · subst hk
      rw [h.started, stageIs_eq hread]
    · rfl
  case settled =>
    intro k
    rcases hlog with ⟨hlog, hsame⟩ | ⟨hlog, hnone, hsome⟩
    · rw [hlog, hsame]
      split_ifs with hk
      · exact hk ▸ hsettled
      · rfl
    · rw [hlog, count_settled]
      split_ifs with hk
      · subst hk
        simp [hsettled, hnone, hsome]
      · rfl
  case timers =>
    intro timeoutAt hw
    rw [hw] at hnew
    cases hnew
  case requests =>
    intro k now cooldownUntil hk
    rcases hlog with ⟨hlog, -⟩ | ⟨hlog, -⟩
    · exact .inl (hlog ▸ hk)
    · rw [hlog] at hk
      exact .inl ((List.mem_cons.mp hk).resolve_left (by simp))
  case now => exact hnow.symm

/-- The operation was accepted just now or waits. -/
def Unstarted (s : PriceScheduler) (id : ReadId) : Prop :=
  s.stageOf id = none ∨ ∃ timeoutAt, s.stageOf id = some (.waiting timeoutAt)

theorem Unstarted.stageIs_eq (h : s.Unstarted id) (p : ReadStage → Bool)
    (hp : ∀ timeoutAt, p (.waiting timeoutAt) = false) : s.stageIs p id = false := by
  unfold stageIs
  rcases h with hnone | ⟨timeoutAt, hwaiting⟩
  · rw [hnone]
    rfl
  · rw [hwaiting]
    exact hp timeoutAt

theorem Unstarted.resultOf_eq (h : s.Unstarted id) : s.resultOf id = none := by
  unfold resultOf
  rcases h with hnone | ⟨timeoutAt, hwaiting⟩
  · rw [hnone]
    rfl
  · rw [hwaiting]
    rfl

/-- An operation leaves the queue, or never enters it, and comes to a later stage. -/
theorem Linked.leave (h : s.Linked) (hid : s.Unstarted id)
    (hreads : t.reads = s.reads.insert id { read with stage })
    (haccepted : ∀ k, k < t.drawn ↔ k = id ∨ k < s.drawn) (hqueue : t.waiting.Nodup)
    (hwaits : ∀ k, k ∈ t.waiting ↔ k ≠ id ∧ k ∈ s.waiting) (hstage : stage.isWaiting = false)
    (hslots : t.active = s.active + stage.holdsSlot.toNat)
    (hstarted : ∀ k, t.log.count (.started k) =
      s.log.count (.started k) + if k = id then stage.isStarted.toNat else 0)
    (hsettled : ∀ k, t.log.count (.settled k) =
      s.log.count (.settled k) + if k = id then stage.result.isSome.toNat else 0)
    (hrequests : ∀ id now cooldownUntil, .requested id now cooldownUntil ∈ t.log →
      .requested id now cooldownUntil ∈ s.log ∨ cooldownUntil ≤ now)
    (hnow : s.now = t.now) : t.Linked := by
  have hnotStarted : s.log.count (.started id) = 0 := by
    rw [h.started, hid.stageIs_eq _ fun _ => rfl]
    rfl
  have hnotSettled : s.log.count (.settled id) = 0 := by
    rw [h.settled, hid.resultOf_eq]
    rfl
  suffices hc : s.Change id stage t from h.change hc
  constructor
  case stages => exact stageOf_insert hreads
  case accepted => exact haccepted
  case queue => exact hqueue
  case waits =>
    intro k
    rw [hwaits]
    split_ifs with hk
    · simp [hk, hstage]
    · simp [hk]
  case slots =>
    rw [hid.stageIs_eq _ fun _ => rfl]
    exact hslots
  case started =>
    intro k
    rw [hstarted]
    split_ifs with hk
    · rw [hk, hnotStarted, Nat.zero_add]
    · rfl
  case settled =>
    intro k
    rw [hsettled]
    split_ifs with hk
    · rw [hk, hnotSettled, Nat.zero_add]
    · rfl
  case timers =>
    intro timeoutAt hw
    rw [hw] at hstage
    cases hstage
  case requests => exact hrequests
  case now => exact hnow

/-- `refuse` of an operation that leaves the queue. -/
theorem Linked.refuse (h : s.Linked) (hid : s.Unstarted id) {waiting : List ReadId} {drawn : ℕ}
    (haccepted : ∀ k, k < drawn ↔ k = id ∨ k < s.drawn) (hqueue : waiting.Nodup)
    (hwaits : ∀ k, k ∈ waiting ↔ k ≠ id ∧ k ∈ s.waiting) (error : PriceReadError) :
    ({ s with waiting, drawn }.refuse id read error).Linked := by
  refine h.leave hid rfl haccepted hqueue hwaits rfl rfl ?_ (count_settled s.log id) ?_ rfl
  · intro k
    show (ReadEvent.settled id :: s.log).count (.started k) = _
    simp [ReadStage.isStarted]
  · intro k now cooldownUntil hk
    exact .inl ((List.mem_cons.mp hk).resolve_left (by simp))

/-- `start` of an operation that leaves the queue or did not have to wait. -/
theorem Linked.start (h : s.Linked) (hid : s.Unstarted id) {waiting : List ReadId} {drawn : ℕ}
    (haccepted : ∀ k, k < drawn ↔ k = id ∨ k < s.drawn) (hqueue : waiting.Nodup)
    (hwaits : ∀ k, k ∈ waiting ↔ k ≠ id ∧ k ∈ s.waiting) :
    ({ s with waiting, drawn }.start id read).Linked := by
  unfold PriceScheduler.start
  split
  next error _ => exact h.refuse hid haccepted hqueue hwaits error
  next hcooldown =>
    have hpassed : s.cooldownUntil ≤ s.now := by
      simpa [PriceScheduler.cooldown] using hcooldown
    unfold operate
    dsimp only
    split_ifs
    · refine h.leave hid rfl haccepted hqueue hwaits rfl rfl ?_ ?_ ?_ rfl
      · intro k
        show (_ :: ReadEvent.started id :: s.log).count (.started k) = _
        rw [List.count_cons_of_ne (by simp), count_started]
        rfl
      · intro k
        show (_ :: ReadEvent.started id :: s.log).count (.settled k) = _
        simp [ReadStage.result]
      · intro k now cooldownUntil hk
        rcases List.mem_cons.mp hk with heq | hk
        · cases heq
          exact .inr hpassed
        · exact .inl ((List.mem_cons.mp hk).resolve_left (by simp))
    · refine h.leave hid rfl haccepted hqueue hwaits rfl rfl (count_started s.log id) ?_ ?_ rfl
      · intro k
        show (ReadEvent.started id :: s.log).count (.settled k) = _
        simp [ReadStage.result]
      · intro k now cooldownUntil hk
        exact .inl ((List.mem_cons.mp hk).resolve_left (by simp))

/-- The bounds, and that no slot is free while an operation waits. -/
structure Filled (s : PriceScheduler) : Prop where
  active : s.active ≤ maxActive
  waiting : s.waiting.length ≤ maxWaiting
  full : s.waiting ≠ [] → s.active = maxActive

theorem start_active (s : PriceScheduler) (id : ReadId) (read : Read) :
    (s.start id read).active ≤ s.active + 1 := by
  unfold PriceScheduler.start operate
  split
  next => exact Nat.le_succ _
  next => dsimp only; split_ifs <;> exact le_rfl

theorem start_waiting (s : PriceScheduler) (id : ReadId) (read : Read) :
    (s.start id read).waiting = s.waiting := by
  unfold PriceScheduler.start operate
  split
  next => rfl
  next => dsimp only; split_ifs <;> rfl

theorem start_stageOf (s : PriceScheduler) (read : Read) (hne : k ≠ id) :
    (s.start id read).stageOf k = s.stageOf k := by
  unfold PriceScheduler.start operate
  split
  next => exact (stageOf_insert (s := s) rfl k).trans (if_neg hne)
  next =>
    dsimp only
    split_ifs
    · exact (stageOf_insert (s := s) rfl k).trans (if_neg hne)
    · exact (stageOf_insert (s := s) rfl k).trans (if_neg hne)

def Keeps (s t : PriceScheduler) : Prop :=
  ∀ id result, s.resultOf id = some result → t.resultOf id = some result

theorem Keeps.trans {u : PriceScheduler} (h : s.Keeps t) (h' : t.Keeps u) : s.Keeps u :=
  fun id result hr => h' id result (h id result hr)

theorem Keeps.of_stages (h : ∀ k, t.stageOf k = s.stageOf k) : s.Keeps t := by
  intro k result hr
  rw [resultOf, h]
  exact hr

/-- Only an operation without a result changes its stage. -/
theorem Keeps.of_except (hid : s.resultOf id = none) (h : ∀ k, k ≠ id → t.stageOf k = s.stageOf k) :
    s.Keeps t := by
  intro k result hr
  have hne : k ≠ id := by
    rintro rfl
    rw [hid] at hr
    cases hr
  rw [resultOf, h k hne]
  exact hr

/-- By induction on the queue: each function that is called leaves it for good. -/
theorem Linked.pumpFrom {waiting : List ReadId} (h : s.Linked) (hw : s.waiting = waiting)
    (hactive : s.active ≤ maxActive) (hlength : waiting.length ≤ maxWaiting) :
    (s.pumpFrom waiting).Linked ∧ (s.pumpFrom waiting).Filled ∧ s.Keeps (s.pumpFrom waiting) := by
  induction waiting generalizing s with
  | nil =>
    refine ⟨h, ⟨hactive, ?_, fun hne => absurd hw hne⟩, .of_stages fun _ => rfl⟩
    show s.waiting.length ≤ maxWaiting
    rw [hw]
    exact hlength
  | cons id rest ih =>
    unfold PriceScheduler.pumpFrom
    split_ifs with hfree
    · have hmem : id ∈ s.waiting := hw ▸ List.mem_cons_self
      have hnodup : (id :: rest).Nodup := hw ▸ h.queue
      have hwaiting := (h.waits id).mp hmem
      cases hread : s.reads.lookup id with
      | none => simp [stageIs, stageOf, hread] at hwaiting
      | some read =>
        rw [stageIs_eq hread] at hwaiting
        have hid : s.Unstarted id := by
          rw [Unstarted, stageOf_eq hread]
          cases hstage : read.stage with
          | waiting timeoutAt => exact .inr ⟨timeoutAt, rfl⟩
          | _ => rw [hstage] at hwaiting; cases hwaiting
        have hlt : id < s.drawn := (h.accepted id).mp (by rw [stageOf_eq hread]; rfl)
        have hlinked : ({ s with waiting := rest }.start id read).Linked := by
          refine h.start hid ?_ (List.nodup_cons.mp hnodup).2 ?_
          · exact fun k => ⟨.inr, fun hk => hk.elim (fun heq => heq ▸ hlt) fun hk => hk⟩
          · intro k
            rw [hw, List.mem_cons]
            constructor
            · intro hk
              exact ⟨fun heq => (List.nodup_cons.mp hnodup).1 (heq ▸ hk), .inr hk⟩
            · exact fun ⟨hne, hk⟩ => hk.resolve_left hne
        have hfirst : s.Keeps ({ s with waiting := rest }.start id read) :=
          .of_except hid.resultOf_eq fun k hne => start_stageOf _ read hne
        have hle := start_active { s with waiting := rest } id read
        simp only [hread]
        obtain ⟨hlinks, hfills, hkeeps⟩ := ih hlinked (start_waiting _ _ _)
          (hle.trans (Nat.succ_le_of_lt hfree)) ((Nat.le_succ _).trans hlength)
        exact ⟨hlinks, hfills, hfirst.trans hkeeps⟩
    · refine ⟨h, ⟨hactive, hw ▸ hlength, fun _ => ?_⟩, .of_stages fun _ => rfl⟩
      exact le_antisymm hactive (Nat.not_lt.mp hfree)

/-- `schedule` of an operation that is accepted. -/
theorem Linked.accept (h : s.Linked) (hf : s.Filled) (hs : s.scheduleError = none)
    (current : Bool) : (s.accept current).Linked ∧ (s.accept current).Filled ∧
      s.Keeps (s.accept current) := by
  have hnew : s.stageOf s.drawn = none := by
    have hnot : ¬ (s.stageOf s.drawn).isSome = true :=
      fun hsome => lt_irrefl _ ((h.accepted _).mp hsome)
    simpa using hnot
  have hfresh : s.Unstarted s.drawn := .inl hnew
  have haccepted (k : ReadId) : k < s.drawn + 1 ↔ k = s.drawn ∨ k < s.drawn := by
    rw [Nat.lt_succ_iff, Nat.le_iff_lt_or_eq]
    exact or_comm
  have hlt (k : ReadId) (hk : k ∈ s.waiting) : k < s.drawn := by
    rw [h.waits] at hk
    refine (h.accepted k).mp ?_
    unfold stageIs at hk
    cases hstage : s.stageOf k with
    | none => rw [hstage] at hk; cases hk
    | some => rfl
  unfold PriceScheduler.accept
  dsimp only
  split_ifs with hfree
  · have hempty : s.waiting = [] := by
      by_contra hne
      have hfull := hf.full hne
      omega
    refine ⟨?_, ⟨?_, ?_, ?_⟩, .of_except hfresh.resultOf_eq fun k hne => start_stageOf _ _ hne⟩
    · apply h.start hfresh haccepted h.queue
      intro k
      exact ⟨fun hk => ⟨(hlt k hk).ne, hk⟩, fun hk => hk.2⟩
    · exact (start_active _ _ _).trans (Nat.succ_le_of_lt hfree)
    · rw [start_waiting]
      exact hf.waiting
    · rw [start_waiting]
      exact fun hne => absurd hempty hne
  · have hactive : s.active = maxActive := le_antisymm hf.active (Nat.not_lt.mp hfree)
    have hroom : s.waiting.length < maxWaiting := by
      unfold scheduleError at hs
      split at hs
      next => cases hs
      next =>
        split_ifs at hs with hfull
        by_contra hlong
        exact hfull ⟨Nat.not_lt.mp hfree, Nat.not_lt.mp hlong⟩
    refine ⟨?_, ⟨hf.active, ?_, fun _ => hactive⟩, ?_⟩
    · suffices hc : s.Change s.drawn (.waiting (s.now + waitingTimeout)) { s with
          drawn := s.drawn + 1
          reads := s.reads.insert s.drawn ⟨current, .waiting (s.now + waitingTimeout)⟩
          waiting := s.waiting ++ [s.drawn] } from h.change hc
      constructor
      case stages => exact fun k => (stageOf_insert (s := s) rfl k).trans rfl
      case accepted => exact haccepted
      case queue =>
        show (s.waiting ++ [s.drawn]).Nodup
        rw [List.nodup_append]
        refine ⟨h.queue, List.nodup_singleton _, ?_⟩
        intro k hk j hj
        rw [List.mem_singleton.mp hj]
        exact (hlt k hk).ne
      case waits =>
        intro k
        show k ∈ s.waiting ++ [s.drawn] ↔ _
        rw [List.mem_append, List.mem_singleton]
        split_ifs with hk
        · simp [hk, ReadStage.isWaiting]
        · simp [hk]
      case slots =>
        rw [hfresh.stageIs_eq _ fun _ => rfl]
        rfl
      case started =>
        intro k
        split_ifs with hk
        · subst hk
          rw [h.started, hfresh.stageIs_eq _ fun _ => rfl]
          rfl
        · rfl
      case settled =>
        intro k
        split_ifs with hk
        · subst hk
          rw [h.settled, hfresh.resultOf_eq]
          rfl
        · rfl
      case timers =>
        intro timeoutAt hw
        obtain rfl := ReadStage.waiting.inj hw
        exact le_rfl
      case requests => exact fun _ _ _ hk => .inl hk
      case now => rfl
    · show (s.waiting ++ [s.drawn]).length ≤ maxWaiting
      rw [List.length_append]
      exact hroom
    · exact .of_except hfresh.resultOf_eq fun k hne =>
        (stageOf_insert (s := s) rfl k).trans (if_neg hne)

end SteamBee.Inventory.PriceScheduler
