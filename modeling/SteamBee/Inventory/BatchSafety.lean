import SteamBee.Inventory.BatchRun

/-! Safety of the batch queue over whole runs. -/
namespace SteamBee.Inventory
open Transition
namespace MarketBatchQueue
variable {E : Type}

/-- Every registered job has a well-formed run, and the active map lists exactly
the unfinished jobs. -/
structure Sound (q : MarketBatchQueue E) : Prop where
  jobs : ∀ id job, q.jobs.lookup id = some job →
    job.value.id = id ∧ id < q.drawn ∧ job.Suspended
  active : ∀ accountId id, q.active.lookup accountId = some id ↔
    ∃ job, q.jobs.lookup id = some job ∧ job.accountId = accountId ∧ job.finishedAt = none
  previews : ∀ token entry, q.previews.lookup token = some entry → token < q.drawn

/-- The queue `b` may come after `a`: jobs that both know have evolved and no
preview of `a` has come back. -/
structure Follows (a b : MarketBatchQueue E) : Prop where
  now : a.now ≤ b.now
  drawn : a.drawn ≤ b.drawn
  jobs : ∀ id job', b.jobs.lookup id = some job' → id < a.drawn →
    ∃ job, a.jobs.lookup id = some job ∧ job.Evolves a.now job'
  previews : ∀ token entry, b.previews.lookup token = some entry → token < a.drawn →
    a.previews.lookup token = some entry

theorem Follows.refl (q : MarketBatchQueue E) : q.Follows q where
  now := le_rfl
  drawn := le_rfl
  jobs _ job h _ := ⟨job, h, .refl _ _⟩
  previews _ _ h _ := h

theorem Follows.trans {a b c : MarketBatchQueue E} (h : a.Follows b) (h' : b.Follows c) :
    a.Follows c where
  now := h.now.trans h'.now
  drawn := h.drawn.trans h'.drawn
  jobs id job'' hid hlt := by
    obtain ⟨job', hjob', he'⟩ := h'.jobs id job'' hid (hlt.trans_le h.drawn)
    obtain ⟨job, hjob, he⟩ := h.jobs id job' hjob' hlt
    exact ⟨job, hjob, he.trans he' h.now⟩
  previews token entry ht hlt :=
    h.previews token entry (h'.previews token entry ht (hlt.trans_le h.drawn)) hlt

/-- An unfinished job is the active one of its account. -/
theorem Sound.active_of_unfinished {q : MarketBatchQueue E} (h : q.Sound) {id : Uuid} {job : Job E}
    (hj : q.jobs.lookup id = some job) (hf : job.finishedAt = none) :
    q.active.lookup job.accountId = some id :=
  (h.active _ _).mpr ⟨job, hj, rfl, hf⟩

theorem sound_empty : (empty : MarketBatchQueue E).Sound where
  jobs _ _ h := by simp [empty] at h
  active _ _ := by simp [empty]
  previews _ _ h := by simp [empty] at h

/-- One unfinished job of a sound queue moves on; the rest of the queue stays. -/
theorem sound_change {q q' : MarketBatchQueue E} (h : q.Sound) {id : Uuid} {job job' : Job E}
    (hj : q.jobs.lookup id = some job) (hf : job.finishedAt = none) (hs : job'.Suspended)
    (he : job.Evolves q.now job') (hnow : q'.now = q.now) (hdrawn : q'.drawn = q.drawn)
    (hprev : q'.previews = q.previews)
    (hlook : ∀ k, q'.jobs.lookup k = if k = id then some job' else q.jobs.lookup k)
    (hactive : ∀ a, q'.active.lookup a =
      if job'.finishedAt.isSome = true ∧ a = job.accountId then none else q.active.lookup a) :
    q'.Sound ∧ q.Follows q' := by
  have hact := h.active_of_unfinished hj hf
  obtain ⟨hid, hlt, -⟩ := h.jobs id job hj
  refine ⟨⟨?_, ?_, ?_⟩, ⟨hnow.ge, hdrawn.ge, ?_, fun _ _ ht _ => hprev ▸ ht⟩⟩
  · intro k job'' hk
    rw [hlook] at hk
    split_ifs at hk with hkid
    · obtain rfl := Option.some.inj hk
      exact ⟨by rw [he.id, hid, hkid], by rw [hdrawn, hkid]; exact hlt, hs⟩
    · rw [hdrawn]
      exact h.jobs k job'' hk
  · intro a k
    rw [hactive]
    constructor
    · intro ha
      split_ifs at ha with hc
      obtain ⟨j, hjk, hja, hjf⟩ := (h.active a k).mp ha
      by_cases hkid : k = id
      · subst hkid
        obtain rfl : j = job := Option.some.inj (hjk.symm.trans hj)
        refine ⟨job', by rw [hlook, if_pos rfl], he.accountId.trans hja, ?_⟩
        by_contra hne
        exact hc ⟨Option.isSome_iff_ne_none.mpr hne, hja.symm⟩
      · exact ⟨j, by rw [hlook, if_neg hkid, hjk], hja, hjf⟩
    · rintro ⟨j, hjk, hja, hjf⟩
      rw [hlook] at hjk
      split_ifs at hjk with hkid
      · obtain rfl := Option.some.inj hjk
        rw [if_neg (by simp [hjf]), ← hja, he.accountId, hact, hkid]
      · have hak : q.active.lookup a = some k := (h.active a k).mpr ⟨j, hjk, hja, hjf⟩
        rw [if_neg, hak]
        rintro ⟨-, rfl⟩
        exact hkid (Option.some.inj (hak.symm.trans hact))
  · rw [hprev, hdrawn]
    exact h.previews
  · intro k job'' hk hklt
    rw [hlook] at hk
    split_ifs at hk with hkid
    · obtain rfl := Option.some.inj hk
      exact ⟨job, hkid ▸ hj, he⟩
    · exact ⟨job'', hk, .refl _ _⟩

/-- Writing back a job after a segment of its run. -/
theorem sound_put {q : MarketBatchQueue E} (h : q.Sound) {id : Uuid} {job job' : Job E}
    (hj : q.jobs.lookup id = some job) (hf : job.finishedAt = none) (hs : job'.Suspended)
    (he : job.Evolves q.now job') : (q.put id job').Sound ∧ q.Follows (q.put id job') := by
  refine sound_change h hj hf hs he rfl rfl rfl (fun k => ?_) fun a => ?_
  · simp [put, Table.lookup_modify, hj]
  · have hact' : q.active.lookup job'.accountId = some id :=
      he.accountId ▸ h.active_of_unfinished hj hf
    by_cases hfin : job'.finishedAt.isSome = true
    · simp [put, hfin, hact', Table.lookup_erase_eq, he.accountId]
    · simp [put, hfin]

theorem suspended_halt {now : ℕ} {job : Job E} (h : job.Suspended) : (halt now job).Suspended where
  length := h.length
  counted := h.counted
  ordered := h.ordered
  phase := by
    have hphase := h.phase
    cases hs : job.suspension with
    | executing i =>
      rw [hs] at hphase
      simp only [halt, hs]
      exact hphase
    | waiting i =>
      rw [hs] at hphase
      obtain ⟨hb, hitem⟩ := hphase
      simp only [halt, hs]
      exact ⟨⟨⟨h.length, h.counted, h.ordered⟩, hb.unfinished, hb.settled, hb.untouched, hb.bound⟩,
        hitem⟩
    | done =>
      rw [hs] at hphase
      simp only [halt, hs]
      exact hphase

theorem evolves_halt {now : ℕ} {job : Job E} (h : job.finishedAt = none) :
    job.Evolves now (halt now job) where
  accountId := rfl
  id := rfl
  deadline := rfl
  stopRequested _ := rfl
  aborted _ := rfl
  rows _ item hi := ⟨item, hi, .refl _⟩
  started := List.prefix_rfl
  halted _ := rfl
  finished hf := by simp [h] at hf

theorem over_halt (now now' : ℕ) (job : Job E) : (halt now job).Over now' := .inr rfl

/-- Aborting an unfinished job leaves its run suspended where it was. -/
theorem sound_halt {q : MarketBatchQueue E} (h : q.Sound) {id : Uuid} {job : Job E}
    (hj : q.jobs.lookup id = some job) (hf : job.finishedAt = none) :
    { q with jobs := q.jobs.modify id (halt q.now) }.Sound ∧
      q.Follows { q with jobs := q.jobs.modify id (halt q.now) } := by
  refine sound_change h hj hf (suspended_halt (h.jobs id job hj).2.2) (evolves_halt hf)
    rfl rfl rfl (fun k => ?_) fun a => ?_
  · simp [Table.lookup_modify, hj]
  · simp [halt, hf]

/-- Previews and finished jobs may be forgotten. -/
theorem sound_forget {q : MarketBatchQueue E} (h : q.Sound) {P : Table Uuid (Prepared E)}
    {J : Table Uuid (Job E)}
    (hP : ∀ token entry, P.lookup token = some entry → q.previews.lookup token = some entry)
    (hJ : ∀ id job, J.lookup id = some job → q.jobs.lookup id = some job)
    (hopen : ∀ id job, q.jobs.lookup id = some job → job.finishedAt = none →
      J.lookup id = some job) :
    { q with previews := P, jobs := J }.Sound ∧ q.Follows { q with previews := P, jobs := J } := by
  refine ⟨⟨fun id job hid => h.jobs id job (hJ id job hid), fun accountId id => ?_,
    fun token entry ht => h.previews token entry (hP token entry ht)⟩,
    ⟨le_rfl, le_rfl, fun id job hid _ => ⟨job, hJ id job hid, .refl _ _⟩,
      fun token entry ht _ => hP token entry ht⟩⟩
  rw [h.active]
  constructor
  · rintro ⟨job, hid, ha, hf⟩
    exact ⟨job, hopen id job hid hf, ha, hf⟩
  · rintro ⟨job, hid, ha, hf⟩
    exact ⟨job, hJ id job hid, ha, hf⟩

theorem sound_forget_previews {q : MarketBatchQueue E} (h : q.Sound)
    {P : Table Uuid (Prepared E)}
    (hP : ∀ token entry, P.lookup token = some entry → q.previews.lookup token = some entry) :
    { q with previews := P }.Sound ∧ q.Follows { q with previews := P } :=
  sound_forget h hP (fun _ _ hid => hid) fun _ _ hid _ => hid

/-- `prune` keeps the clock, the identifiers and the active map. -/
theorem prune_spec {q : MarketBatchQueue E} (h : q.Sound) :
    q.prune.2.Sound ∧ q.Follows q.prune.2 ∧ q.prune.2.now = q.now ∧ q.prune.2.drawn = q.drawn ∧
      q.prune.2.active = q.active := by
  have hs := sound_forget h
    (P := q.previews.retain fun _ entry => decide (q.now < entry.preview.expiresAt))
    (J := q.jobs.retain fun _ job =>
      !job.finishedAt.any fun finishedAt => decide (finishedAt + 60 * 60000 ≤ q.now))
    (fun _ _ ht => (Table.lookup_of_retain ht).1) (fun _ _ hid => (Table.lookup_of_retain hid).1)
    (fun id job hid hf => by simp [Table.lookup_retain, hid, hf, Option.filter])
  unfold prune
  dsimp only
  split_ifs
  · exact ⟨hs.1, hs.2, rfl, rfl, rfl⟩
  · exact ⟨hs.1, hs.2, rfl, rfl, rfl⟩

theorem assertIdle_ok {q : MarketBatchQueue E} {accountId : AccountId}
    (h : q.assertIdle accountId = .ok ()) : q.active.lookup accountId = none := by
  unfold assertIdle at h
  split_ifs at h with ha
  simpa using ha

/-- A preview issued now is stored under a fresh token. -/
theorem create_spec {q : MarketBatchQueue E} (h : q.Sound) (accountId : AccountId) (actor : Actor)
    (kind : MarketKind) (currency : Option MarketCurrency) (commands : List (BatchCommand E))
    (delaySeconds : ℕ) :
    (q.create accountId actor kind currency commands delaySeconds).2.Sound ∧
      q.Follows (q.create accountId actor kind currency commands delaySeconds).2 := by
  obtain ⟨hs, hf, -, hdrawn, -⟩ := prune_spec h
  unfold create
  split
  next => exact ⟨h, .refl q⟩
  next =>
    split
    next e p hp => rw [hp] at hs hf; exact ⟨hs, hf⟩
    next p hp =>
      rw [hp] at hs hf hdrawn
      split_ifs
      · exact ⟨hs, hf⟩
      · refine ⟨⟨fun id job hid => ?_, hs.active, fun token entry ht => ?_⟩,
          ⟨hf.now, hf.drawn.trans (Nat.le_succ _), hf.jobs, fun token entry ht hlt => ?_⟩⟩
        · obtain ⟨hid', hlt, hsus⟩ := hs.jobs id job hid
          exact ⟨hid', hlt.trans (Nat.lt_succ_self _), hsus⟩
        · simp only [Table.lookup_insert_eq] at ht
          split_ifs at ht with htok
          · exact htok ▸ Nat.lt_succ_self _
          · exact (hs.previews token entry (Table.lookup_of_retain ht).1).trans (Nat.lt_succ_self _)
        · simp only [Table.lookup_insert_eq] at ht
          rw [if_neg (by rintro rfl; exact absurd hlt (by simp [show p.drawn = q.drawn from hdrawn]))]
            at ht
          exact hf.previews token entry (Table.lookup_of_retain ht).1 hlt

theorem between_newJob (q : MarketBatchQueue E) (accountId : AccountId) (actor : Actor)
    (entry : Prepared E) : (q.newJob accountId actor entry).Between 0 where
  length := by simp [newJob]
  counted := by
    simp only [newJob, List.countP_map]
    refine List.countP_congr fun command _ => ?_
    cases hx : command.execute <;> simp [hx, ItemStatus.isOpen]
  ordered := .nil
  unfinished := rfl
  settled _ _ _ hlt := absurd hlt (Nat.not_lt_zero _)
  untouched j item command hj hc _ := by
    simp only [newJob, List.getElem?_map] at hj hc
    rw [hc] at hj
    obtain rfl := Option.some.inj hj
    rfl
  bound k hk := by simp [newJob] at hk

/-- A launched job is the active one unless it has finished at once. -/
theorem launch_active (q : MarketBatchQueue E) (accountId : AccountId) (actor : Actor)
    (entry : Prepared E) (other : AccountId) :
    (q.launch accountId actor entry).2.active.lookup other =
      if other = accountId then
        if (q.launch accountId actor entry).1.finishedAt.isSome = true then none else some q.drawn
      else q.active.lookup other := by
  have hacc : (q.launch accountId actor entry).1.accountId = accountId :=
    (Job.runRows_spec q.now (between_newJob q accountId actor entry)
      (show entry.commands = _ from rfl)).2.accountId
  have hput : (q.launch accountId actor entry).2.active =
      if (q.launch accountId actor entry).1.finishedAt.isSome &&
          (q.active.insert accountId q.drawn).lookup (q.launch accountId actor entry).1.accountId ==
            some q.drawn
      then (q.active.insert accountId q.drawn).erase (q.launch accountId actor entry).1.accountId
      else q.active.insert accountId q.drawn := rfl
  rw [hput]
  by_cases hfin : (q.launch accountId actor entry).1.finishedAt.isSome = true
  · simp only [hacc, hfin, Table.lookup_insert_eq, if_true, beq_self_eq_true, Bool.and_self,
      Table.lookup_erase_eq]
    split_ifs <;> rfl
  · simp only [hfin, Bool.false_and, Bool.false_eq_true, if_false, Table.lookup_insert_eq]

/-- A launched job is the active one of an account that was idle. -/
theorem launch_spec {q : MarketBatchQueue E} (h : q.Sound) (accountId : AccountId) (actor : Actor)
    (entry : Prepared E) (hidle : q.active.lookup accountId = none) :
    (q.launch accountId actor entry).2.Sound ∧ q.Follows (q.launch accountId actor entry).2 := by
  obtain ⟨hs, he⟩ := Job.runRows_spec q.now (between_newJob q accountId actor entry)
    (show entry.commands = _ from rfl)
  set job := (q.newJob accountId actor entry).runRows q.now entry.commands 0 with hjob
  have hacc : job.accountId = accountId := he.accountId
  have hid : job.value.id = q.drawn := he.id
  have hlook (k : Uuid) : (q.launch accountId actor entry).2.jobs.lookup k =
      if k = q.drawn then some job else q.jobs.lookup k := by
    simp only [launch, put, Table.lookup_modify, Table.lookup_insert_eq]
    split_ifs <;> rfl
  have hactive (a : AccountId) : (q.launch accountId actor entry).2.active.lookup a =
      if a = accountId then if job.finishedAt.isSome = true then none else some q.drawn
      else q.active.lookup a := launch_active q accountId actor entry a
  have hfresh (k : Uuid) (j : Job E) (hk : q.jobs.lookup k = some j) : k ≠ q.drawn :=
    (h.jobs k j hk).2.1.ne
  refine ⟨⟨fun k j hk => ?_, fun a k => ?_, fun token e ht => ?_⟩,
    ⟨le_rfl, Nat.le_succ _, fun k j hk hlt => ?_, fun _ _ ht _ => ht⟩⟩
  · rw [hlook] at hk
    split_ifs at hk with hkd
    · obtain rfl := Option.some.inj hk
      exact ⟨hid.trans hkd.symm, hkd ▸ Nat.lt_succ_self _, hs⟩
    · obtain ⟨hid', hlt, hsus⟩ := h.jobs k j hk
      exact ⟨hid', hlt.trans (Nat.lt_succ_self _), hsus⟩
  · rw [hactive]
    constructor
    · intro ha
      split_ifs at ha with haa hfin
      · obtain rfl := Option.some.inj ha
        refine ⟨job, by rw [hlook, if_pos rfl], hacc.trans haa.symm, ?_⟩
        simpa using hfin
      · obtain ⟨j, hjk, hja, hjf⟩ := (h.active a k).mp ha
        exact ⟨j, by rw [hlook, if_neg (hfresh k j hjk), hjk], hja, hjf⟩
    · rintro ⟨j, hjk, hja, hjf⟩
      rw [hlook] at hjk
      split_ifs at hjk with hkd
      · obtain rfl := Option.some.inj hjk
        rw [if_pos (hja.symm.trans hacc), hkd, if_neg (by simp [hjf])]
      · have hak : q.active.lookup a = some k := (h.active a k).mpr ⟨j, hjk, hja, hjf⟩
        rw [if_neg, hak]
        rintro rfl
        simp [hidle] at hak
  · exact (h.previews token e ht).trans (Nat.lt_succ_self _)
  · rw [hlook, if_neg hlt.ne] at hk
    exact ⟨j, hk, .refl _ _⟩

theorem confirm_spec {q : MarketBatchQueue E} (h : q.Sound) (accountId : AccountId) (actor : Actor)
    (token : Uuid) : (q.confirm accountId actor token).2.Sound ∧
      q.Follows (q.confirm accountId actor token).2 := by
  obtain ⟨hs, hf⟩ := sound_forget_previews h (P := q.previews.erase token) fun t entry ht => by
    rw [Table.lookup_erase_eq] at ht
    split_ifs at ht
    exact ht
  obtain ⟨hs', hf', hnow, hdrawn, hactive⟩ := prune_spec hs
  unfold confirm
  split
  next => exact ⟨h, .refl q⟩
  next entry _ =>
    dsimp only
    split_ifs
    · exact ⟨h, .refl q⟩
    · exact ⟨hs, hf⟩
    · exact ⟨hs, hf⟩
    split
    next => exact ⟨hs, hf⟩
    next hidle =>
      have hfree := assertIdle_ok hidle
      split
      next e p hp => rw [hp] at hs' hf'; exact ⟨hs', hf.trans hf'⟩
      next p hp =>
        rw [hp] at hs' hf' hactive
        obtain ⟨hl, hfl⟩ := launch_spec hs' accountId actor entry
          ((congrArg (AList.lookup accountId) hactive).trans hfree)
        exact ⟨hl, (hf.trans hf').trans hfl⟩

theorem get_ok {q : MarketBatchQueue E} {accountId : AccountId} {actor : Actor} {jobId : Uuid}
    {value : MarketBatchJob} (h : q.get accountId actor jobId = .ok value) :
    ∃ job, q.jobs.lookup jobId = some job ∧ job.accountId = accountId ∧ job.actor = actor ∧
      job.value = value := by
  unfold get at h
  split at h
  next => cases h
  next job hj =>
    split_ifs at h with hc
    push Not at hc
    exact ⟨job, hj, hc.1, hc.2.1, Except.ok.inj h⟩

/-- `stop` halts the job if it is unfinished and changes nothing else. -/
theorem stop_spec {q : MarketBatchQueue E} (h : q.Sound) (accountId : AccountId) (actor : Actor)
    (jobId : Uuid) : (q.stop accountId actor jobId).2.Sound ∧
      q.Follows (q.stop accountId actor jobId).2 := by
  unfold stop
  split
  next => exact ⟨h, .refl q⟩
  next value hget =>
    obtain ⟨job, hj, -, -, -⟩ := get_ok hget
    by_cases hf : job.finishedAt = none
    · refine sound_change h hj hf (suspended_halt (h.jobs jobId job hj).2.2) (evolves_halt hf)
        rfl rfl rfl (fun k => ?_) fun a => ?_
      · simp [Table.lookup_modify, hj, hf]
      · simp [halt, hf]
    · have hsame (k : Uuid) : (q.jobs.modify jobId fun job =>
          if job.finishedAt.isNone then halt q.now job else job).lookup k = q.jobs.lookup k := by
        rw [Table.lookup_modify]
        split_ifs with hk
        · subst hk
          simp [hj, hf]
        · rfl
      exact sound_forget h (fun _ _ ht => ht) (fun k j hk => hsame k ▸ hk)
        fun k j hk _ => (hsame k).trans hk

/-- `stopAccount` invalidates the account's previews and halts its active job. -/
theorem stopAccount_spec {q : MarketBatchQueue E} (h : q.Sound) (accountId : AccountId) :
    (q.stopAccount accountId).Sound ∧ q.Follows (q.stopAccount accountId) := by
  obtain ⟨hs, hf⟩ := sound_forget_previews h
    (P := q.previews.retain fun _ entry => entry.accountId != accountId)
    fun _ _ ht => (Table.lookup_of_retain ht).1
  cases ha : q.active.lookup accountId with
  | none =>
    simp only [stopAccount, ha]
    exact ⟨hs, hf⟩
  | some jobId =>
    obtain ⟨job, hj, -, hopen⟩ := (h.active accountId jobId).mp ha
    obtain ⟨hs', hf'⟩ := sound_halt hs hj hopen
    simp only [stopAccount, ha]
    exact ⟨hs', hf.trans hf'⟩

theorem stopAccounts_spec {q : MarketBatchQueue E} (h : q.Sound) (accounts : List AccountId) :
    (accounts.foldl stopAccount q).Sound ∧ q.Follows (accounts.foldl stopAccount q) := by
  induction accounts generalizing q with
  | nil => exact ⟨h, .refl q⟩
  | cons accountId accounts ih =>
    obtain ⟨hs, hf⟩ := stopAccount_spec h accountId
    obtain ⟨hs', hf'⟩ := ih hs
    exact ⟨hs', hf.trans hf'⟩

theorem shutdown_spec {q : MarketBatchQueue E} (h : q.Sound) :
    q.shutdown.Sound ∧ q.Follows q.shutdown := by
  obtain ⟨hs, hf⟩ := stopAccounts_spec h q.active.keys
  obtain ⟨hs', hf'⟩ := sound_forget_previews hs (P := ∅) fun _ _ ht => by simp at ht
  exact ⟨hs', hf.trans hf'⟩

/-- A run resumes only at a promise it awaits. -/
theorem executed_spec {q q' : MarketBatchQueue E} (h : q.Sound) {jobId : Uuid}
    {outcome : Except ActionError MarketActionResult} (hq : q.executed jobId outcome = some q') :
    q'.Sound ∧ q.Follows q' := by
  unfold executed at hq
  obtain ⟨job, hj, hq⟩ := Option.bind_eq_some_iff.mp hq
  split at hq
  next i hi =>
    obtain rfl := Option.some.inj hq
    have hsus := (h.jobs jobId job hj).2.2
    obtain ⟨hs, he⟩ := Job.executed_spec q.now outcome hsus
    exact sound_put h hj (hsus.unfinished (by simp [hi])) hs he
  next => cases hq

theorem waited_spec {q q' : MarketBatchQueue E} (h : q.Sound) {jobId : Uuid} {resolved : Bool}
    (hq : q.waited jobId resolved = some q') : q'.Sound ∧ q.Follows q' := by
  unfold waited at hq
  obtain ⟨job, hj, hq⟩ := Option.bind_eq_some_iff.mp hq
  split at hq
  next i hi =>
    obtain rfl := Option.some.inj hq
    have hsus := (h.jobs jobId job hj).2.2
    obtain ⟨hs, he⟩ := Job.waited_spec q.now resolved hsus
    exact sound_put h hj (hsus.unfinished (by simp [hi])) hs he
  next => cases hq

/-- Every step keeps the queue sound and is followed by a later queue. -/
theorem next_spec {q q' : MarketBatchQueue E} (h : q.Sound) {a : QueueAction E}
    (hq : (queueMachine E).next q a = some q') : q'.Sound ∧ q.Follows q' := by
  cases a with
  | create => obtain rfl := Option.some.inj hq; exact create_spec h ..
  | confirm => obtain rfl := Option.some.inj hq; exact confirm_spec h ..
  | stop => obtain rfl := Option.some.inj hq; exact stop_spec h ..
  | stopAccount => obtain rfl := Option.some.inj hq; exact stopAccount_spec h _
  | shutdown => obtain rfl := Option.some.inj hq; exact shutdown_spec h
  | executed => exact executed_spec h hq
  | waited => exact waited_spec h hq
  | tick elapsed =>
    obtain rfl := Option.some.inj hq
    exact ⟨⟨h.jobs, h.active, h.previews⟩,
      ⟨Nat.le_add_right _ _, le_rfl, fun id job hid _ => ⟨job, hid, .refl _ _⟩,
        fun _ _ ht _ => ht⟩⟩

theorem sound_of_reachable {q : MarketBatchQueue E} (h : (queueMachine E).Reachable q) :
    q.Sound :=
  h.invariant (by rintro _ rfl; exact sound_empty) fun _ _ _ hs _ hn => (next_spec hs hn).1

/-- What holds between a reachable queue and every later one. -/
theorem follows_of_leads {q q' : MarketBatchQueue E} (hq : q.Sound)
    (h : (queueMachine E).Leads (fun _ _ => True) q q') : q'.Sound ∧ q.Follows q' :=
  h.keeps (I := fun q' => q'.Sound ∧ q.Follows q') ⟨hq, .refl q⟩ fun _ _ _ hi _ hn => by
    obtain ⟨hs, hf⟩ := next_spec hi.1 hn
    exact ⟨hs, hi.2.trans hf⟩

/-- Jobs known to `q` keep evolving in every later queue. -/
theorem Follows.job {q q' : MarketBatchQueue E} (hq : q.Sound) (h : q.Follows q') {id : Uuid}
    {job job' : Job E} (hj : q.jobs.lookup id = some job) (hj' : q'.jobs.lookup id = some job') :
    job.Evolves q.now job' := by
  obtain ⟨old, hold, he⟩ := h.jobs id job' hj' (hq.jobs id job hj).2.1
  obtain rfl : old = job := Option.some.inj (hold.symm.trans hj)
  exact he

abbrev Later (q q' : MarketBatchQueue E) : Prop := (queueMachine E).Leads (fun _ _ => True) q q'

/-- From `q` on no call of `execute` for job `id` begins. -/
def NoFurtherExecute (q : MarketBatchQueue E) (id : Uuid) : Prop :=
  ∀ q' job job', q.Later q' → q.jobs.lookup id = some job → q'.jobs.lookup id = some job' →
    job'.started = job.started

/-- From `q` on the preview with this token cannot be confirmed, by nobody. -/
def NeverConfirmed (q : MarketBatchQueue E) (token : Uuid) : Prop :=
  ∀ q', q.Later q' → ∀ accountId actor, ∃ e, (q'.confirm accountId actor token).1 = .error e

theorem noFurtherExecute_of_over {q : MarketBatchQueue E} (hq : q.Sound) {id : Uuid}
    (h : ∀ job, q.jobs.lookup id = some job → job.Over q.now) : q.NoFurtherExecute id := by
  intro q' job job' hl hj hj'
  obtain ⟨-, hf⟩ := follows_of_leads hq hl
  exact (hf.job hq hj hj').started_of_over (h job hj)

theorem neverConfirmed_of_absent {q : MarketBatchQueue E} (hq : q.Sound) {token : Uuid}
    (hlt : token < q.drawn) (h : q.previews.lookup token = none) : q.NeverConfirmed token := by
  intro q' hl accountId actor
  obtain ⟨-, hf⟩ := follows_of_leads hq hl
  cases ht : q'.previews.lookup token with
  | none =>
    simp only [confirm, ht]
    exact ⟨_, rfl⟩
  | some entry =>
    have hback := hf.previews token entry ht hlt
    simp [h] at hback

theorem over_stop {q : MarketBatchQueue E} {accountId : AccountId} {actor : Actor} {jobId : Uuid}
    {value : MarketBatchJob} (hok : (q.stop accountId actor jobId).1 = .ok value) {job : Job E}
    (hj : (q.stop accountId actor jobId).2.jobs.lookup jobId = some job) : job.Over q.now := by
  unfold stop at hok hj
  split at hj
  next e hget => rw [hget] at hok; cases hok
  next =>
    simp only [Table.lookup_modify, if_true, Option.map_eq_some_iff] at hj
    obtain ⟨old, -, rfl⟩ := hj
    split_ifs with hf
    · exact over_halt _ _ _
    · exact .inl (by simpa [Option.isSome_iff_ne_none] using hf)

theorem over_stopAccount {q : MarketBatchQueue E} (h : q.Sound) {accountId : AccountId} {id : Uuid}
    {job : Job E} (hj : (q.stopAccount accountId).jobs.lookup id = some job)
    (ha : job.accountId = accountId) : job.Over q.now := by
  by_cases hf : job.finishedAt = none
  · have hact : q.active.lookup accountId = some id :=
      ha ▸ (stopAccount_spec h accountId).1.active_of_unfinished hj hf
    simp only [stopAccount, hact, Table.lookup_modify, if_true, Option.map_eq_some_iff] at hj
    obtain ⟨old, -, rfl⟩ := hj
    exact over_halt _ _ _
  · exact .inl (Option.isSome_iff_ne_none.mpr hf)

theorem stopAccounts_frame (q : MarketBatchQueue E) (accounts : List AccountId) :
    (accounts.foldl stopAccount q).now = q.now ∧ (accounts.foldl stopAccount q).drawn = q.drawn ∧
      (accounts.foldl stopAccount q).active = q.active := by
  induction accounts generalizing q with
  | nil => exact ⟨rfl, rfl, rfl⟩
  | cons accountId accounts ih => exact ih (q.stopAccount accountId)

theorem over_stopAccounts {q : MarketBatchQueue E} (h : q.Sound) {accounts : List AccountId}
    {id : Uuid} {job : Job E} (hj : (accounts.foldl stopAccount q).jobs.lookup id = some job)
    (ha : job.accountId ∈ accounts) : job.Over q.now := by
  induction accounts generalizing q with
  | nil => cases ha
  | cons accountId accounts ih =>
    obtain ⟨hs, -⟩ := stopAccount_spec h accountId
    obtain ⟨hs', hf⟩ := stopAccounts_spec hs accounts
    rcases List.mem_cons.mp ha with ha | ha
    · have hlt : id < (q.stopAccount accountId).drawn :=
        (stopAccounts_frame (q.stopAccount accountId) accounts).2.1 ▸ (hs'.jobs id job hj).2.1
      obtain ⟨old, hold, he⟩ := hf.jobs id job hj hlt
      exact he.keeps_over le_rfl (over_stopAccount h hold (he.accountId.symm.trans ha))
    · have hover : job.Over (q.stopAccount accountId).now := ih hs hj ha
      exact hover

theorem over_shutdown {q : MarketBatchQueue E} (h : q.Sound) {id : Uuid} {job : Job E}
    (hj : q.shutdown.jobs.lookup id = some job) : job.Over q.now := by
  by_cases hf : job.finishedAt = none
  · have hact := (stopAccounts_spec h q.active.keys).1.active_of_unfinished hj hf
    rw [(stopAccounts_frame q q.active.keys).2.2] at hact
    refine over_stopAccounts h hj (AList.mem_keys.mpr ?_)
    exact AList.lookup_isSome.mp (by rw [hact]; rfl)
  · exact .inl (Option.isSome_iff_ne_none.mpr hf)

/-- An account gets an active job when one of its previews is confirmed. -/
theorem active_of_next {q q' : MarketBatchQueue E} (h : q.Sound) {a : QueueAction E}
    (hq : (queueMachine E).next q a = some q') {accountId : AccountId} {id : Uuid}
    (hactive : q'.active.lookup accountId = some id) :
    q.active.lookup accountId = some id ∨ ∃ actor token, a = .confirm accountId actor token := by
  have hput {jobId : Uuid} {job : Job E} (hput : (q.put jobId job).active.lookup accountId = some id) :
      q.active.lookup accountId = some id := by
    unfold put at hput
    dsimp only at hput
    split at hput
    next =>
      rw [Table.lookup_erase_eq] at hput
      split at hput
      next => cases hput
      next => exact hput
    next => exact hput
  cases a with
  | create other actor kind currency commands delaySeconds =>
    obtain rfl := Option.some.inj hq
    obtain ⟨-, -, -, -, hsame⟩ := prune_spec h
    refine .inl ?_
    unfold create at hactive
    split at hactive
    next => exact hactive
    next =>
      split at hactive
      next e p hp =>
        rw [hp] at hsame
        exact hsame ▸ hactive
      next p hp =>
        rw [hp] at hsame
        split at hactive
        next => exact hsame ▸ hactive
        next => exact hsame ▸ hactive
  | confirm other actor token =>
    by_cases hother : accountId = other
    · exact .inr ⟨actor, token, by rw [hother]⟩
    · obtain rfl := Option.some.inj hq
      refine .inl ?_
      obtain ⟨hs, -⟩ := sound_forget_previews h (P := q.previews.erase token) fun t entry ht => by
        rw [Table.lookup_erase_eq] at ht
        split_ifs at ht
        exact ht
      obtain ⟨-, -, -, -, hsame⟩ := prune_spec hs
      have hactive : (q.confirm other actor token).2.active.lookup accountId = some id := hactive
      unfold confirm at hactive
      split at hactive
      next => exact hactive
      next entry _ =>
        dsimp only at hactive
        split_ifs at hactive
        · exact hactive
        · exact hactive
        · exact hactive
        · split at hactive
          next => exact hactive
          next =>
            split at hactive
            next e p hp =>
              rw [hp] at hsame
              exact (congrArg (AList.lookup accountId) hsame).symm.trans hactive
            next p hp =>
              rw [hp] at hsame
              have hactive : (p.launch other actor entry).2.active.lookup accountId = some id := hactive
              rw [launch_active, if_neg hother] at hactive
              exact (congrArg (AList.lookup accountId) hsame).symm.trans hactive
  | stop other actor jobId =>
    obtain rfl := Option.some.inj hq
    refine .inl ?_
    unfold stop at hactive
    split at hactive
    · exact hactive
    · exact hactive
  | stopAccount => obtain rfl := Option.some.inj hq; exact .inl hactive
  | shutdown =>
    obtain rfl := Option.some.inj hq
    refine .inl ?_
    rw [← (stopAccounts_frame q q.active.keys).2.2]
    exact hactive
  | executed =>
    obtain ⟨job, -, hq⟩ := Option.bind_eq_some_iff.mp hq
    split at hq
    next =>
      obtain rfl := Option.some.inj hq
      exact .inl (hput hactive)
    next => cases hq
  | waited =>
    obtain ⟨job, -, hq⟩ := Option.bind_eq_some_iff.mp hq
    split at hq
    next =>
      obtain rfl := Option.some.inj hq
      exact .inl (hput hactive)
    next => cases hq
  | tick => obtain rfl := Option.some.inj hq; exact .inl hactive

/-- What the queue promises at every moment about all that may follow. -/
structure Safe (q : MarketBatchQueue E) : Prop where
  one_active : ∀ id₁ job₁ id₂ job₂, q.jobs.lookup id₁ = some job₁ → q.jobs.lookup id₂ = some job₂ →
    job₁.accountId = job₂.accountId → job₁.finishedAt = none → job₂.finishedAt = none → id₁ = id₂
  in_order : ∀ id job, q.jobs.lookup id = some job → job.started.Pairwise (· < ·)
  rows_move : ∀ q' id job job', q.Later q' → q.jobs.lookup id = some job →
    q'.jobs.lookup id = some job' → job.started <+: job'.started ∧
      ∀ (i : ℕ) (item' : MarketBatchJobItem), job'.value.items[i]? = some item' →
        ∃ item : MarketBatchJobItem, job.value.items[i]? = some item ∧
          item.status.Moves item'.status
  finished_fixed : ∀ q' id job job', q.Later q' → q.jobs.lookup id = some job →
    job.finishedAt.isSome = true → q'.jobs.lookup id = some job' → job' = job
  finished_closed : ∀ id job, q.jobs.lookup id = some job → job.finishedAt.isSome = true →
    (∀ accountId, q.active.lookup accountId ≠ some id) ∧
      (∀ item ∈ job.value.items, item.status.isOpen = false) ∧
      job.value.completedCount = job.value.items.countP fun item => !item.status.isOpen
  stop_final : ∀ accountId actor jobId value, (q.stop accountId actor jobId).1 = .ok value →
    (q.stop accountId actor jobId).2.NoFurtherExecute jobId
  stopAccount_final : ∀ accountId id job, q.jobs.lookup id = some job → job.accountId = accountId →
    (q.stopAccount accountId).NoFurtherExecute id
  shutdown_final : ∀ id, q.shutdown.NoFurtherExecute id
  deadline_final : ∀ id job, q.jobs.lookup id = some job → job.deadline ≤ q.now →
    q.NoFurtherExecute id
  previews_final : ∀ token entry, q.previews.lookup token = some entry →
    (q.stopAccount entry.accountId).NeverConfirmed token ∧ q.shutdown.NeverConfirmed token

/-- Every reachable queue is safe. -/
theorem safe_of_reachable {q : MarketBatchQueue E} (hq : (queueMachine E).Reachable q) :
    q.Safe := by
  have h := sound_of_reachable hq
  constructor
  · intro id₁ job₁ id₂ job₂ h₁ h₂ hacc hf₁ hf₂
    have ha₁ := h.active_of_unfinished h₁ hf₁
    have ha₂ := h.active_of_unfinished h₂ hf₂
    rw [hacc] at ha₁
    exact Option.some.inj (ha₁.symm.trans ha₂)
  · intro id job hj
    exact (h.jobs id job hj).2.2.ordered
  · intro q' id job job' hl hj hj'
    have he := (follows_of_leads h hl).2.job h hj hj'
    exact ⟨he.started, he.rows⟩
  · intro q' id job job' hl hj hf hj'
    exact ((follows_of_leads h hl).2.job h hj hj').finished hf
  · intro id job hj hf
    have hs := (h.jobs id job hj).2.2
    refine ⟨fun accountId ha => ?_, hs.closed hf, hs.counted⟩
    obtain ⟨job', hj', -, hf'⟩ := (h.active accountId id).mp ha
    obtain rfl : job' = job := Option.some.inj (hj'.symm.trans hj)
    simp [hf'] at hf
  · intro accountId actor jobId value hok
    obtain ⟨hs, hf⟩ := stop_spec h accountId actor jobId
    refine noFurtherExecute_of_over hs fun job hj => ?_
    exact (Job.Evolves.refl q.now job).keeps_over hf.now (over_stop hok hj)
  · rintro accountId id job hj rfl
    obtain ⟨hs, hf⟩ := stopAccount_spec h job.accountId
    refine noFurtherExecute_of_over hs fun job' hj' => ?_
    exact over_stopAccount h hj' (hf.job h hj hj').accountId
  · intro id
    have hnow := (stopAccounts_frame q q.active.keys).1
    refine noFurtherExecute_of_over (shutdown_spec h).1 fun job hj => ?_
    exact (Job.Evolves.refl q.now job).keeps_over hnow.ge (over_shutdown h hj)
  · intro id job hj hd
    refine noFurtherExecute_of_over h fun job' hj' => .inr ?_
    obtain rfl : job' = job := Option.some.inj (hj'.symm.trans hj)
    simp [Job.Halted, Job.shouldContinue, hd]
  · intro token entry ht
    have hlt := h.previews token entry ht
    obtain ⟨hs, hf⟩ := stopAccount_spec h entry.accountId
    obtain ⟨hs', hf'⟩ := shutdown_spec h
    refine ⟨neverConfirmed_of_absent hs (hlt.trans_le hf.drawn) ?_,
      neverConfirmed_of_absent hs' (hlt.trans_le hf'.drawn) (by simp [shutdown])⟩
    simp [stopAccount, Table.lookup_retain, ht, Option.filter]

def oneBatch : MarketBatchQueue Unit :=
  let row : MarketBatchPreviewItem :=
    { assetId := some "7", listingId := none, name := "Card", quantity := 1, buyerPays := some 15
      sellerReceives := some 13, steamFee := some 1, publisherFee := some 1, status := .ready
      message := none }
  let q := ((empty : MarketBatchQueue Unit).create "bee" "admin" .sale none [⟨row, some ()⟩] 5).2
  (q.confirm "bee" "admin" 0).2

theorem safe_oneBatch : oneBatch.Safe ∧ oneBatch.active.lookup "bee" = some 1 :=
  ⟨safe_of_reachable ⟨.empty, rfl, Machine.Leads.tail (Machine.Leads.tail (.refl _)
    (a := .create "bee" "admin" .sale none _ 5) trivial rfl)
    (a := .confirm "bee" "admin" 0) trivial rfl⟩, by decide⟩

end MarketBatchQueue
end SteamBee.Inventory
