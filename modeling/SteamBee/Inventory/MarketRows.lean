import SteamBee.Inventory.BatchSafety
import SteamBee.Inventory.MarketStep

/-! The rows that the runners of batches execute: each is called at most once. -/
namespace SteamBee.Inventory
variable {E : Type}

namespace Job
variable {now i : ℕ} {job : Job E}

/-- The loop of `run` stops at a row that it has just called. By induction on the rows. -/
theorem runRows_executing {rest : List (BatchCommand E)} {index : ℕ}
    (h : (job.runRows now rest index).suspension = .executing i) :
    (job.runRows now rest index).started = job.started ++ [i] := by
  induction rest generalizing index with
  | nil => cases h
  | cons command rest ih =>
    cases hexec : command.execute with
    | none =>
      simp only [runRows, hexec] at h ⊢
      exact ih h
    | some _ =>
      simp only [runRows, hexec] at h ⊢
      split_ifs at h ⊢
      · cases h
      · obtain rfl := Suspension.executing.inj h
        rfl
      · cases h

theorem executed_executing {j : ℕ} {outcome : Except ActionError MarketActionResult}
    (hj : job.suspension = .executing j)
    (h : (job.executed now outcome).suspension = .executing i) :
    (job.executed now outcome).started = job.started ++ [i] := by
  have hsettled : (job.settleRow now j outcome).started = job.started := by
    cases outcome <;> rfl
  unfold executed at h ⊢
  simp only [hj] at h ⊢
  split_ifs at h ⊢
  · cases h
  · rw [runRows_executing h, hsettled]

theorem waited_executing {j : ℕ} {resolved : Bool} (hj : job.suspension = .waiting j)
    (h : (job.waited now resolved).suspension = .executing i) :
    (job.waited now resolved).started = job.started ++ [i] := by
  unfold waited at h ⊢
  simp only [hj] at h ⊢
  split_ifs at h ⊢
  · obtain rfl := Suspension.executing.inj h
    rfl
  · cases h

/-- A row that is called now was not called before. -/
theorem Suspended.not_started {job' : Job E} (h : job'.Suspended)
    (hs : job'.started = job.started ++ [i]) : i ∉ job.started := by
  intro hi
  have hordered := hs ▸ h.ordered
  have hlt := (List.pairwise_append.mp hordered).2.2 i hi i (List.mem_singleton_self i)
  omega

end Job

namespace Market
variable {m m' : Market} {a : MarketAction} {k : OpId} {op' : Op} {jobId : Uuid} {index : ℕ}
  {intent : Intent}

theorem callRow_batches (n : Market) (jobId : Uuid) : (n.callRow jobId).batches = n.batches := by
  unfold callRow
  split
  next => rfl
  next => split <;> [split <;> rfl; rfl]

/-- A batch is confirmed where no price settings are being saved. -/
def Confirms (m : Market) (a : MarketAction) (b : QueueAction Intent) : Prop :=
  ∀ accountId actor token, b = .confirm accountId actor token →
    a = .confirmBatch accountId actor token ∧ accountId ∉ m.settingsWrites

theorem confirms_of_ne {b : QueueAction Intent}
    (h : ∀ accountId actor token, b ≠ .confirm accountId actor token) : m.Confirms a b :=
  fun accountId actor token hb => absurd hb (h accountId actor token)

/-- The batches take the steps of their queue. -/
theorem batches_of_next (h : marketMachine.next m a = some m') :
    m'.batches = m.batches ∨
      ∃ b, m.Confirms a b ∧ (queueMachine Intent).next m.batches b = some m'.batches := by
  have hidle (accountId : AccountId) (call : Call) :
      (m.callIdle accountId call).batches = m.batches := by
    unfold callIdle
    split <;> rfl
  cases a with
  | previewSale => obtain rfl := Option.some.inj h; exact .inl (hidle _ _)
  | confirmSale => obtain rfl := Option.some.inj h; exact .inl (hidle _ _)
  | previewCancellation => obtain rfl := Option.some.inj h; exact .inl (hidle _ _)
  | confirmCancellation => obtain rfl := Option.some.inj h; exact .inl (hidle _ _)
  | previewBatch => obtain rfl := Option.some.inj h; exact .inl (hidle _ _)
  | confirmBatch accountId actor token =>
    obtain rfl := Option.some.inj h
    unfold confirmBatch
    split_ifs with hwrites
    · exact .inl rfl
    · refine .inr ⟨.confirm accountId actor token, fun _ _ _ hb => ?_, ?_⟩
      · obtain ⟨rfl, rfl, rfl⟩ := QueueAction.confirm.inj hb
        exact ⟨rfl, hwrites⟩
      split
      next e batches hc => exact congrArg (fun x => some x.2) hc
      next job batches hc =>
        rw [callRow_batches]
        exact congrArg (fun x => some x.2) hc
  | stopBatch accountId actor jobId =>
    obtain rfl := Option.some.inj h
    exact .inr ⟨.stop accountId actor jobId, confirms_of_ne (by simp), rfl⟩
  | stopAccountBatches accountId =>
    obtain rfl := Option.some.inj h
    exact .inr ⟨.stopAccount accountId, confirms_of_ne (by simp), rfl⟩
  | shutdownBatches => obtain rfl := Option.some.inj h; exact .inr ⟨.shutdown, confirms_of_ne (by simp), rfl⟩
  | saveSettings =>
    obtain rfl := Option.some.inj h
    unfold callSaveSettings
    split_ifs <;> exact .inl rfl
  | inventory => obtain rfl := Option.some.inj h; exact .inl rfl
  | inventoryLoads id items =>
    obtain ⟨pending, -, h⟩ := Option.bind_eq_some_iff.mp h
    split_ifs at h
    obtain rfl := Option.some.inj h
    exact .inl rfl
  | inventoryFails => obtain rfl := Option.some.inj h; exact .inl rfl
  | run id =>
    have h : m.run id = some m' := h
    unfold run at h
    split at h
    next op accountId guard call ho =>
      split_ifs at h
      dsimp only at h
      obtain rfl := Option.some.inj h
      obtain ⟨p, n, hbegin⟩ : ∃ p n, m.begin ⟨accountId, guard, .queued call⟩ call = (p, n) :=
        ⟨_, _, rfl⟩
      rw [hbegin]
      obtain ⟨⟨intents, rfl⟩, -, hstarts⟩ := begin_opens hbegin
      cases p with
      | awaits => exact .inl rfl
      | returns => exact .inl rfl
      | _ => exact hstarts.elim
    next => cases h
  | reads id read =>
    have h : m.reads id read = some m' := h
    have hperform (n : Market) (op : Op) (p : Progress) (hn : n.batches = m.batches) :
        (n.perform id op p).batches = m.batches ∨
          ∃ b, m.Confirms (.reads id read) b ∧
            (queueMachine Intent).next m.batches b = some (n.perform id op p).batches := by
      cases p with
      | awaits | returns | issues | saves => exact .inl hn
      | creates kind currency commands delaySeconds draws =>
        unfold perform
        dsimp only
        split
        next e batches hc =>
          refine .inr ⟨.create op.accountId (Stage.batchActor op.stage) kind (some currency)
            commands delaySeconds, confirms_of_ne (by simp), ?_⟩
          rw [← hn]
          exact congrArg (fun x => some x.2) hc
        next preview batches hc =>
          refine .inr ⟨.create op.accountId (Stage.batchActor op.stage) kind (some currency)
            commands delaySeconds, confirms_of_ne (by simp), ?_⟩
          rw [← hn]
          exact congrArg (fun x => some x.2) hc
      | posts => unfold perform; dsimp only; split <;> exact .inl hn
      | answers => unfold perform; dsimp only; split <;> exact .inl hn
      | removes => unfold perform; dsimp only; split <;> exact .inl hn
    unfold reads at h
    split at h
    next op accountId guard r ho =>
      split at h
      next =>
        split_ifs at h
        obtain ⟨p, -, rfl⟩ := Option.map_eq_some_iff.mp h
        exact hperform _ _ p rfl
      next =>
        obtain ⟨p, -, rfl⟩ := Option.map_eq_some_iff.mp h
        exact hperform m _ p rfl
    next => cases h
  | rowReturns jobId =>
    obtain ⟨outcome, -, h⟩ := Option.bind_eq_some_iff.mp h
    obtain ⟨batches, hb, h⟩ := Option.bind_eq_some_iff.mp h
    obtain rfl := Option.some.inj h
    exact .inr ⟨.executed jobId outcome, confirms_of_ne (by simp), by rw [callRow_batches]; exact hb⟩
  | rowWaited jobId resolved =>
    obtain ⟨batches, hb, h⟩ := Option.bind_eq_some_iff.mp h
    obtain rfl := Option.some.inj h
    exact .inr ⟨.waited jobId resolved, confirms_of_ne (by simp), by rw [callRow_batches]; exact hb⟩
  | disappear accountId assetId count =>
    obtain ⟨l, -, rfl⟩ := Option.map_eq_some_iff.mp h
    exact .inl rfl
  | tick elapsed => obtain rfl := Option.some.inj h; exact .inr ⟨.tick elapsed, confirms_of_ne (by simp), rfl⟩

structure FirstCall (m m' : Market) (jobId : Uuid) (index : ℕ) : Prop where
  known : m.batches.drawn ≤ jobId ∨
    ∃ job, m.batches.jobs.lookup jobId = some job ∧ index ∉ job.started
  drawn : jobId < m'.batches.drawn
  started : ∀ job, m'.batches.jobs.lookup jobId = some job → index ∈ job.started

theorem lookup_callRow {n : Market} {j i : ℕ} (hk : (n.callRow jobId).ops.lookup k = some op')
    (hs : op'.stage = .queued (.row j i intent)) : n.ops.lookup k = some op' ∨
      j = jobId ∧ ∃ job, n.batches.jobs.lookup jobId = some job ∧ job.suspension = .executing i := by
  unfold callRow at hk
  split at hk
  next => exact .inl hk
  next job hjob =>
    split at hk
    next index hsus =>
      split at hk
      next intent' _ =>
        have hk : (n.ops.insert n.drawn ⟨intent'.accountId, .job jobId,
            .queued (.row jobId index intent')⟩).lookup k = some op' := hk
        rw [Table.lookup_insert_eq] at hk
        split_ifs at hk
        · obtain rfl := Option.some.inj hk
          obtain ⟨rfl, rfl, -⟩ : jobId = j ∧ index = i ∧ intent' = intent := by simpa using hs
          exact .inr ⟨rfl, job, hjob, hsus⟩
        · exact .inl hk
      next => exact .inl hk
    next => exact .inl hk

theorem lookup_put {q : MarketBatchQueue Intent} {job job' : Job Intent}
    (hjob : q.jobs.lookup jobId = some job') : (q.put jobId job).jobs.lookup jobId = some job := by
  simp [MarketBatchQueue.put, Table.lookup_modify, hjob]

/-- The job that a confirmed batch starts. -/
theorem confirm_job {q q' : MarketBatchQueue Intent} {accountId : AccountId} {actor : Actor}
    {token : Uuid} {value : MarketBatchJob}
    (h : q.confirm accountId actor token = (.ok value, q')) : value.id = q.drawn ∧
      ∀ job i, q'.jobs.lookup q.drawn = some job → job.suspension = .executing i →
        i ∈ job.started := by
  have hlaunch (p : MarketBatchQueue Intent) (entry : Prepared Intent) (hp : p.drawn = q.drawn)
      (hv : ((p.launch accountId actor entry).1.value, (p.launch accountId actor entry).2) =
        (value, q')) : value.id = q.drawn ∧ ∀ job i, q'.jobs.lookup q.drawn = some job →
          job.suspension = .executing i → i ∈ job.started := by
    obtain ⟨rfl, rfl⟩ := Prod.ext_iff.mp hv
    refine ⟨?_, fun job i hjob hs => ?_⟩
    · have he := (Job.runRows_spec p.now (MarketBatchQueue.between_newJob p accountId actor entry)
        (show entry.commands = _ from rfl)).2
      exact he.id.trans hp
    · rw [← hp] at hjob
      have hnew : (p.jobs.insert p.drawn (p.newJob accountId actor entry)).lookup p.drawn =
          some (p.newJob accountId actor entry) := by
        rw [AList.lookup_insert]
      have hput : (p.launch accountId actor entry).2.jobs.lookup p.drawn =
          some ((p.newJob accountId actor entry).runRows p.now entry.commands 0) :=
        lookup_put hnew
      obtain rfl := Option.some.inj (hput.symm.trans hjob)
      rw [Job.runRows_executing hs]
      exact List.mem_append_right _ (List.mem_singleton_self i)
  unfold MarketBatchQueue.confirm at h
  split at h
  next => cases h
  next entry _ =>
    dsimp only at h
    split_ifs at h
    · cases h
    · cases h
    · cases h
    split at h
    next => cases h
    next =>
      split at h
      next => cases h
      next p hp =>
        refine hlaunch p entry ?_ (Prod.ext (Except.ok.inj (Prod.ext_iff.mp h).1)
          (Prod.ext_iff.mp h).2)
        rw [show p = _ from (congrArg Prod.snd hp).symm]
        unfold MarketBatchQueue.prune
        dsimp only
        split_ifs <;> rfl

/-- A job of the queue has called a row. -/
theorem firstCall_put {q q' : MarketBatchQueue Intent} {job job' : Job Intent}
    (hq : m.batches = q) (hq' : m'.batches = q') (hs : q'.Sound)
    (hjob : q.jobs.lookup jobId = some job) (hjob' : q'.jobs.lookup jobId = some job')
    (hstarted : job'.started = job.started ++ [index]) : FirstCall m m' jobId index := by
  obtain ⟨-, hlt, hsus⟩ := hs.jobs jobId job' hjob'
  refine ⟨.inr ⟨job, hq ▸ hjob, hsus.not_started hstarted⟩, hq' ▸ hlt, fun job'' hj => ?_⟩
  rw [hq'] at hj
  obtain rfl := Option.some.inj (hjob'.symm.trans hj)
  rw [hstarted]
  exact List.mem_append_right _ (List.mem_singleton_self index)

/-- Every row is called at most once. -/
theorem rows_of_next (hs : m.batches.Sound) (h : marketMachine.next m a = some m')
    (hk : m'.ops.lookup k = some op') (hstage : op'.stage = .queued (.row jobId index intent)) :
    m.ops.lookup k = some op' ∨ FirstCall m m' jobId index := by
  rcases (steps_of_next h).ops k op' hk with hsame | ⟨call, -, -, hop, hrow⟩ |
    ⟨_, _, _, _, _, _, _, rfl⟩ | ⟨_, _, _, _, _, _, _, rfl⟩ | ⟨_, _, _, _, _, _, _, _, _, _, rfl⟩ | ⟨_, _, _, _, _, _, _, rfl⟩
  · exact .inl hsame
  · obtain rfl : call = .row jobId index intent := by simpa [hop] using hstage
    cases a with
    | confirmBatch accountId actor token =>
      obtain rfl := Option.some.inj h
      unfold confirmBatch at hk ⊢
      split_ifs at hk ⊢
      · exact .inl hk
      · split at hk
        next => exact .inl hk
        next value batches hc =>
          rcases lookup_callRow hk hop with hk | ⟨rfl, job, hjob, hsus⟩
          · exact .inl hk
          · obtain ⟨hid, hstarted⟩ := confirm_job hc
            have hs' : batches.Sound := by
              have hsound := (MarketBatchQueue.confirm_spec hs accountId actor token).1
              rwa [hc] at hsound
            have hb : ({ m with batches }.callRow value.id).batches = batches :=
              callRow_batches _ _
            refine .inr ⟨.inl hid.ge, ?_, fun job' hj => ?_⟩
            · rw [hb]
              exact (hs'.jobs _ job hjob).2.1
            · rw [hb] at hj
              obtain rfl := Option.some.inj (hjob.symm.trans hj)
              exact hstarted job index (hid ▸ hjob) hsus
    | rowReturns id =>
      obtain ⟨outcome, -, h⟩ := Option.bind_eq_some_iff.mp h
      obtain ⟨batches, hb, h⟩ := Option.bind_eq_some_iff.mp h
      obtain rfl := Option.some.inj h
      rcases lookup_callRow hk hop with hk | ⟨rfl, job', hjob', hsus⟩
      · exact .inl hk
      · have hs' : batches.Sound := (MarketBatchQueue.executed_spec hs hb).1
        obtain ⟨job, hjob, hb⟩ := Option.bind_eq_some_iff.mp hb
        split at hb
        next j hj =>
          obtain rfl := Option.some.inj hb
          obtain rfl := Option.some.inj ((lookup_put hjob).symm.trans hjob')
          exact .inr (firstCall_put rfl (callRow_batches _ _) hs' hjob hjob'
            (Job.executed_executing hj hsus))
        next => cases hb
    | rowWaited id resolved =>
      obtain ⟨batches, hb, h⟩ := Option.bind_eq_some_iff.mp h
      obtain rfl := Option.some.inj h
      rcases lookup_callRow hk hop with hk | ⟨rfl, job', hjob', hsus⟩
      · exact .inl hk
      · have hs' : batches.Sound := (MarketBatchQueue.waited_spec hs hb).1
        obtain ⟨job, hjob, hb⟩ := Option.bind_eq_some_iff.mp hb
        split at hb
        next j hj =>
          obtain rfl := Option.some.inj hb
          obtain rfl := Option.some.inj ((lookup_put hjob).symm.trans hjob')
          exact .inr (firstCall_put rfl (callRow_batches _ _) hs' hjob hjob'
            (Job.waited_executing hj hsus))
        next => cases hb
    | _ => cases hrow rfl
  · cases hstage
  · cases hstage
  · cases hstage
  · cases hstage

end Market
end SteamBee.Inventory
