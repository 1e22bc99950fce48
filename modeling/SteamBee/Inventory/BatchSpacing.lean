import SteamBee.Data.History
import SteamBee.Inventory.BatchSafety

/-! What the run of a job does in time: between a row that may have submitted something to
Steam and the next one that is executed lies a completed wait, and a row that stops the batch
is the last one. -/
namespace SteamBee.Inventory
open Transition
variable {E : Type}

inductive RowEvent where
  | began (index : ℕ)
  | settled (index : ℕ) (outcome : Except ActionError MarketActionResult)
  | waits (milliseconds : ℕ)
  | waited

/-- A result, or an error that is not marked as not submitted. -/
def maySubmit : Except ActionError MarketActionResult → Bool
  | .ok _ => true
  | .error detail => !detail.notSubmitted

def stopsBatch : Except ActionError MarketActionResult → Bool
  | .ok _ => false
  | .error detail => detail.stopBatch || detail.statusCode == some 429

namespace RowEvent

/-- A row may have submitted something, and no wait has been completed since. -/
def owesWait : List RowEvent → Bool
  | [] => false
  | .settled _ outcome :: older => maySubmit outcome || owesWait older
  | .waited :: _ => false
  | _ :: older => owesWait older

def begun : RowEvent → Option ℕ
  | .began index => some index
  | _ => none

def isStopped (events : List RowEvent) : Bool :=
  events.any fun
    | .settled _ outcome => stopsBatch outcome
    | _ => false

def Spaced (delaySeconds : ℕ) : RowEvent → List RowEvent → Prop
  | .began _, older => owesWait older = false ∧ isStopped older = false
  | .settled index _, older => older.head? = some (.began index)
  | .waits milliseconds, _ => milliseconds = delaySeconds * 1000
  | .waited, older => older.head? = some (.waits (delaySeconds * 1000))

end RowEvent

namespace Job

def called (now : ℕ) (job : Job E) : List RowEvent :=
  match job.suspension with
  | .executing index => [.began index]
  | .waiting _ => [.waits (job.value.nextActionAt.getD 0 - now)]
  | .done => []

structure Logged (job : Job E) (events : List RowEvent) : Prop where
  spaced : History.Each (RowEvent.Spaced job.delaySeconds) events
  executing : ∀ index, job.suspension = .executing index →
    events.head? = some (.began index) ∧ RowEvent.owesWait events = false
  waiting : ∀ index, job.suspension = .waiting index →
    events.head? = some (.waits (job.delaySeconds * 1000))
  continuing : job.suspension ≠ .done → RowEvent.isStopped events = false
  started : job.started = (events.filterMap RowEvent.begun).reverse

/-- What a segment of a run leaves of a job, and where the run stands then. -/
structure Segment (now : ℕ) (job next : Job E) : Prop where
  delaySeconds : next.delaySeconds = job.delaySeconds
  executing : ∀ index, next.suspension = .executing index → job.submitted = false
  waiting : ∀ index, next.suspension = .waiting index →
    next.value.nextActionAt = some (now + job.delaySeconds * 1000)
  started : next.started = job.started ++ ((next.called now).filterMap RowEvent.begun).reverse

theorem segment_finish (now : ℕ) (job : Job E) : Segment now job (job.finish now) :=
  ⟨rfl, fun _ h => (by cases h), fun _ h => (by cases h), (List.append_nil _).symm⟩

theorem segment_runRows (now : ℕ) (rest : List (BatchCommand E)) (index : ℕ) (job : Job E) :
    Segment now job (job.runRows now rest index) := by
  induction rest generalizing index with
  | nil => exact segment_finish now job
  | cons command rest ih =>
    unfold runRows
    split
    next => exact ih (index + 1)
    next =>
      split_ifs with hgo hsubmitted
      · exact ⟨rfl, fun _ h => (by cases h), fun _ _ => rfl, (List.append_nil _).symm⟩
      · exact ⟨rfl, fun _ _ => by simpa using hsubmitted, fun _ h => (by cases h), rfl⟩
      · exact ⟨rfl, fun _ h => (by cases h), fun _ h => (by cases h), (List.append_nil _).symm⟩

/-- A segment of a run that owes no wait unless it was submitted. -/
theorem Segment.logged {now : ℕ} {job next : Job E} {events : List RowEvent}
    (h : Segment now job next)
    (hspaced : History.Each (RowEvent.Spaced job.delaySeconds) events)
    (howes : job.submitted = false → RowEvent.owesWait events = false)
    (hgoes : next.suspension ≠ .done → RowEvent.isStopped events = false)
    (hstarted : job.started = (events.filterMap RowEvent.begun).reverse) :
    next.Logged (next.called now ++ events) := by
  have hstarted : next.started =
      ((next.called now ++ events).filterMap RowEvent.begun).reverse := by
    rw [h.started, hstarted, List.filterMap_append, List.reverse_append]
  cases hsus : next.suspension with
  | executing index =>
    have howes := howes (h.executing index hsus)
    have hgoes := hgoes (by simp [hsus])
    simp only [called, hsus, List.cons_append, List.nil_append] at hstarted ⊢
    constructor
    case started => exact hstarted
    case spaced => exact h.delaySeconds ▸ ⟨⟨howes, hgoes⟩, hspaced⟩
    case executing =>
      intro _ h
      rw [hsus] at h
      obtain rfl := Suspension.executing.inj h
      exact ⟨rfl, howes⟩
    case waiting => intro _ h; rw [hsus] at h; cases h
    case continuing => exact fun _ => hgoes
  | waiting index =>
    have hgoes := hgoes (by simp [hsus])
    have hdelay : next.value.nextActionAt.getD 0 - now = next.delaySeconds * 1000 := by
      rw [h.waiting index hsus, h.delaySeconds, Option.getD_some, Nat.add_sub_cancel_left]
    simp only [called, hsus, hdelay, List.cons_append, List.nil_append] at hstarted ⊢
    constructor
    case started => exact hstarted
    case spaced => exact ⟨rfl, h.delaySeconds ▸ hspaced⟩
    case executing => intro _ h; rw [hsus] at h; cases h
    case waiting => exact fun _ _ => rfl
    case continuing => exact fun _ => hgoes
  | done =>
    simp only [called, hsus, List.nil_append] at hstarted ⊢
    constructor
    case started => exact hstarted
    case spaced => exact h.delaySeconds ▸ hspaced
    case executing => intro _ h; rw [hsus] at h; cases h
    case waiting => intro _ h; rw [hsus] at h; cases h
    case continuing => intro h; exact absurd hsus h

theorem submitted_settleRow (now index : ℕ) (outcome : Except ActionError MarketActionResult)
    (job : Job E) : (job.settleRow now index outcome).submitted = maySubmit outcome := by
  cases outcome <;> rfl

theorem delaySeconds_settleRow (now index : ℕ) (outcome : Except ActionError MarketActionResult)
    (job : Job E) : (job.settleRow now index outcome).delaySeconds = job.delaySeconds := by
  cases outcome <;> rfl

theorem started_settleRow (now index : ℕ) (outcome : Except ActionError MarketActionResult)
    (job : Job E) : (job.settleRow now index outcome).started = job.started := by
  cases outcome <;> rfl

theorem stopRequested_settleRow {now index : ℕ} {outcome : Except ActionError MarketActionResult}
    {job : Job E} (h : stopsBatch outcome = true) :
    (job.settleRow now index outcome).value.stopRequested = true := by
  cases outcome with
  | ok => cases h
  | error detail =>
    simp only [stopsBatch, Bool.or_eq_true] at h
    rcases h with h | h
    · simp [settleRow, h]
    · simp only [settleRow, h, Bool.or_true]

/-- The execution of a row settles. -/
theorem Logged.executed {now index : ℕ} {outcome : Except ActionError MarketActionResult}
    {job : Job E} {events : List RowEvent} (h : job.Logged events)
    (hsus : job.suspension = .executing index) : (job.executed now outcome).Logged
      ((job.executed now outcome).called now ++ .settled index outcome :: events) := by
  obtain ⟨hhead, howes⟩ := h.executing index hsus
  have hgoes := h.continuing (by simp [hsus])
  have hspaced : History.Each (RowEvent.Spaced job.delaySeconds) (.settled index outcome :: events) :=
    ⟨hhead, h.spaced⟩
  have hstarted : (job.settleRow now index outcome).started =
      ((.settled index outcome :: events).filterMap RowEvent.begun).reverse := by
    rw [started_settleRow]
    exact h.started
  unfold Job.executed
  rw [hsus]
  dsimp only
  split_ifs with hstop
  · apply (segment_finish ..).logged
    · rwa [delaySeconds_settleRow]
    · intro hsub
      rw [submitted_settleRow] at hsub
      simp [RowEvent.owesWait, hsub, howes]
    · intro h
      exact absurd rfl h
    · exact hstarted
  · apply (segment_runRows ..).logged
    · rwa [delaySeconds_settleRow]
    · intro hsub
      rw [submitted_settleRow] at hsub
      simp [RowEvent.owesWait, hsub, howes]
    · intro _
      have hnot : stopsBatch outcome = false := by
        by_contra hstops
        exact hstop (stopRequested_settleRow (by simpa using hstops))
      simpa [RowEvent.isStopped, hnot] using hgoes
    · exact hstarted

/-- The wait before a row settles. -/
theorem Logged.waited {now index : ℕ} {resolved : Bool} {job : Job E} {events : List RowEvent}
    (h : job.Logged events) (hsus : job.suspension = .waiting index) :
    (job.waited now resolved).Logged ((job.waited now resolved).called now ++
      ((if resolved then [.waited] else []) ++ events)) := by
  have hhead := h.waiting index hsus
  have hgoes := h.continuing (by simp [hsus])
  unfold Job.waited
  rw [hsus]
  dsimp only
  cases resolved with
  | true =>
    have hspaced : History.Each (RowEvent.Spaced job.delaySeconds) (.waited :: events) :=
      ⟨hhead, h.spaced⟩
    simp only [Bool.true_and, ↓reduceIte, List.cons_append, List.nil_append]
    split_ifs with hgo
    · constructor
      case spaced => exact ⟨⟨rfl, hgoes⟩, hspaced⟩
      case executing =>
        intro _ h
        obtain rfl := Suspension.executing.inj h
        exact ⟨rfl, rfl⟩
      case waiting => intro _ h; cases h
      case continuing => exact fun _ => hgoes
      case started =>
        show job.started ++ [index] = _
        rw [h.started]
        exact (List.reverse_cons ..).symm
    · exact ⟨hspaced, fun _ h => (by cases h), fun _ h => (by cases h), fun h => absurd rfl h,
        h.started⟩
  | false =>
    simp only [Bool.false_and, Bool.false_eq_true, ↓reduceIte, List.nil_append]
    exact ⟨h.spaced, fun _ h => (by cases h), fun _ h => (by cases h), fun h => absurd rfl h,
      h.started⟩

/-- A stop asks for the end of a run, but the run stands where it stood. -/
structure Stands (job next : Job E) : Prop where
  suspension : next.suspension = job.suspension
  submitted : next.submitted = job.submitted
  delaySeconds : next.delaySeconds = job.delaySeconds
  started : next.started = job.started

theorem Stands.refl (job : Job E) : job.Stands job := ⟨rfl, rfl, rfl, rfl⟩

theorem Stands.logged {job next : Job E} {events : List RowEvent} (h : job.Stands next)
    (hl : job.Logged events) : next.Logged events := by
  constructor
  case spaced => exact h.delaySeconds ▸ hl.spaced
  case executing => exact h.suspension ▸ hl.executing
  case waiting => exact h.suspension ▸ h.delaySeconds ▸ hl.waiting
  case continuing => exact h.suspension ▸ hl.continuing
  case started => exact h.started.trans hl.started

end Job

namespace MarketBatchQueue
variable {q q' : MarketBatchQueue E} {a : QueueAction E} {id : Uuid} {job job' : Job E}

/-- The job whose run an action resumes or starts, and what it brings to the run. -/
def resumes (q : MarketBatchQueue E) : QueueAction E → Option (Uuid × List RowEvent)
  | .confirm _ _ _ => some (q.drawn, [])
  | .executed jobId outcome =>
    match (q.jobs.lookup jobId).map Job.suspension with
    | some (.executing index) => some (jobId, [.settled index outcome])
    | _ => none
  | .waited jobId resolved => some (jobId, if resolved then [.waited] else [])
  | _ => none

def noteRows (log : Table Uuid (List RowEvent)) (q : MarketBatchQueue E) (a : QueueAction E) :
    Table Uuid (List RowEvent) :=
  match (queueMachine E).next q a, q.resumes a with
  | some q', some (id, events) =>
    log.insert id (((q'.jobs.lookup id).map (Job.called q'.now)).getD [] ++
      (events ++ (log.lookup id).getD []))
  | _, _ => log

/-- How an action leaves a job: as it was, asked to stop, or after a segment of its run. -/
inductive JobChange (q : MarketBatchQueue E) (a : QueueAction E) (id : Uuid) (job' : Job E) : Prop
  | halts (job : Job E) (hjob : q.jobs.lookup id = some job)
      (hnext : job' = job ∨ job' = halt q.now job) (hother : ∀ events, q.resumes a ≠ some (id, events))
  | launched (p : MarketBatchQueue E) (accountId : AccountId) (actor : Actor) (entry : Prepared E)
      (hnow : p.now = q.now) (hid : id = q.drawn) (hresumes : q.resumes a = some (id, []))
      (hnext : job' = (p.launch accountId actor entry).1)
  | executed (job : Job E) (index : ℕ) (outcome : Except ActionError MarketActionResult)
      (hjob : q.jobs.lookup id = some job) (hsus : job.suspension = .executing index)
      (hresumes : q.resumes a = some (id, [.settled index outcome]))
      (hnext : job' = job.executed q.now outcome)
  | waited (job : Job E) (index : ℕ) (resolved : Bool)
      (hjob : q.jobs.lookup id = some job) (hsus : job.suspension = .waiting index)
      (hresumes : q.resumes a = some (id, if resolved then [.waited] else []))
      (hnext : job' = job.waited q.now resolved)

theorem prune_jobs (h : q.prune.2.jobs.lookup id = some job) : q.jobs.lookup id = some job := by
  unfold prune at h
  dsimp only at h
  split_ifs at h
  · exact (Table.lookup_of_retain h).1
  · exact (Table.lookup_of_retain h).1

theorem create_jobs {accountId : AccountId} {actor : Actor} {kind : MarketKind}
    {currency : Option MarketCurrency} {commands : List (BatchCommand E)} {delaySeconds : ℕ}
    (h : (q.create accountId actor kind currency commands delaySeconds).2.jobs.lookup id = some job) :
    q.jobs.lookup id = some job := by
  unfold create at h
  split at h
  next => exact h
  next =>
    split at h
    next e p hp => exact prune_jobs (hp ▸ h)
    next p hp =>
      split_ifs at h
      · exact prune_jobs (hp ▸ h)
      · exact prune_jobs (hp ▸ h)

theorem launch_jobs {accountId : AccountId} {actor : Actor} {entry : Prepared E}
    (h : (q.launch accountId actor entry).2.jobs.lookup id = some job) :
    q.jobs.lookup id = some job ∨ id = q.drawn ∧ job = (q.launch accountId actor entry).1 := by
  simp only [launch, put, Table.lookup_modify, Table.lookup_insert_eq] at h
  split_ifs at h with hid
  · exact .inr ⟨hid, (Option.some.inj h).symm⟩
  · exact .inl h

theorem prune_now (q : MarketBatchQueue E) : q.prune.2.now = q.now ∧ q.prune.2.drawn = q.drawn := by
  unfold prune
  dsimp only
  split_ifs
  · exact ⟨rfl, rfl⟩
  · exact ⟨rfl, rfl⟩

theorem confirm_jobs {accountId : AccountId} {actor : Actor} {token : Uuid}
    (h : (q.confirm accountId actor token).2.jobs.lookup id = some job) :
    q.jobs.lookup id = some job ∨ id = q.drawn ∧ ∃ (p : MarketBatchQueue E) (entry : Prepared E),
      p.now = q.now ∧ job = (p.launch accountId actor entry).1 := by
  unfold confirm at h
  split at h
  next => exact .inl h
  next entry _ =>
    dsimp only at h
    split_ifs at h
    · exact .inl h
    · exact .inl h
    · exact .inl h
    · split at h
      next => exact .inl h
      next =>
        obtain ⟨hnow, hdrawn⟩ := prune_now { q with previews := q.previews.erase token }
        split at h
        next e p hp => exact .inl (prune_jobs (q := { q with previews := q.previews.erase token })
          (hp ▸ h))
        next p hp =>
          rw [hp] at hnow hdrawn
          rcases launch_jobs h with hold | ⟨hid, hjob⟩
          · exact .inl (prune_jobs (q := { q with previews := q.previews.erase token }) (hp ▸ hold))
          · exact .inr ⟨hid.trans hdrawn, p, entry, hnow, hjob⟩

theorem stop_jobs {accountId : AccountId} {actor : Actor} {jobId : Uuid}
    (h : (q.stop accountId actor jobId).2.jobs.lookup id = some job') :
    ∃ job, q.jobs.lookup id = some job ∧ (job' = job ∨ job' = halt q.now job) := by
  unfold stop at h
  split at h
  next => exact ⟨job', h, .inl rfl⟩
  next =>
    simp only [Table.lookup_modify] at h
    split_ifs at h with hid
    · obtain ⟨job, hjob, rfl⟩ := Option.map_eq_some_iff.mp h
      refine ⟨job, hid ▸ hjob, ?_⟩
      split_ifs
      · exact .inr rfl
      · exact .inl rfl
    · exact ⟨job', h, .inl rfl⟩

theorem stopAccount_jobs {accountId : AccountId}
    (h : (q.stopAccount accountId).jobs.lookup id = some job') :
    ∃ job, q.jobs.lookup id = some job ∧ (job' = job ∨ job' = halt q.now job) := by
  unfold stopAccount at h
  dsimp only at h
  split at h
  next => exact ⟨job', h, .inl rfl⟩
  next jobId _ =>
    simp only [Table.lookup_modify] at h
    split_ifs at h with hid
    · obtain ⟨job, hjob, rfl⟩ := Option.map_eq_some_iff.mp h
      exact ⟨job, hid ▸ hjob, .inr rfl⟩
    · exact ⟨job', h, .inl rfl⟩

theorem stopAccount_now (q : MarketBatchQueue E) (accountId : AccountId) :
    (q.stopAccount accountId).now = q.now := rfl

theorem stopAccounts_jobs {accounts : List AccountId}
    (h : (accounts.foldl stopAccount q).jobs.lookup id = some job') :
    ∃ job, q.jobs.lookup id = some job ∧ (job' = job ∨ job' = halt q.now job) := by
  induction accounts generalizing q with
  | nil => exact ⟨job', h, .inl rfl⟩
  | cons accountId accounts ih =>
    obtain ⟨mid, hmid, hlast⟩ := ih h
    obtain ⟨job, hjob, hfirst⟩ := stopAccount_jobs hmid
    rw [stopAccount_now] at hlast
    refine ⟨job, hjob, ?_⟩
    rcases hfirst with rfl | rfl
    · exact hlast
    · rcases hlast with rfl | rfl
      · exact .inr rfl
      · exact .inr rfl

theorem put_jobs {jobId : Uuid} {next : Job E} (h : (q.put jobId next).jobs.lookup id = some job')
    (hid : id ≠ jobId) : q.jobs.lookup id = some job' := by
  simp only [put, Table.lookup_modify, if_neg hid] at h
  exact h

theorem put_job {next : Job E} (h : (q.put id next).jobs.lookup id = some job') : job' = next := by
  simp only [put, Table.lookup_modify, ↓reduceIte] at h
  obtain ⟨-, -, rfl⟩ := Option.map_eq_some_iff.mp h
  rfl

/-- What a step does to a job that is there after it. -/
theorem jobChange_of_next (hs : q.Sound) (hn : (queueMachine E).next q a = some q')
    (h : q'.jobs.lookup id = some job') : JobChange q a id job' := by
  cases a with
  | create =>
    obtain rfl := Option.some.inj hn
    exact .halts job' (create_jobs h) (.inl rfl) fun _ he => by cases he
  | confirm =>
    obtain rfl := Option.some.inj hn
    rcases confirm_jobs h with hold | ⟨hid, p, entry, hnow, hjob⟩
    · refine .halts job' hold (.inl rfl) fun _ he => ?_
      have hlt := (hs.jobs id job' hold).2.1
      obtain ⟨rfl, -⟩ := Prod.mk.inj (Option.some.inj he)
      exact absurd hlt (lt_irrefl _)
    · exact .launched p _ _ entry hnow hid (hid ▸ rfl) hjob
  | stop =>
    obtain rfl := Option.some.inj hn
    obtain ⟨job, hjob, hnext⟩ := stop_jobs h
    exact .halts job hjob hnext fun _ he => by cases he
  | stopAccount =>
    obtain rfl := Option.some.inj hn
    obtain ⟨job, hjob, hnext⟩ := stopAccount_jobs h
    exact .halts job hjob hnext fun _ he => by cases he
  | shutdown =>
    obtain rfl := Option.some.inj hn
    obtain ⟨job, hjob, hnext⟩ := stopAccounts_jobs h
    exact .halts job hjob hnext fun _ he => by cases he
  | executed jobId outcome =>
    obtain ⟨job, hjob, hn⟩ := Option.bind_eq_some_iff.mp hn
    split at hn
    next index hsus =>
      obtain rfl := Option.some.inj hn
      have hres : q.resumes (.executed jobId outcome) = some (jobId, [.settled index outcome]) := by
        simp [resumes, hjob, hsus]
      by_cases hid : id = jobId
      · subst hid
        exact .executed job index outcome hjob hsus hres (put_job h)
      · refine .halts job' (put_jobs h hid) (.inl rfl) fun _ he => ?_
        rw [hres] at he
        exact hid (Prod.mk.inj (Option.some.inj he)).1.symm
    next => cases hn
  | waited jobId resolved =>
    obtain ⟨job, hjob, hn⟩ := Option.bind_eq_some_iff.mp hn
    split at hn
    next index hsus =>
      obtain rfl := Option.some.inj hn
      by_cases hid : id = jobId
      · subst hid
        exact .waited job index resolved hjob hsus rfl (put_job h)
      · refine .halts job' (put_jobs h hid) (.inl rfl) fun _ he => ?_
        exact hid (Prod.mk.inj (Option.some.inj he)).1.symm
    next => cases hn
  | tick =>
    obtain rfl := Option.some.inj hn
    exact .halts job' h (.inl rfl) fun _ he => by cases he

inductive JobStep (q : MarketBatchQueue E) (a : QueueAction E) (id : Uuid) (job' : Job E) : Prop
  | stands (job : Job E) (hjob : q.jobs.lookup id = some job) (hstands : job.Stands job')
      (hother : ∀ events, q.resumes a ≠ some (id, events))
  | launched (job : Job E) (hid : id = q.drawn) (hresumes : q.resumes a = some (id, []))
      (hsubmitted : job.submitted = false) (hstarted : job.started = [])
      (hsegment : Job.Segment q.now job job')
  | executed (job : Job E) (index : ℕ) (outcome : Except ActionError MarketActionResult)
      (hjob : q.jobs.lookup id = some job) (hsus : job.suspension = .executing index)
      (hresumes : q.resumes a = some (id, [.settled index outcome]))
      (hnext : job' = job.executed q.now outcome)
  | waited (job : Job E) (index : ℕ) (resolved : Bool)
      (hjob : q.jobs.lookup id = some job) (hsus : job.suspension = .waiting index)
      (hresumes : q.resumes a = some (id, if resolved then [.waited] else []))
      (hnext : job' = job.waited q.now resolved)

theorem JobChange.jobStep (h : JobChange q a id job') : JobStep q a id job' := by
  cases h with
  | halts job hjob hnext hother =>
    refine .stands job hjob ?_ hother
    rcases hnext with rfl | rfl
    · exact .refl job'
    · exact ⟨rfl, rfl, rfl, rfl⟩
  | launched p accountId actor entry hnow hid hresumes hnext =>
    subst hnext
    exact .launched (p.newJob accountId actor entry) hid hresumes rfl rfl
      (hnow ▸ Job.segment_runRows ..)
  | executed job index outcome hjob hsus hresumes hnext =>
    exact .executed job index outcome hjob hsus hresumes hnext
  | waited job index resolved hjob hsus hresumes hnext =>
    exact .waited job index resolved hjob hsus hresumes hnext

structure Recorded (s : MarketBatchQueue E × Table Uuid (List RowEvent)) : Prop where
  sound : s.1.Sound
  jobs : ∀ id job, s.1.jobs.lookup id = some job → job.Logged ((s.2.lookup id).getD [])
  fresh : ∀ id, s.1.drawn ≤ id → (s.2.lookup id).getD [] = []

variable {log : Table Uuid (List RowEvent)} {events : List RowEvent}

theorem noteRows_resumed (hn : (queueMachine E).next q a = some q')
    (hr : q.resumes a = some (id, events)) : ((noteRows log q a).lookup id).getD [] =
      ((q'.jobs.lookup id).map (Job.called q'.now)).getD [] ++
        (events ++ (log.lookup id).getD []) := by
  simp [noteRows, hn, hr]

theorem noteRows_other (hr : ∀ events, q.resumes a ≠ some (id, events)) :
    (noteRows log q a).lookup id = log.lookup id := by
  unfold noteRows
  split
  next key events _ hres =>
    rw [Table.lookup_insert_eq, if_neg]
    rintro rfl
    exact hr events hres
  next => rfl

/-- Only the run of a known job is resumed, and a new one has done nothing. -/
theorem known_of_resumes (hs : q.Sound) (hn : (queueMachine E).next q a = some q')
    (hr : q.resumes a = some (id, events)) : id < q.drawn ∨ id = q.drawn ∧ events = [] := by
  cases a with
  | confirm =>
    obtain ⟨rfl, rfl⟩ := Prod.mk.inj (Option.some.inj hr)
    exact .inr ⟨rfl, rfl⟩
  | executed jobId outcome =>
    obtain ⟨job, hjob, -⟩ := Option.bind_eq_some_iff.mp hn
    unfold resumes at hr
    dsimp only at hr
    split at hr
    next =>
      obtain ⟨rfl, -⟩ := Prod.mk.inj (Option.some.inj hr)
      exact .inl (hs.jobs _ job hjob).2.1
    next => cases hr
  | waited jobId resolved =>
    obtain ⟨job, hjob, -⟩ := Option.bind_eq_some_iff.mp hn
    obtain ⟨rfl, -⟩ := Prod.mk.inj (Option.some.inj hr)
    exact .inl (hs.jobs _ job hjob).2.1
  | _ => cases hr

theorem now_of_next (hn : (queueMachine E).next q a = some q') (hr : (q.resumes a).isSome = true) :
    q'.now = q.now := by
  cases a with
  | confirm accountId actor token =>
    obtain rfl := Option.some.inj hn
    show (q.confirm accountId actor token).2.now = q.now
    unfold confirm
    split
    next => rfl
    next entry _ =>
      dsimp only
      split_ifs
      · rfl
      · rfl
      · rfl
      · split
        next => rfl
        next =>
          obtain ⟨hnow, -⟩ := prune_now { q with previews := q.previews.erase token }
          split
          next e p hp => exact (congrArg (fun x => x.2.now) hp).symm.trans hnow
          next p hp => exact (congrArg (fun x => x.2.now) hp).symm.trans hnow
  | executed =>
    obtain ⟨job, -, hn⟩ := Option.bind_eq_some_iff.mp hn
    split at hn
    next =>
      obtain rfl := Option.some.inj hn
      rfl
    next => cases hn
  | waited =>
    obtain ⟨job, -, hn⟩ := Option.bind_eq_some_iff.mp hn
    split at hn
    next =>
      obtain rfl := Option.some.inj hn
      rfl
    next => cases hn
  | _ => cases hr

theorem Recorded.next (h : Recorded (q, log)) (hn : (queueMachine E).next q a = some q') :
    Recorded (q', noteRows log q a) := by
  obtain ⟨hs, hf⟩ := next_spec h.sound hn
  refine ⟨hs, fun id job' hj => ?_, fun id hid => ?_⟩
  · have hresumed {events : List RowEvent} (hr : q.resumes a = some (id, events)) :
        ((noteRows log q a).lookup id).getD [] =
          job'.called q.now ++ (events ++ (log.lookup id).getD []) := by
      rw [noteRows_resumed hn hr, now_of_next hn (by rw [hr]; rfl), hj]
      rfl
    cases (jobChange_of_next h.sound hn hj).jobStep with
    | stands job hjob hstands hother =>
      rw [noteRows_other hother]
      exact hstands.logged (h.jobs id job hjob)
    | launched job hid hres hsub hnone hseg =>
      rw [hresumed hres, h.fresh id hid.ge]
      exact hseg.logged trivial (fun _ => rfl) (fun _ => rfl) hnone
    | executed job index outcome hjob hsus hres hnext =>
      rw [hresumed hres, hnext]
      exact (h.jobs id job hjob).executed hsus
    | waited job index resolved hjob hsus hres hnext =>
      rw [hresumed hres, hnext]
      exact (h.jobs id job hjob).waited hsus
  · have hold := h.fresh id (hf.drawn.trans hid)
    by_cases hr : ∃ events, q.resumes a = some (id, events)
    · obtain ⟨events, hr⟩ := hr
      have hnone : q'.jobs.lookup id = none := by
        rw [Option.eq_none_iff_forall_ne_some]
        intro job hj
        exact absurd (hs.jobs id job hj).2.1 (not_lt.mpr hid)
      rcases known_of_resumes h.sound hn hr with hlt | ⟨-, rfl⟩
      · exact absurd hlt (not_lt.mpr (hf.drawn.trans hid))
      · rw [noteRows_resumed hn hr, hnone, hold]
        rfl
    · rw [noteRows_other fun events he => hr ⟨events, he⟩]
      exact hold

end MarketBatchQueue

/-- The queue with what the runs of its jobs have done beside it. -/
def rowMachine (E : Type) :
    Machine (MarketBatchQueue E × Table Uuid (List RowEvent)) (QueueAction E) :=
  (queueMachine E).recording ∅ MarketBatchQueue.noteRows

theorem recorded_of_reachable {s : MarketBatchQueue E × Table Uuid (List RowEvent)}
    (h : (rowMachine E).Reachable s) : MarketBatchQueue.Recorded s := by
  refine h.invariant ?_ fun s a t hs _ hn => ?_
  · rintro ⟨q, log⟩ ⟨rfl, rfl⟩
    exact ⟨MarketBatchQueue.sound_empty, fun _ _ hj => (by cases hj), fun _ _ => rfl⟩
  · obtain ⟨hnext, hlog⟩ := Machine.recording_next hn
    obtain ⟨q', log'⟩ := t
    obtain rfl : log' = _ := hlog
    exact hs.next hnext

namespace RowEvent
variable {events newer between older : List RowEvent} {index later delaySeconds : ℕ}
  {outcome : Except ActionError MarketActionResult}

/-- Only a completed wait settles what a row owes. By induction on what came after the row. -/
theorem waited_of_owesWait (hspaced : History.Each (Spaced delaySeconds)
      (between ++ .settled index outcome :: older))
    (hmay : maySubmit outcome = true)
    (h : owesWait (between ++ .settled index outcome :: older) = false) :
    [.waited, .waits (delaySeconds * 1000)] <:+: between := by
  induction between with
  | nil => simp [owesWait, hmay] at h
  | cons e between ih =>
    obtain ⟨he, hspaced⟩ := hspaced
    have hrest (h : owesWait (between ++ .settled index outcome :: older) = false) :
        [.waited, .waits (delaySeconds * 1000)] <:+: e :: between :=
      (ih hspaced h).trans (List.suffix_cons e between).isInfix
    cases e with
    | waited =>
      cases between with
      | nil => cases he
      | cons first between =>
        obtain rfl := Option.some.inj he
        exact ⟨[], between, rfl⟩
    | began => exact hrest h
    | waits => exact hrest h
    | settled =>
      simp only [List.cons_append, owesWait, Bool.or_eq_false_iff] at h
      exact hrest h.2

end RowEvent

/-- What the rows of a job are promised. -/
structure SpacedRun (delaySeconds : ℕ) (events : List RowEvent) : Prop where
  spaced : ∀ newer between older index later outcome,
    events = newer ++ .began later :: (between ++ .settled index outcome :: older) →
      maySubmit outcome = true → [.waited, .waits (delaySeconds * 1000)] <:+: between
  executed : ∀ newer older index outcome, events = newer ++ .settled index outcome :: older →
    older.head? = some (.began index)
  ended : ∀ newer older index outcome, events = newer ++ .settled index outcome :: older →
    stopsBatch outcome = true → ∀ later, .began later ∉ newer

theorem Job.Logged.spacedRun {job : Job E} {events : List RowEvent} (h : job.Logged events) :
    SpacedRun job.delaySeconds events := by
  constructor
  · rintro newer between older index later outcome rfl hmay
    have hlater : History.Each (RowEvent.Spaced job.delaySeconds)
        (.began later :: (between ++ .settled index outcome :: older)) := h.spaced.of_append
    exact RowEvent.waited_of_owesWait hlater.2 hmay hlater.1.1
  · rintro newer older index outcome rfl
    exact h.spaced.of_split
  · rintro newer older index outcome rfl hstops later hmem
    obtain ⟨newest, mid, rfl⟩ := List.append_of_mem hmem
    rw [List.append_assoc, List.cons_append] at h
    have hgoes := h.spaced.of_split.2
    simp [RowEvent.isStopped, hstops] at hgoes

/-- In every run of the queue: between a row that may have submitted something and a later one
lies a completed wait of the delay of the job, and after a row that stops the batch or is
refused for its rate no other one is executed. -/
theorem spacedRun_of_reachable {q : MarketBatchQueue E} {log : Table Uuid (List RowEvent)}
    (h : (rowMachine E).Reachable (q, log)) {id : Uuid} {job : Job E}
    (hjob : q.jobs.lookup id = some job) :
    SpacedRun job.delaySeconds ((log.lookup id).getD []) ∧
      job.started = (((log.lookup id).getD []).filterMap RowEvent.begun).reverse := by
  have hlogged := (recorded_of_reachable h).jobs id job hjob
  exact ⟨hlogged.spacedRun, hlogged.started⟩

def listedTwice : MarketBatchQueue Unit × Table Uuid (List RowEvent) :=
  ((rowMachine Unit).exec (.empty, ∅)
    [.create "bee" "admin" .sale none (List.replicate 2 ⟨{
        assetId := some "7", listingId := none, name := "Card", quantity := 1, buyerPays := some 15
        sellerReceives := some 13, steamFee := some 1, publisherFee := some 1, status := .ready
        message := none }, some ()⟩) 5,
      .confirm "bee" "admin" 0, .executed 1 (.ok ⟨true, none, false, "Listed."⟩), .tick 5000,
      .waited 1 true, .executed 1 (.ok ⟨true, none, false, "Listed."⟩)]).getD (.empty, ∅)

theorem spacedRun_listedTwice :
    (listedTwice.1.jobs.lookup 1).map (fun job => (job.delaySeconds, job.started)) =
        some (5, [0, 1]) ∧
      ∃ job, listedTwice.1.jobs.lookup 1 = some job ∧
        SpacedRun job.delaySeconds ((listedTwice.2.lookup 1).getD []) := by
  obtain ⟨job, hjob⟩ : ∃ job, listedTwice.1.jobs.lookup 1 = some job :=
    Option.isSome_iff_exists.mp (by decide +kernel)
  have hreach : (rowMachine Unit).Reachable listedTwice :=
    Machine.reachable_exec ⟨rfl, rfl⟩ (by decide +kernel)
  exact ⟨by decide +kernel, job, hjob, (spacedRun_of_reachable hreach hjob).1⟩

end SteamBee.Inventory
