import Mathlib.Data.List.Forall2
import SteamBee.Data.Absorption
import SteamBee.Inventory.BatchSpacing
import SteamBee.Web.BatchMarket

/-! The snapshots of one job: each precedes the last one in a way that merging keeps, so that
the browser ends with the last one in whatever order they arrive. -/
namespace SteamBee.Web
open Inventory Transition

section Lists
variable {α : Type*} {R : α → α → Prop} {a b c : List α} {f : α → α} {index : ℕ} {x : α}

theorem forall₂_trans (hR : ∀ x y z, R x y → R y z → R x z) (h : List.Forall₂ R a b)
    (h' : List.Forall₂ R b c) : List.Forall₂ R a c := by
  induction h generalizing c with
  | nil => exact h'
  | cons hxy _ ih =>
    cases h' with
    | cons hyz hrest => exact .cons (hR _ _ _ hxy hyz) (ih hrest)

theorem forall₂_modify (hR : ∀ x, R x x) (hx : a[index]? = some x) (hf : R x (f x)) :
    List.Forall₂ R a (a.modify index f) := by
  induction a generalizing index with
  | nil => simp at hx
  | cons y a ih =>
    cases index with
    | zero =>
      obtain rfl : y = x := by simpa using hx
      exact .cons hf (List.forall₂_same.mpr fun z _ => hR z)
    | succ index => exact .cons (hR y) (ih (by simpa using hx))

end Lists

/-- What a row may still become: a terminal row stays, and a listing is not forgotten. -/
structure ItemPrecedes (a b : MarketBatchJobItem) : Prop where
  finished : itemFinished a = true → b = a
  listingId : a.listingId.isSome = true → b.listingId.isSome = true

theorem ItemPrecedes.refl (a : MarketBatchJobItem) : ItemPrecedes a a := ⟨fun _ => rfl, id⟩

theorem ItemPrecedes.trans {a b c : MarketBatchJobItem} (h : ItemPrecedes a b)
    (h' : ItemPrecedes b c) : ItemPrecedes a c where
  finished hfin := by
    obtain rfl := h.finished hfin
    exact h'.finished hfin
  listingId hsome := h'.listingId (h.listingId hsome)

/-- The job `b` may be a later value of the job `a`. -/
structure JobPrecedes (a b : MarketBatchJob) : Prop where
  id : b.id = a.id
  kind : b.kind = a.kind
  createdAt : b.createdAt = a.createdAt
  totalCount : b.totalCount = a.totalCount
  updatedAt : a.updatedAt ≤ b.updatedAt
  completedCount : a.completedCount ≤ b.completedCount
  stopRequested : a.stopRequested = true → b.stopRequested = true
  rows : List.Forall₂ ItemPrecedes a.items b.items
  finished : isFinished a = true → b = a

theorem JobPrecedes.refl (a : MarketBatchJob) : JobPrecedes a a where
  id := rfl
  kind := rfl
  createdAt := rfl
  totalCount := rfl
  updatedAt := le_rfl
  completedCount := le_rfl
  stopRequested hs := hs
  rows := List.forall₂_same.mpr fun item _ => .refl item
  finished _ := rfl

theorem JobPrecedes.trans {a b c : MarketBatchJob} (h : JobPrecedes a b) (h' : JobPrecedes b c) :
    JobPrecedes a c where
  id := h'.id.trans h.id
  kind := h'.kind.trans h.kind
  createdAt := h'.createdAt.trans h.createdAt
  totalCount := h'.totalCount.trans h.totalCount
  updatedAt := h.updatedAt.trans h'.updatedAt
  completedCount := h.completedCount.trans h'.completedCount
  stopRequested hs := h'.stopRequested (h.stopRequested hs)
  rows := forall₂_trans (fun _ _ _ => ItemPrecedes.trans) h.rows h'.rows
  finished hfin := by
    obtain rfl := h.finished hfin
    exact h'.finished hfin

structure IsFinal (job : MarketBatchJob) : Prop where
  finished : isFinished job = true
  rows : ∀ item ∈ job.items, itemFinished item = true
  nextActionAt : job.nextActionAt = none

section Merging
variable {newer : Bool} {before after last : MarketBatchJobItem}
  {previous incoming final : List MarketBatchJobItem} {p s f : MarketBatchJob}

theorem listingId_eq {a : MarketBatchJobItem} (h : ItemPrecedes a last)
    (hnone : last.listingId = none) : a.listingId = none := by
  cases ha : a.listingId with
  | none => rfl
  | some listingId =>
    have hsome := h.listingId (by simp [ha])
    simp [hnone] at hsome

/-- A merged row that is already the last one has found its listing. -/
theorem mergeItem_of_progressed (h : ItemPrecedes before last) (h' : ItemPrecedes after last)
    (hlast : progressed newer before after = last) : mergeItem newer before after = last := by
  have hlisting : (last.listingId.or before.listingId).or after.listingId = last.listingId := by
    cases hl : last.listingId with
    | some listingId => rfl
    | none => rw [listingId_eq h hl, listingId_eq h' hl]; rfl
  simp only [mergeItem, hlast, hlisting]

theorem ItemPrecedes.mergeItem (newer : Bool) (h : ItemPrecedes before last)
    (h' : ItemPrecedes after last) : ItemPrecedes (mergeItem newer before after) last where
  finished hfin := by
    have hprogressed : progressed newer before after = last := by
      rcases progressed_mem newer before after with he | he
      · rw [he]
        exact (h.finished (he ▸ hfin)).symm
      · rw [he]
        exact (h'.finished (he ▸ hfin)).symm
    exact (mergeItem_of_progressed h h' hprogressed).symm
  listingId hsome := by
    by_contra hnone
    have hnone : last.listingId = none := by simpa using hnone
    have hmerged : (SteamBee.Web.mergeItem newer before after).listingId = none := by
      have hp : (progressed newer before after).listingId = none := by
        rcases progressed_mem newer before after with he | he
        · rw [he, listingId_eq h hnone]
        · rw [he, listingId_eq h' hnone]
      simp only [SteamBee.Web.mergeItem, hp, listingId_eq h hnone, listingId_eq h' hnone]
      rfl
    simp [hmerged] at hsome

theorem forall₂_mergeItems (newer : Bool) (h : List.Forall₂ ItemPrecedes previous final)
    (h' : List.Forall₂ ItemPrecedes incoming final) :
    List.Forall₂ ItemPrecedes (mergeItems newer previous incoming) final := by
  induction h generalizing incoming with
  | nil =>
    cases h'
    exact .nil
  | cons hfirst _ ih =>
    cases h' with
    | cons hsecond hrest => exact .cons (hfirst.mergeItem newer hsecond) (ih hrest)

theorem mergeItems_final (newer : Bool) (h : List.Forall₂ ItemPrecedes previous final)
    (hclosed : ∀ item ∈ final, itemFinished item = true) :
    mergeItems newer previous final = final := by
  induction h with
  | nil => rfl
  | @cons before last previous final hfirst _ ih =>
    rw [List.forall_mem_cons] at hclosed
    have hprogressed : progressed newer before last = last := by
      by_cases hb : itemFinished before = true
      · rw [progressed_of_finished hb, hfirst.finished hb]
      · exact progressed_of_after (by simpa using hb) hclosed.1
    rw [mergeItems, mergeItem_of_progressed hfirst (.refl last) hprogressed, ih hclosed.2]

theorem final_mergeItems (newer : Bool) (h : List.Forall₂ ItemPrecedes incoming final)
    (hclosed : ∀ item ∈ final, itemFinished item = true) :
    mergeItems newer final incoming = final := by
  induction h with
  | nil => rfl
  | @cons after last incoming final hfirst _ ih =>
    rw [List.forall_mem_cons] at hclosed
    rw [mergeItems, mergeItem_of_progressed (.refl last) hfirst (progressed_of_finished hclosed.1),
      ih hclosed.2]

theorem status_of_isFinished {job : MarketBatchJob} (h : isFinished job = true) :
    job.status = .completed ∨ job.status = .stopped := by
  simpa [isFinished] using h

/-- The last snapshot is what the merge with it shows. -/
theorem mergeJob_final (h : JobPrecedes p f) (hf : IsFinal f) : mergeJob p f = f := by
  have hstatus : (if isFinished p then p.status else f.status) = f.status := by
    split_ifs with hp
    · rw [h.finished hp]
    · rfl
  have hstop : (p.stopRequested || f.stopRequested) = f.stopRequested := by
    cases hs : p.stopRequested with
    | false => rfl
    | true => rw [h.stopRequested hs]; rfl
  simp only [mergeJob, h.updatedAt, decide_true, ↓reduceIte, hf.finished, hstatus, hstop,
    mergeItems_final true h.rows hf.rows, max_eq_right h.updatedAt, max_eq_right h.completedCount,
    max_eq_right h.totalCount.ge, status_of_isFinished hf.finished]
  rw [← hf.nextActionAt]

/-- A stale snapshot does not change the last one, not even one of the same time. -/
theorem final_mergeJob (h : JobPrecedes s f) (hf : IsFinal f) : mergeJob f s = f := by
  have hstop : (f.stopRequested || s.stopRequested) = f.stopRequested := by
    cases hs : s.stopRequested with
    | false => exact Bool.or_false _
    | true => rw [h.stopRequested hs]; rfl
  have hrows := final_mergeItems (decide (f.updatedAt ≤ s.updatedAt)) h.rows hf.rows
  simp only [mergeJob, hf.finished, ↓reduceIte, hstop, hrows, max_eq_left h.updatedAt,
    max_eq_left h.completedCount, max_eq_left h.totalCount.ge, status_of_isFinished hf.finished]
  rw [← hf.nextActionAt]
  split_ifs
  · rw [← h.id, ← h.kind, ← h.createdAt]
  · rfl

/-- Snapshots that precede the last one are merged into one that precedes it. -/
theorem JobPrecedes.mergeJob (hp : JobPrecedes p f) (hs : JobPrecedes s f) (hf : IsFinal f) :
    JobPrecedes (mergeJob p s) f := by
  by_cases hpf : isFinished p = true
  · obtain rfl := hp.finished hpf
    rw [final_mergeJob hs hf]
    exact .refl f
  by_cases hsf : isFinished s = true
  · obtain rfl := hs.finished hsf
    rw [mergeJob_final hp hf]
    exact .refl f
  have hlatest : ∃ l : MarketBatchJob, (l = p ∨ l = s) ∧
      l = if decide (p.updatedAt ≤ s.updatedAt) then s else p := by
    split_ifs
    · exact ⟨s, .inr rfl, rfl⟩
    · exact ⟨p, .inl rfl, rfl⟩
  obtain ⟨l, hl, hlatest⟩ := hlatest
  have hlf : JobPrecedes l f := by
    rcases hl with rfl | rfl
    · exact hp
    · exact hs
  have hopen : isFinished l = false := by
    rcases hl with rfl | rfl
    · simpa using hpf
    · simpa using hsf
  simp only [SteamBee.Web.mergeJob, hpf, hsf, ← hlatest, Bool.false_eq_true, ↓reduceIte]
  constructor
  case id => exact hlf.id
  case kind => exact hlf.kind
  case createdAt => exact hlf.createdAt
  case totalCount => rw [← hp.totalCount, ← hs.totalCount, max_self]
  case updatedAt => exact max_le hp.updatedAt hs.updatedAt
  case completedCount => exact max_le hp.completedCount hs.completedCount
  case stopRequested =>
    intro hstop
    rcases Bool.or_eq_true_iff.mp hstop with hstop | hstop
    · exact hp.stopRequested hstop
    · exact hs.stopRequested hstop
  case rows => exact forall₂_mergeItems _ hp.rows hs.rows
  case finished =>
    intro hfin
    simp only [isFinished] at hfin hopen
    rw [hopen] at hfin
    cases hfin

theorem absorbs_mergeJob (hf : IsFinal f) :
    Absorption.Absorbs mergeJob (fun job => JobPrecedes job f) f where
  keeps _ _ hp hs := hp.mergeJob hs hf
  absorbs _ hp := mergeJob_final hp hf
  absorbed _ hs := final_mergeJob hs hf

end Merging
end SteamBee.Web

namespace SteamBee.Inventory
open Web Transition
variable {E : Type}

namespace Job
variable {now index : ℕ} {job next : Job E} {item : MarketBatchJobItem}

/-- What a job shows to the outside agrees with where its run stands. -/
structure Published (now : ℕ) (job : Job E) : Prop where
  updatedAt : job.value.updatedAt ≤ now
  finished : isFinished job.value = job.finishedAt.isSome
  nextActionAt : isFinished job.value = true → job.value.nextActionAt = none

theorem Published.later {now' : ℕ} (h : job.Published now) (hnow : now ≤ now') :
    job.Published now' := ⟨h.updatedAt.trans hnow, h.finished, h.nextActionAt⟩

/-- A segment of a run leaves a job that its earlier value precedes. -/
structure Advances (now : ℕ) (job next : Job E) : Prop where
  precedes : JobPrecedes job.value next.value
  published : next.Published now

theorem Advances.trans {a b c : Job E} (h : a.Advances now b) (h' : b.Advances now c) :
    a.Advances now c := ⟨h.precedes.trans h'.precedes, h'.published⟩

theorem Published.unfinished (h : job.Published now) (hf : job.finishedAt = none) :
    isFinished job.value = false := by
  rw [h.finished, hf]
  rfl

theorem itemFinished_eq (item : MarketBatchJobItem) : itemFinished item = !item.status.isOpen := by
  unfold itemFinished ItemStatus.isOpen
  cases item.status <;> rfl

/-- Only an open row may change. -/
theorem itemPrecedes_of_open {a b : MarketBatchJobItem} (h : a.status.isOpen = true)
    (hlisting : a.listingId.isSome = true → b.listingId.isSome = true) : ItemPrecedes a b where
  finished hfin := by simp [itemFinished_eq, h] at hfin
  listingId := hlisting

theorem advances_finish (h : job.Published now) (hf : job.finishedAt = none) (ht : job.Tidy) :
    job.Advances now (job.finish now) where
  precedes := by
    constructor
    case id => rfl
    case kind => rfl
    case createdAt => rfl
    case totalCount => rfl
    case updatedAt => exact h.updatedAt
    case completedCount =>
      rw [ht.counted]
      simp only [finish, List.countP_map]
      refine List.countP_mono_left fun item _ hopen => ?_
      simp_all
    case stopRequested => exact id
    case rows =>
      refine List.forall₂_map_right_iff.mpr (List.forall₂_same.mpr fun item _ => ?_)
      split_ifs with hopen
      · exact itemPrecedes_of_open hopen id
      · exact .refl item
    case finished => intro hfin; simp [h.unfinished hf] at hfin
  published := by
    refine ⟨le_rfl, ?_, fun _ => rfl⟩
    simp only [finish, isFinished]
    split_ifs <;> rfl

theorem advances_requestStop (h : job.Published now) (hf : job.finishedAt = none) :
    job.Advances now job.requestStop where
  precedes := ⟨rfl, rfl, rfl, rfl, le_rfl, le_rfl, fun _ => rfl,
    List.forall₂_same.mpr fun item _ => .refl item,
    fun hfin => by simp [h.unfinished hf] at hfin⟩
  published := ⟨h.updatedAt, h.finished, h.nextActionAt⟩

theorem advances_halt (h : job.Published now) (hf : job.finishedAt = none) :
    job.Advances now (MarketBatchQueue.halt now job) where
  precedes := ⟨rfl, rfl, rfl, rfl, h.updatedAt, le_rfl, fun _ => rfl,
    List.forall₂_same.mpr fun item _ => .refl item,
    fun hfin => by simp [h.unfinished hf] at hfin⟩
  published := ⟨le_rfl, h.finished, h.nextActionAt⟩

theorem advances_waitRow (h : job.Published now) (hf : job.finishedAt = none) :
    job.Advances now (job.waitRow now index) where
  precedes := ⟨rfl, rfl, rfl, rfl, h.updatedAt, le_rfl, id,
    List.forall₂_same.mpr fun item _ => .refl item,
    fun hfin => by simp [h.unfinished hf] at hfin⟩
  published := ⟨le_rfl, by simp [waitRow, isFinished, hf],
    fun hfin => by simp [waitRow, isFinished] at hfin⟩

theorem advances_beginRow (h : job.Published now) (hf : job.finishedAt = none)
    (hitem : job.value.items[index]? = some item) (hq : item.status = .queued) :
    job.Advances now (job.beginRow now index) where
  precedes := ⟨rfl, rfl, rfl, rfl, h.updatedAt, le_rfl, id,
    forall₂_modify ItemPrecedes.refl hitem (itemPrecedes_of_open (by rw [hq]; rfl) id),
    fun hfin => by simp [h.unfinished hf] at hfin⟩
  published := ⟨le_rfl, by simp [beginRow, isFinished, hf], fun _ => rfl⟩

theorem listingId_settledItem (kind : MarketKind)
    (outcome : Except ActionError MarketActionResult) (item : MarketBatchJobItem)
    (h : item.listingId.isSome = true) : (settledItem kind outcome item).listingId.isSome = true := by
  cases outcome with
  | ok result => cases hr : result.listingId <;> simp [settledItem, hr, h]
  | error detail => exact h

theorem advances_settleRow {outcome : Except ActionError MarketActionResult}
    (h : job.Published now) (hf : job.finishedAt = none)
    (hitem : job.value.items[index]? = some item) (hr : item.status = .running) :
    job.Advances now (job.settleRow now index outcome) := by
  have hrow : ItemPrecedes item (settledItem job.value.kind outcome item) :=
    itemPrecedes_of_open (by rw [hr]; rfl) (listingId_settledItem _ outcome item)
  have hrows := forall₂_modify ItemPrecedes.refl hitem hrow
  rw [← settleRow_items now] at hrows
  have hopen := h.unfinished hf
  cases outcome with
  | ok result =>
    exact ⟨⟨rfl, rfl, rfl, rfl, h.updatedAt, Nat.le_succ _, id, hrows,
      fun hfin => by simp [hopen] at hfin⟩, ⟨le_rfl, h.finished, h.nextActionAt⟩⟩
  | error detail =>
    exact ⟨⟨rfl, rfl, rfl, rfl, h.updatedAt, Nat.le_succ _,
      fun hs => by simp [settleRow, hs], hrows,
      fun hfin => by simp [hopen] at hfin⟩, ⟨le_rfl, h.finished, h.nextActionAt⟩⟩

/-- A run that ends after a stop. -/
theorem advances_stopped (h : job.Published now) (hf : job.finishedAt = none) (ht : job.Tidy) :
    job.Advances now (job.requestStop.finish now) :=
  (advances_requestStop h hf).trans
    (advances_finish (advances_requestStop h hf).published hf ht.requestStop)

/-- The loop up to its next suspension. By induction on the rows that are left. -/
theorem advances_runRows {rest : List (BatchCommand E)} (h : job.Published now)
    (hb : job.Between index) (hrest : rest = job.commands.drop index) :
    job.Advances now (job.runRows now rest index) := by
  induction rest generalizing index with
  | nil => exact advances_finish h hb.unfinished hb.toTidy
  | cons command rest ih =>
    have hc : job.commands[index]? = some command := by
      rw [← List.head?_drop, ← hrest, List.head?_cons]
    have hnext : rest = job.commands.drop (index + 1) := by
      rw [← List.tail_drop, ← hrest, List.tail_cons]
    simp only [runRows]
    cases he : command.execute with
    | none => exact ih (hb.skip hc he) hnext
    | some e =>
      obtain ⟨item, hitem, hstatus⟩ := hb.item hc
      rw [he, Option.isSome_some, if_pos rfl] at hstatus
      dsimp only
      split_ifs
      · exact advances_waitRow h hb.unfinished
      · exact advances_beginRow h hb.unfinished hitem hstatus
      · exact advances_stopped h hb.unfinished hb.toTidy

theorem advances_executed (outcome : Except ActionError MarketActionResult)
    (h : job.Published now) (hs : job.Suspended) (hsus : job.suspension = .executing index) :
    job.Advances now (job.executed now outcome) := by
  have hphase := hs.phase
  rw [hsus] at hphase
  obtain ⟨hf, -, -, -, item, hitem, hrun⟩ := hphase
  have hsettled : job.Advances now (job.settleRow now index outcome) :=
    advances_settleRow h hf hitem hrun
  have hb := (between_settleRow now outcome hs hsus).1
  unfold executed
  rw [hsus]
  dsimp only
  split_ifs
  · exact hsettled.trans (advances_finish hsettled.published hb.unfinished hb.toTidy)
  · exact hsettled.trans
      (advances_runRows hsettled.published hb (by rw [settleRow_commands]))

theorem advances_waited (resolved : Bool) (h : job.Published now) (hs : job.Suspended)
    (hsus : job.suspension = .waiting index) : job.Advances now (job.waited now resolved) := by
  have hphase := hs.phase
  rw [hsus] at hphase
  obtain ⟨hb, item, hitem, hq⟩ := hphase
  unfold waited
  rw [hsus]
  dsimp only
  split_ifs
  · exact advances_beginRow h hb.unfinished hitem hq
  · exact advances_stopped h hb.unfinished hb.toTidy

theorem isFinal_of_published (h : job.Published now) (hs : job.Suspended)
    (hfin : isFinished job.value = true) : IsFinal job.value where
  finished := hfin
  rows item hitem := by
    have hclosed := hs.closed (h.finished ▸ hfin) item hitem
    rw [itemFinished_eq, hclosed]
    rfl
  nextActionAt := h.nextActionAt hfin

end Job

namespace MarketBatchQueue
variable {q q' : MarketBatchQueue E} {a : QueueAction E} {id : Uuid} {job job' : Job E}

/-- Every job shows where its run stands. -/
def Published (q : MarketBatchQueue E) : Prop :=
  ∀ id job, q.jobs.lookup id = some job → job.Published q.now

theorem published_launch (p : MarketBatchQueue E) (accountId : AccountId) (actor : Actor)
    (entry : Prepared E) : (p.launch accountId actor entry).1.Published p.now := by
  have hnew : (p.newJob accountId actor entry).Published p.now := by
    refine ⟨le_rfl, rfl, fun _ => rfl⟩
  exact (Job.advances_runRows hnew (between_newJob p accountId actor entry) rfl).published

/-- A step leaves jobs that their earlier values precede. -/
theorem advances_of_next (hs : q.Sound) (hp : q.Published)
    (hn : (queueMachine E).next q a = some q') (h : q'.jobs.lookup id = some job') :
    job'.Published q'.now ∧
      ∀ job, q.jobs.lookup id = some job → JobPrecedes job.value job'.value := by
  obtain ⟨-, hf⟩ := next_spec hs hn
  have hof {old : Job E} (hold : q.jobs.lookup id = some old) (hadv : old.Advances q.now job') :
      job'.Published q'.now ∧
        ∀ job, q.jobs.lookup id = some job → JobPrecedes job.value job'.value := by
    refine ⟨hadv.published.later hf.now, fun job hjob => ?_⟩
    obtain rfl : old = job := Option.some.inj (hold.symm.trans hjob)
    exact hadv.precedes
  cases jobChange_of_next hs hn h with
  | halts old hold hnext =>
    have hsame : job' = old → old.Advances q.now job' := by
      rintro rfl
      exact ⟨.refl _, hp id job' hold⟩
    rcases hnext with hnext | hnext
    · exact hof hold (hsame hnext)
    · cases hfin : old.finishedAt with
      | none => exact hof hold (hnext ▸ Job.advances_halt (hp id old hold) hfin)
      | some time =>
        -- `stop` does not touch a finished job, and `stopAccount` only the active one.
        have hkept := (hf.job hs hold h).finished (by rw [hfin]; rfl)
        exact hof hold (hsame hkept)
  | launched p accountId actor entry hnow hid hresumes hnext =>
    subst hnext
    refine ⟨(published_launch p accountId actor entry).later (hnow.le.trans hf.now),
      fun job hjob => ?_⟩
    exact absurd (hs.jobs id job hjob).2.1 hid.not_lt
  | executed old index outcome hold hsus hresumes hnext =>
    exact hof hold (hnext ▸ Job.advances_executed outcome (hp id old hold)
      (hs.jobs id old hold).2.2 hsus)
  | waited old index resolved hold hsus hresumes hnext =>
    exact hof hold (hnext ▸ Job.advances_waited resolved (hp id old hold)
      (hs.jobs id old hold).2.2 hsus)

theorem published_of_reachable (h : (queueMachine E).Reachable q) : q.Published := by
  refine h.invariant_of ?_ fun s a t hs hp _ hn => ?_
  · rintro q rfl id job hjob
    cases hjob
  · exact fun id job' hjob' => (advances_of_next (sound_of_reachable hs) hp hn hjob').1

/-- The values of a job along a run. By induction on the steps. -/
theorem precedes_of_leads (hq : (queueMachine E).Reachable q)
    (h : (queueMachine E).Leads (fun _ _ => True) q q') (hjob : q.jobs.lookup id = some job)
    (hjob' : q'.jobs.lookup id = some job') : JobPrecedes job.value job'.value := by
  have hkeeps : (queueMachine E).Reachable q' ∧ q.drawn ≤ q'.drawn ∧
      ∀ job', q'.jobs.lookup id = some job' → JobPrecedes job.value job'.value := by
    refine h.keeps (I := fun q' => (queueMachine E).Reachable q' ∧ q.drawn ≤ q'.drawn ∧
      ∀ job', q'.jobs.lookup id = some job' → JobPrecedes job.value job'.value)
      ⟨hq, le_rfl, fun job' hjob' => ?_⟩ ?_
    · obtain rfl : job = job' := Option.some.inj (hjob.symm.trans hjob')
      exact .refl _
    · rintro s a t ⟨hs, hdrawn, hall⟩ hc hn
      have hsound := sound_of_reachable hs
      obtain ⟨-, hf⟩ := next_spec hsound hn
      refine ⟨hs.leads (Machine.Leads.tail (.refl s) hc hn), hdrawn.trans hf.drawn,
        fun job' hjob' => ?_⟩
      have hid : id < s.drawn := ((sound_of_reachable hq).jobs id job hjob).2.1.trans_le hdrawn
      obtain ⟨mid, hmid, -⟩ := hf.jobs id job' hjob' hid
      exact (hall mid hmid).trans
        ((advances_of_next hsound (published_of_reachable hs) hn hjob').2 mid hmid)
  exact hkeeps.2.2 job' hjob'

end MarketBatchQueue
end SteamBee.Inventory

namespace SteamBee.Web
open Inventory Transition
variable {E : Type} {q : MarketBatchQueue E} {id : Uuid} {job : Job E} {value : MarketBatchJob}

/-- The job has this value at some moment of a history through `q`, before or after it. -/
def SnapshotOf (q : MarketBatchQueue E) (id : Uuid) (value : MarketBatchJob) : Prop :=
  ∃ (p : MarketBatchQueue E) (job : Job E), (queueMachine E).Reachable p ∧
    ((queueMachine E).Leads (fun _ _ => True) p q ∨ (queueMachine E).Leads (fun _ _ => True) q p) ∧
    p.jobs.lookup id = some job ∧ job.value = value

theorem SnapshotOf.id_eq (h : SnapshotOf q id value) : value.id = id := by
  obtain ⟨p, job, hp, -, hjob, rfl⟩ := h
  exact ((MarketBatchQueue.sound_of_reachable hp).jobs id job hjob).1

/-- Every snapshot precedes the last one, which nothing changes any more. -/
theorem SnapshotOf.precedes (h : SnapshotOf q id value) (hq : (queueMachine E).Reachable q)
    (hjob : q.jobs.lookup id = some job) (hfin : isFinished job.value = true) :
    JobPrecedes value job.value := by
  obtain ⟨p, old, hp, hleads, hold, rfl⟩ := h
  rcases hleads with hleads | hleads
  · exact MarketBatchQueue.precedes_of_leads hp hleads hold hjob
  · have hlater := MarketBatchQueue.precedes_of_leads hq hleads hjob hold
    rw [hlater.finished hfin]
    exact .refl _

/-- The job on the screen after the answers to polls and commands about one job have arrived, in
any order and any number of times: it never goes back, it is behind none of them, and once the
last one is among them it is what is shown. -/
theorem mergedSnapshots (hq : (queueMachine E).Reachable q)
    {answers later : List (Bool × MarketBatchJob)}
    (hanswers : ∀ answer ∈ answers ++ later, SnapshotOf q id answer.2) :
    (∀ shown, updateJobs none answers = some shown →
      (∀ answer ∈ answers, Reaches answer.2 shown) ∧
      ∃ next, updateJobs none (answers ++ later) = some next ∧ Onward shown next) ∧
    ∀ job, q.jobs.lookup id = some job → isFinished job.value = true →
      job.value ∈ answers.map Prod.snd → updateJobs none (answers ++ later) = some job.value := by
  cases answers with
  | nil => exact ⟨fun shown h => (by cases h), fun job _ _ h => (by cases h)⟩
  | cons first rest =>
    have hids {answers : List (Bool × MarketBatchJob)} (h : ∀ answer ∈ answers,
        SnapshotOf q id answer.2) : ∀ answer ∈ answers, answer.2.id = id :=
      fun answer hanswer => (h answer hanswer).id_eq
    rw [List.cons_append, List.forall_mem_cons] at hanswers
    obtain ⟨hfirst, hrest⟩ := hanswers
    have hshown : updateJobs none (first :: rest) =
        some ((rest.map Prod.snd).foldl mergeJob first.2) :=
      updateJobs_same hfirst.id_eq
        (hids fun answer hanswer => hrest answer (List.mem_append_left later hanswer))
    have hnext : updateJobs none (first :: rest ++ later) =
        some (((rest ++ later).map Prod.snd).foldl mergeJob first.2) :=
      updateJobs_same hfirst.id_eq (hids hrest)
    refine ⟨fun shown h => ?_, fun job hjob hfin hmem => ?_⟩
    · rw [hshown] at h
      obtain rfl := Option.some.inj h
      refine ⟨fun answer hanswer => ?_, _, hnext, ?_⟩
      · rcases List.mem_cons.mp hanswer with rfl | hanswer
        · exact (onward_foldl _ _).reaches
        · exact reaches_foldl (List.mem_map_of_mem hanswer)
      · rw [List.map_append, List.foldl_append]
        exact onward_foldl _ _
    · have hsound := MarketBatchQueue.sound_of_reachable hq
      have hfinal : IsFinal job.value := Job.isFinal_of_published
        (MarketBatchQueue.published_of_reachable hq id job hjob) (hsound.jobs id job hjob).2.2 hfin
      have hprecedes {value : MarketBatchJob} (h : SnapshotOf q id value) :
          JobPrecedes value job.value := h.precedes hq hjob hfin
      have hvalues : ∀ value ∈ (rest ++ later).map Prod.snd, JobPrecedes value job.value := by
        intro value hvalue
        obtain ⟨answer, hanswer, rfl⟩ := List.mem_map.mp hvalue
        exact hprecedes (hrest answer hanswer)
      rw [hnext]
      rcases List.mem_cons.mp hmem with heq | hmem
      · rw [← heq, (absorbs_mergeJob hfinal).foldl_final hvalues]
      · obtain ⟨earlier, rest', hsplit⟩ := List.append_of_mem hmem
        rw [List.map_append, hsplit, List.append_assoc, List.cons_append] at hvalues ⊢
        rw [(absorbs_mergeJob hfinal).foldl_eq_final (hprecedes hfirst)
          (fun value hvalue => hvalues value (List.mem_append_left _ hvalue))
          fun value hvalue => hvalues value
            (List.mem_append_right _ (List.mem_cons_of_mem _ hvalue))]

def confirmedBatch : MarketBatchQueue Unit :=
  ((queueMachine Unit).exec .empty [
    .create "bee" "admin" .sale none [⟨{
      assetId := some "7", listingId := none, name := "Card", quantity := 1, buyerPays := some 15
      sellerReceives := some 13, steamFee := some 1, publisherFee := some 1, status := .ready
      message := none }, some ()⟩] 5,
    .confirm "bee" "admin" 0]).getD .empty

def listedBatch : MarketBatchQueue Unit :=
  ((queueMachine Unit).exec confirmedBatch
    [.executed 1 (.ok ⟨true, some "77", false, "Listed."⟩)]).getD .empty

theorem mergedSnapshots_sameTime : ∃ early last : MarketBatchJob,
    early.status = .running ∧ last.status = .completed ∧ early.updatedAt = last.updatedAt ∧
      updateJobs none ([(true, early), (false, last)] ++ [(false, early)]) = some last := by
  obtain ⟨first, hfirst⟩ : ∃ job, confirmedBatch.jobs.lookup 1 = some job :=
    Option.isSome_iff_exists.mp (by decide +kernel)
  obtain ⟨job, hjob⟩ : ∃ job, listedBatch.jobs.lookup 1 = some job :=
    Option.isSome_iff_exists.mp (by decide +kernel)
  have hshows : (confirmedBatch.jobs.lookup 1).map (fun job => (job.value.status,
      job.value.updatedAt)) = some (.running, 0) := by decide +kernel
  have hends : (listedBatch.jobs.lookup 1).map (fun job => (job.value.status,
      job.value.updatedAt)) = some (.completed, 0) := by decide +kernel
  rw [hfirst] at hshows
  rw [hjob] at hends
  simp only [Option.map_some, Option.some.injEq, Prod.mk.injEq] at hshows hends
  have hconfirmed : (queueMachine Unit).Reachable confirmedBatch :=
    Machine.reachable_exec rfl (by decide +kernel)
  have hleads : (queueMachine Unit).Leads (fun _ _ => True) confirmedBatch listedBatch := by
    obtain ⟨t, ht⟩ := Option.isSome_iff_exists.mp (by decide +kernel :
      ((queueMachine Unit).exec confirmedBatch
        [.executed 1 (.ok ⟨true, some "77", false, "Listed."⟩)]).isSome = true)
    have heq : listedBatch = t := by rw [listedBatch, ht]; rfl
    exact heq ▸ Machine.leads_of_exec ht
  have hreach := hconfirmed.leads hleads
  have hearly : SnapshotOf listedBatch 1 first.value :=
    ⟨confirmedBatch, first, hconfirmed, .inl hleads, hfirst, rfl⟩
  have hlast : SnapshotOf listedBatch 1 job.value :=
    ⟨listedBatch, job, hreach, .inl (.refl _), hjob, rfl⟩
  refine ⟨first.value, job.value, hshows.1, hends.1, hshows.2.trans hends.2.symm, ?_⟩
  refine (mergedSnapshots hreach (fun answer hanswer => ?_)).2 job hjob ?_ ?_
  · simp only [List.cons_append, List.nil_append, List.mem_cons, List.not_mem_nil, or_false]
      at hanswer
    rcases hanswer with rfl | rfl | rfl
    · exact hearly
    · exact hlast
    · exact hearly
  · simp [isFinished, hends.1]
  · simp

end SteamBee.Web
