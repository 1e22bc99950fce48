import Mathlib.Data.List.Basic
import Mathlib.Order.Lattice
import SteamBee.Inventory.Contracts

/-! The batch a browser shows: answers to polls and to commands overtake each other, and
`mergeJob` folds every snapshot of the server's job into the job on the screen. -/
namespace SteamBee.Web
open Inventory

def isFinished (job : MarketBatchJob) : Bool := job.status == .completed || job.status == .stopped

/-- `status !== "queued" && status !== "running"`. -/
def itemFinished (item : MarketBatchJobItem) : Bool :=
  item.status != .queued && item.status != .running

/-- Which of two rows of the same index has progressed further. -/
def progressed (newer : Bool) (before after : MarketBatchJobItem) : MarketBatchJobItem :=
  if itemFinished before then before
  else if itemFinished after || (before.status == .queued && after.status == .running) then after
  else if before.status == .running && after.status == .queued then before
  else if newer then after
  else before

def mergeItem (newer : Bool) (before after : MarketBatchJobItem) : MarketBatchJobItem :=
  let progressed := progressed newer before after
  { progressed with listingId := (progressed.listingId.or before.listingId).or after.listingId }

/-- Rows that only one side has are taken from it. -/
def mergeItems (newer : Bool) :
    List MarketBatchJobItem → List MarketBatchJobItem → List MarketBatchJobItem
  | [], after => after
  | before, [] => before
  | before :: previous, after :: incoming =>
    mergeItem newer before after :: mergeItems newer previous incoming

/-- Server rows keep their order for the lifetime of a job. Equal timestamps are possible. -/
def mergeJob (previous incoming : MarketBatchJob) : MarketBatchJob :=
  let newer := decide (previous.updatedAt ≤ incoming.updatedAt)
  let latest := if newer then incoming else previous
  let status :=
    if isFinished previous then previous.status
    else if isFinished incoming then incoming.status
    else latest.status
  { latest with
    items := mergeItems newer previous.items incoming.items
    status
    updatedAt := max previous.updatedAt incoming.updatedAt
    completedCount := max previous.completedCount incoming.completedCount
    totalCount := max previous.totalCount incoming.totalCount
    stopRequested := previous.stopRequested || incoming.stopRequested
    nextActionAt := if status = .completed ∨ status = .stopped then none else latest.nextActionAt }

/-- `currentJob` after `updateJob`: a delayed read must never restore an older job over the
current confirmation. -/
def updateJob (confirmed : Bool) (previous : Option MarketBatchJob) (value : MarketBatchJob) :
    Option MarketBatchJob :=
  match previous with
  | none => some value
  | some shown =>
    if shown.id ≠ value.id ∧ confirmed = false ∧ value.createdAt ≤ shown.createdAt then some shown
    else if shown.id = value.id then some (mergeJob shown value)
    else some value

def updateJobs (previous : Option MarketBatchJob) (answers : List (Bool × MarketBatchJob)) :
    Option MarketBatchJob :=
  answers.foldl (fun shown answer => updateJob answer.1 shown answer.2) previous

/-- How far a row has come: queued, running, terminal. -/
def stage : ItemStatus → ℕ
  | .queued => 0
  | .running => 1
  | _ => 2

section Merging
variable {newer : Bool} {before after item : MarketBatchJobItem} {job next : MarketBatchJob}
  {previous incoming : List MarketBatchJobItem} {index : ℕ}

theorem itemFinished_iff (item : MarketBatchJobItem) :
    itemFinished item = true ↔ stage item.status = 2 := by
  unfold itemFinished
  cases item.status <;> simp [stage]

theorem progressed_of_finished (h : itemFinished before = true) :
    progressed newer before after = before := by
  simp [progressed, h]

theorem progressed_of_after (hbefore : itemFinished before = false)
    (hafter : itemFinished after = true) : progressed newer before after = after := by
  simp [progressed, hbefore, hafter]

theorem progressed_mem (newer : Bool) (before after : MarketBatchJobItem) :
    progressed newer before after = before ∨ progressed newer before after = after := by
  unfold progressed
  split_ifs <;> simp

/-- The merged row has come as far as the further of the two. -/
theorem stage_progressed (newer : Bool) (before after : MarketBatchJobItem) :
    stage (progressed newer before after).status =
      max (stage before.status) (stage after.status) := by
  unfold progressed itemFinished
  cases hb : before.status <;> cases ha : after.status <;> cases newer <;> simp [hb, ha, stage]

theorem mergeItem_status (newer : Bool) (before after : MarketBatchJobItem) :
    (mergeItem newer before after).status = (progressed newer before after).status := rfl

theorem getElem?_mergeItems (h : previous[index]? = some before)
    (h' : incoming[index]? = some after) :
    (mergeItems newer previous incoming)[index]? = some (mergeItem newer before after) := by
  induction previous generalizing incoming index with
  | nil => simp at h
  | cons first previous ih =>
    cases incoming with
    | nil => simp at h'
    | cons second incoming =>
      cases index with
      | zero => simp_all [mergeItems]
      | succ index => exact ih (by simpa using h) (by simpa using h')

theorem getElem?_mergeItems_left (h : previous[index]? = some before)
    (h' : incoming[index]? = none) :
    (mergeItems newer previous incoming)[index]? = some before := by
  induction previous generalizing incoming index with
  | nil => simp at h
  | cons first previous ih =>
    cases incoming with
    | nil => exact h
    | cons second incoming =>
      cases index with
      | zero => simp at h'
      | succ index => exact ih (by simpa using h) (by simpa using h')

theorem getElem?_mergeItems_right (h : previous[index]? = none)
    (h' : incoming[index]? = some after) :
    (mergeItems newer previous incoming)[index]? = some after := by
  induction previous generalizing incoming index with
  | nil => simpa [mergeItems] using h'
  | cons first previous ih =>
    cases incoming with
    | nil => simp at h'
    | cons second incoming =>
      cases index with
      | zero => simp at h
      | succ index => exact ih (by simpa using h) (by simpa using h')

/-- No row of `next` is behind the row of `job`. -/
def Reaches (job next : MarketBatchJob) : Prop :=
  ∀ (index : ℕ) (item : MarketBatchJobItem), job.items[index]? = some item →
    ∃ item', next.items[index]? = some item' ∧ stage item.status ≤ stage item'.status

theorem Reaches.trans {a b c : MarketBatchJob} (h : Reaches a b) (h' : Reaches b c) :
    Reaches a c := by
  intro index item hitem
  obtain ⟨mid, hmid, hle⟩ := h index item hitem
  obtain ⟨last, hlast, hle'⟩ := h' index mid hmid
  exact ⟨last, hlast, hle.trans hle'⟩

/-- `next` may be shown after `job`: no row has gone back, a terminal one has kept its status,
and a finished job has kept its own. -/
structure Onward (job next : MarketBatchJob) : Prop where
  reaches : Reaches job next
  terminal : ∀ (index : ℕ) (item item' : MarketBatchJobItem), job.items[index]? = some item →
    next.items[index]? = some item' → stage item.status = 2 → item'.status = item.status
  finished : isFinished job = true → next.status = job.status

theorem Onward.refl (job : MarketBatchJob) : Onward job job where
  reaches _ item h := ⟨item, h, le_rfl⟩
  terminal _ item item' h h' _ := by
    obtain rfl := Option.some.inj (h.symm.trans h')
    rfl
  finished _ := rfl

theorem isFinished_congr (h : next.status = job.status) : isFinished next = isFinished job := by
  simp [isFinished, h]

theorem Onward.trans {a b c : MarketBatchJob} (h : Onward a b) (h' : Onward b c) : Onward a c where
  reaches := h.reaches.trans h'.reaches
  terminal index item last hitem hlast hterminal := by
    obtain ⟨mid, hmid, -⟩ := h.reaches index item hitem
    have hkept := h.terminal index item mid hitem hmid hterminal
    rw [← hkept]
    exact h'.terminal index mid last hmid hlast (by rw [hkept, hterminal])
  finished hfin := by
    have hstatus := h.finished hfin
    rw [← hstatus]
    exact h'.finished (by rw [isFinished_congr hstatus, hfin])

/-- Whatever two jobs are merged, the job on the screen goes on. -/
theorem onward_mergeJob (previous incoming : MarketBatchJob) :
    Onward previous (mergeJob previous incoming) where
  reaches index before hbefore := by
    cases hafter : incoming.items[index]? with
    | none => exact ⟨before, getElem?_mergeItems_left hbefore hafter, le_rfl⟩
    | some after =>
      refine ⟨_, getElem?_mergeItems hbefore hafter, ?_⟩
      rw [mergeItem_status, stage_progressed]
      exact le_max_left _ _
  terminal index before merged hbefore hmerged hterminal := by
    cases hafter : incoming.items[index]? with
    | none =>
      obtain rfl := Option.some.inj ((getElem?_mergeItems_left hbefore hafter).symm.trans hmerged)
      rfl
    | some after =>
      obtain rfl := Option.some.inj ((getElem?_mergeItems hbefore hafter).symm.trans hmerged)
      rw [mergeItem_status, progressed_of_finished ((itemFinished_iff before).mpr hterminal)]
  finished hfin := by simp [mergeJob, hfin]

/-- A snapshot that is merged is not ahead of what is shown then. -/
theorem reaches_mergeJob (previous incoming : MarketBatchJob) :
    Reaches incoming (mergeJob previous incoming) := by
  intro index after hafter
  cases hbefore : previous.items[index]? with
  | none => exact ⟨after, getElem?_mergeItems_right hbefore hafter, le_rfl⟩
  | some before =>
    refine ⟨_, getElem?_mergeItems hbefore hafter, ?_⟩
    rw [mergeItem_status, stage_progressed]
    exact le_max_right _ _

end Merging

section Answers
variable {shown next value : MarketBatchJob} {answers : List (Bool × MarketBatchJob)} {id : Uuid}

/-- An answer about the job on the screen is merged into it. -/
theorem updateJob_same (confirmed : Bool) (h : shown.id = value.id) :
    updateJob confirmed (some shown) value = some (mergeJob shown value) := by
  simp [updateJob, h]

theorem mergeJob_id {previous incoming : MarketBatchJob} (h : previous.id = incoming.id) :
    (mergeJob previous incoming).id = previous.id := by
  simp only [mergeJob]
  split_ifs
  · exact h.symm
  · rfl

/-- Answers about one job are merged in the order they arrive. -/
theorem updateJobs_same (h : shown.id = id) (hanswers : ∀ answer ∈ answers, answer.2.id = id) :
    updateJobs (some shown) answers = some ((answers.map Prod.snd).foldl mergeJob shown) := by
  induction answers generalizing shown with
  | nil => rfl
  | cons answer answers ih =>
    rw [List.forall_mem_cons] at hanswers
    have hid : shown.id = answer.2.id := h.trans hanswers.1.symm
    unfold updateJobs at ih ⊢
    rw [List.foldl_cons, updateJob_same _ hid]
    exact ih ((mergeJob_id hid).trans h) hanswers.2

/-- By induction on the values that are merged. -/
theorem onward_foldl (values : List MarketBatchJob) (start : MarketBatchJob) :
    Onward start (values.foldl mergeJob start) := by
  induction values generalizing start with
  | nil => exact .refl start
  | cons value values ih => exact (onward_mergeJob start value).trans (ih (mergeJob start value))

theorem reaches_foldl {values : List MarketBatchJob} {start : MarketBatchJob}
    (h : value ∈ values) : Reaches value (values.foldl mergeJob start) := by
  obtain ⟨earlier, later, rfl⟩ := List.append_of_mem h
  rw [List.foldl_append, List.foldl_cons]
  exact (reaches_mergeJob _ value).trans (onward_foldl later _).reaches

end Answers
end SteamBee.Web
