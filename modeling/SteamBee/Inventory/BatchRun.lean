import SteamBee.Inventory.Batch

/-! What one segment of a batch run does to its job. -/
namespace SteamBee.Inventory
variable {E : Type}

/-- A row moves from queued to running to a terminal status, or skips a stage. -/
def ItemStatus.Moves (a b : ItemStatus) : Prop :=
  a = b ∨ a = .queued ∨ (a = .running ∧ b.isOpen = false)

@[refl] theorem ItemStatus.Moves.refl (a : ItemStatus) : a.Moves a := .inl rfl

theorem ItemStatus.Moves.trans {a b c : ItemStatus} (h : a.Moves b) (h' : b.Moves c) :
    a.Moves c := by
  rcases h with rfl | rfl | ⟨rfl, hb⟩
  · exact h'
  · exact .inr (.inl rfl)
  · rcases h' with rfl | rfl | ⟨rfl, -⟩
    · exact .inr (.inr ⟨rfl, hb⟩)
    · simp [isOpen] at hb
    · simp [isOpen] at hb

/-- Changing one element that fails the test into one that passes it adds one. -/
theorem countP_modify_of_flip {α : Type*} {p : α → Bool} {f : α → α} {l : List α} {i : ℕ} {x : α}
    (hx : l[i]? = some x) (h : p x = false) (h' : p (f x) = true) :
    (l.modify i f).countP p = l.countP p + 1 := by
  induction l generalizing i with
  | nil => simp at hx
  | cons a l ih =>
    cases i with
    | zero =>
      obtain rfl : a = x := by simpa using hx
      simp [h, h']
    | succ i =>
      have hl := ih (i := i) (by simpa using hx)
      simp only [List.modify_succ_cons, List.countP_cons, hl]
      omega

theorem countP_modify_of_same {α : Type*} {p : α → Bool} {f : α → α} {l : List α} {i : ℕ} {x : α}
    (hx : l[i]? = some x) (h : p (f x) = p x) : (l.modify i f).countP p = l.countP p := by
  induction l generalizing i with
  | nil => simp at hx
  | cons a l ih =>
    cases i with
    | zero =>
      obtain rfl : a = x := by simpa using hx
      simp [List.countP_cons, h]
    | succ i =>
      have hl := ih (i := i) (by simpa using hx)
      simp only [List.modify_succ_cons, List.countP_cons, hl]

namespace Job

def Halted (now : ℕ) (job : Job E) : Prop := job.shouldContinue now = false

/-- The job `b` may follow `a` in a run that was at time `now` when it left `a`. -/
structure Evolves (now : ℕ) (a b : Job E) : Prop where
  accountId : b.accountId = a.accountId
  id : b.value.id = a.value.id
  deadline : b.deadline = a.deadline
  stopRequested : a.value.stopRequested = true → b.value.stopRequested = true
  aborted : a.aborted = true → b.aborted = true
  rows : ∀ (i : ℕ) (item : MarketBatchJobItem), b.value.items[i]? = some item →
    ∃ old : MarketBatchJobItem, a.value.items[i]? = some old ∧ old.status.Moves item.status
  started : a.started <+: b.started
  halted : a.Halted now → b.started = a.started
  finished : a.finishedAt.isSome = true → b = a

theorem Evolves.refl (now : ℕ) (job : Job E) : job.Evolves now job where
  accountId := rfl
  id := rfl
  deadline := rfl
  stopRequested hs := hs
  aborted hs := hs
  rows _ item h := ⟨item, h, .refl _⟩
  started := List.prefix_rfl
  halted _ := rfl
  finished _ := rfl

theorem Evolves.keeps_halted {now now' : ℕ} {a b : Job E} (h : a.Evolves now b)
    (hnow : now ≤ now') (ha : a.Halted now) : b.Halted now' := by
  simp only [Halted, shouldContinue, Bool.and_eq_false_iff, Bool.not_eq_false',
    decide_eq_false_iff_not, not_lt, h.deadline] at ha ⊢
  rcases ha with (hs | hc) | hd
  · exact .inl (.inl (h.stopRequested hs))
  · exact .inl (.inr (h.aborted hc))
  · exact .inr (le_trans hd hnow)

theorem Evolves.trans {now now' : ℕ} {a b c : Job E} (h : a.Evolves now b)
    (h' : b.Evolves now' c) (hnow : now ≤ now') : a.Evolves now c where
  accountId := h'.accountId.trans h.accountId
  id := h'.id.trans h.id
  deadline := h'.deadline.trans h.deadline
  stopRequested hs := h'.stopRequested (h.stopRequested hs)
  aborted hs := h'.aborted (h.aborted hs)
  rows i item hi := by
    obtain ⟨item', hi', hm'⟩ := h'.rows i item hi
    obtain ⟨item'', hi'', hm⟩ := h.rows i item' hi'
    exact ⟨item'', hi'', hm.trans hm'⟩
  started := h.started.trans h'.started
  halted ha := (h'.halted (h.keeps_halted hnow ha)).trans (h.halted ha)
  finished ha := by
    obtain rfl := h.finished ha
    exact h'.finished ha

/-- A job none of whose rows may begin any more: its run ended or must end. -/
def Over (now : ℕ) (job : Job E) : Prop := job.finishedAt.isSome = true ∨ job.Halted now

theorem Evolves.started_of_over {now : ℕ} {a b : Job E} (h : a.Evolves now b) (ha : a.Over now) :
    b.started = a.started := by
  rcases ha with hf | hh
  · rw [h.finished hf]
  · exact h.halted hh

theorem Evolves.keeps_over {now now' : ℕ} {a b : Job E} (h : a.Evolves now b) (hnow : now ≤ now')
    (ha : a.Over now) : b.Over now' := by
  rcases ha with hf | hh
  · rw [h.finished hf]
    exact .inl hf
  · exact .inr (h.keeps_halted hnow hh)

theorem evolves_finish {now : ℕ} {job : Job E} (h : job.finishedAt = none) :
    job.Evolves now (job.finish now) where
  accountId := rfl
  id := rfl
  deadline := rfl
  stopRequested hs := hs
  aborted hs := hs
  rows i item hi := by
    simp only [finish, List.getElem?_map, Option.map_eq_some_iff] at hi
    obtain ⟨old, hold, rfl⟩ := hi
    refine ⟨old, hold, ?_⟩
    split_ifs with ho
    · rcases (by simpa [ItemStatus.isOpen] using ho : old.status = .queued ∨ old.status = .running)
        with hq | hr
      · exact .inr (.inl hq)
      · exact .inr (.inr ⟨hr, rfl⟩)
    · exact .refl _
  started := List.prefix_rfl
  halted _ := rfl
  finished hf := by simp [h] at hf

theorem evolves_requestStop {now : ℕ} {job : Job E} (h : job.finishedAt = none) :
    job.Evolves now job.requestStop where
  accountId := rfl
  id := rfl
  deadline := rfl
  stopRequested _ := rfl
  aborted hs := hs
  rows _ item hi := ⟨item, hi, .refl _⟩
  started := List.prefix_rfl
  halted _ := rfl
  finished hf := by simp [h] at hf

theorem evolves_waitRow {now index : ℕ} {job : Job E} (h : job.finishedAt = none) :
    job.Evolves now (job.waitRow now index) where
  accountId := rfl
  id := rfl
  deadline := rfl
  stopRequested hs := hs
  aborted hs := hs
  rows _ item hi := ⟨item, hi, .refl _⟩
  started := List.prefix_rfl
  halted _ := rfl
  finished hf := by simp [h] at hf

theorem beginRow_items (now index : ℕ) (job : Job E) :
    (job.beginRow now index).value.items =
      job.value.items.modify index fun item => { item with status := .running } := rfl

/-- A row begins only in a job that may continue. -/
theorem evolves_beginRow {now index : ℕ} {job : Job E} {item : MarketBatchJobItem}
    (h : job.finishedAt = none) (hc : job.shouldContinue now = true)
    (hitem : job.value.items[index]? = some item) (hq : item.status = .queued) :
    job.Evolves now (job.beginRow now index) where
  accountId := rfl
  id := rfl
  deadline := rfl
  stopRequested hs := hs
  aborted hs := hs
  rows i new hi := by
    simp only [beginRow, List.getElem?_modify, Option.map_eq_map, Option.map_eq_some_iff] at hi
    obtain ⟨old, hold, rfl⟩ := hi
    refine ⟨old, hold, ?_⟩
    split_ifs with hii
    · subst hii
      obtain rfl : old = item := Option.some.inj (hold.symm.trans hitem)
      exact .inr (.inl hq)
    · exact .refl _
  started := List.prefix_append _ _
  halted hh := by simp [Halted, hc] at hh
  finished hf := by simp [h] at hf

theorem isOpen_resultStatus (kind : MarketKind) (result : MarketActionResult) :
    (resultStatus kind result).isOpen = false := by
  unfold resultStatus
  split
  · rfl
  · cases kind
    · dsimp only; split <;> rfl
    · rfl

def settledItem (kind : MarketKind) (outcome : Except ActionError MarketActionResult)
    (item : MarketBatchJobItem) : MarketBatchJobItem :=
  match outcome with
  | .ok result =>
    { item with
      listingId := result.listingId.or item.listingId
      status := resultStatus kind result
      message := some result.message }
  | .error detail =>
    { item with
      status := if detail.notSubmitted then .skipped else .failed
      message := some <| (detail.message.map slice500).getD
        "This market item could not be processed." }

theorem isOpen_settledItem (kind : MarketKind) (outcome : Except ActionError MarketActionResult)
    (item : MarketBatchJobItem) : (settledItem kind outcome item).status.isOpen = false := by
  cases outcome with
  | ok result => exact isOpen_resultStatus kind result
  | error detail => simp only [settledItem]; split <;> rfl

theorem settleRow_items (now index : ℕ) (outcome : Except ActionError MarketActionResult)
    (job : Job E) : (job.settleRow now index outcome).value.items =
      job.value.items.modify index (settledItem job.value.kind outcome) := by
  cases outcome <;> rfl

theorem evolves_settleRow {now index : ℕ} {outcome : Except ActionError MarketActionResult}
    {job : Job E} {item : MarketBatchJobItem} (h : job.finishedAt = none)
    (hitem : job.value.items[index]? = some item) (hr : item.status = .running) :
    job.Evolves now (job.settleRow now index outcome) where
  accountId := by cases outcome <;> rfl
  id := by cases outcome <;> rfl
  deadline := by cases outcome <;> rfl
  stopRequested hs := by cases outcome <;> simp [settleRow, hs]
  aborted hs := by cases outcome <;> exact hs
  rows i new hi := by
    simp only [settleRow_items, List.getElem?_modify, Option.map_eq_map,
      Option.map_eq_some_iff] at hi
    obtain ⟨old, hold, rfl⟩ := hi
    refine ⟨old, hold, ?_⟩
    split_ifs with hii
    · subst hii
      obtain rfl : old = item := Option.some.inj (hold.symm.trans hitem)
      exact .inr (.inr ⟨hr, isOpen_settledItem _ _ _⟩)
    · exact .refl _
  started := by cases outcome <;> exact List.prefix_rfl
  halted _ := by cases outcome <;> rfl
  finished hf := by simp [h] at hf

def Settled (job : Job E) (i : ℕ) : Prop :=
  ∀ (j : ℕ) (item : MarketBatchJobItem), job.value.items[j]? = some item → j < i →
    item.status.isOpen = false

def Untouched (job : Job E) (i : ℕ) : Prop :=
  ∀ (j : ℕ) (item : MarketBatchJobItem) (command : BatchCommand E),
    job.value.items[j]? = some item → job.commands[j]? = some command → i ≤ j →
      item.status = if command.execute.isSome then .queued else .skipped

structure Tidy (job : Job E) : Prop where
  length : job.value.items.length = job.commands.length
  counted : job.value.completedCount = job.value.items.countP fun item => !item.status.isOpen
  ordered : job.started.Pairwise (· < ·)

structure Between (job : Job E) (i : ℕ) : Prop extends Tidy job where
  unfinished : job.finishedAt = none
  settled : job.Settled i
  untouched : job.Untouched i
  bound : ∀ k ∈ job.started, k < i

/-- A suspended run: at the execution of a row, at the wait before one, or over. -/
structure Suspended (job : Job E) : Prop extends Tidy job where
  phase : match job.suspension with
    | .executing i => job.finishedAt = none ∧ job.Settled i ∧ job.Untouched (i + 1) ∧
        (∀ k ∈ job.started, k < i + 1) ∧
        ∃ item, job.value.items[i]? = some item ∧ item.status = .running
    | .waiting i => job.Between i ∧ ∃ item, job.value.items[i]? = some item ∧
        item.status = .queued
    | .done => job.finishedAt.isSome = true ∧ ∀ item ∈ job.value.items, item.status.isOpen = false

theorem Suspended.unfinished {job : Job E} (h : job.Suspended)
    (hs : job.suspension ≠ .done) : job.finishedAt = none := by
  have hphase := h.phase
  cases hsus : job.suspension with
  | executing i => rw [hsus] at hphase; exact hphase.1
  | waiting i => rw [hsus] at hphase; exact hphase.1.unfinished
  | done => exact absurd hsus hs

theorem Suspended.closed {job : Job E} (h : job.Suspended) (hf : job.finishedAt.isSome = true) :
    ∀ item ∈ job.value.items, item.status.isOpen = false := by
  have hphase := h.phase
  cases hsus : job.suspension with
  | executing i =>
    rw [hsus] at hphase
    simp [hphase.1] at hf
  | waiting i =>
    rw [hsus] at hphase
    simp [hphase.1.unfinished] at hf
  | done =>
    rw [hsus] at hphase
    exact hphase.2

theorem suspended_finish {now : ℕ} {job : Job E} (h : job.Tidy) : (job.finish now).Suspended where
  length := by simpa [finish] using h.length
  counted := rfl
  ordered := h.ordered
  phase := by
    refine ⟨rfl, fun item hitem => ?_⟩
    simp only [finish, List.mem_map] at hitem
    obtain ⟨old, -, rfl⟩ := hitem
    split_ifs with ho
    · rfl
    · simpa using ho

theorem Tidy.requestStop {job : Job E} (h : job.Tidy) : job.requestStop.Tidy :=
  ⟨h.length, h.counted, h.ordered⟩

theorem Between.item {job : Job E} {i : ℕ} (h : job.Between i) {command : BatchCommand E}
    (hc : job.commands[i]? = some command) :
    ∃ item, job.value.items[i]? = some item ∧
      item.status = if command.execute.isSome then .queued else .skipped := by
  have hlt : i < job.value.items.length := by
    rw [h.length]
    exact (List.getElem?_eq_some_iff.mp hc).1
  exact ⟨_, List.getElem?_eq_getElem hlt,
    h.untouched i _ command (List.getElem?_eq_getElem hlt) hc le_rfl⟩

/-- A row without `execute` is passed over. -/
theorem Between.skip {job : Job E} {i : ℕ} (h : job.Between i) {command : BatchCommand E}
    (hc : job.commands[i]? = some command) (hnone : command.execute = none) :
    job.Between (i + 1) where
  toTidy := h.toTidy
  unfinished := h.unfinished
  settled j item hj hlt := by
    rcases Nat.lt_succ_iff_lt_or_eq.mp hlt with hlt | rfl
    · exact h.settled j item hj hlt
    · have hs := h.untouched j item command hj hc le_rfl
      rw [hs, hnone]; rfl
  untouched j item command hj hcj hle := h.untouched j item command hj hcj (by omega)
  bound k hk := (h.bound k hk).trans (Nat.lt_succ_self i)

theorem suspended_waitRow {now i : ℕ} {job : Job E} (h : job.Between i)
    {item : MarketBatchJobItem} (hitem : job.value.items[i]? = some item)
    (hq : item.status = .queued) : (job.waitRow now i).Suspended where
  length := h.length
  counted := h.counted
  ordered := h.ordered
  phase := ⟨⟨⟨h.length, h.counted, h.ordered⟩, h.unfinished, h.settled, h.untouched, h.bound⟩,
    item, hitem, hq⟩

theorem suspended_beginRow {now i : ℕ} {job : Job E} (h : job.Between i)
    {item : MarketBatchJobItem} (hitem : job.value.items[i]? = some item)
    (hq : item.status = .queued) : (job.beginRow now i).Suspended where
  length := by simpa [beginRow] using h.length
  counted := by
    have hsame := countP_modify_of_same (p := fun item : MarketBatchJobItem => !item.status.isOpen)
      (f := fun item => { item with status := .running }) hitem (by simp [hq, ItemStatus.isOpen])
    exact h.counted.trans hsame.symm
  ordered := by
    simp only [beginRow, List.pairwise_append, List.pairwise_singleton, List.mem_singleton,
      forall_eq, true_and]
    exact ⟨h.ordered, h.bound⟩
  phase := by
    refine ⟨h.unfinished, ?_, ?_, ?_, ⟨{ item with status := .running }, ?_, rfl⟩⟩
    · intro j new hj hlt
      have hne : i ≠ j := by omega
      rw [beginRow_items, List.getElem?_modify_ne _ _ hne] at hj
      exact h.settled j new hj hlt
    · intro j new command hj hcj hle
      have hne : i ≠ j := by omega
      rw [beginRow_items, List.getElem?_modify_ne _ _ hne] at hj
      exact h.untouched j new command hj hcj (by omega)
    · intro k hk
      rcases List.mem_append.mp hk with hk | hk
      · exact (h.bound k hk).trans (Nat.lt_succ_self i)
      · rw [List.mem_singleton.mp hk]; exact Nat.lt_succ_self i
    · simp [beginRow, hitem]

/-- The loop runs to a suspension, whatever rows are left. -/
theorem runRows_spec (now : ℕ) {rest : List (BatchCommand E)} {i : ℕ} {job : Job E}
    (h : job.Between i) (hrest : rest = job.commands.drop i) :
    (job.runRows now rest i).Suspended ∧ job.Evolves now (job.runRows now rest i) := by
  induction rest generalizing i with
  | nil => exact ⟨suspended_finish h.toTidy, evolves_finish h.unfinished⟩
  | cons command rest ih =>
    have hc : job.commands[i]? = some command := by
      rw [← List.head?_drop, ← hrest, List.head?_cons]
    have hnext : rest = job.commands.drop (i + 1) := by
      rw [← List.tail_drop, ← hrest, List.tail_cons]
    simp only [runRows]
    cases he : command.execute with
    | none => exact ih (h.skip hc he) hnext
    | some e =>
      obtain ⟨item, hitem, hstatus⟩ := h.item hc
      rw [he, Option.isSome_some, if_pos rfl] at hstatus
      dsimp only
      split_ifs with hcont hsub
      · exact ⟨suspended_waitRow h hitem hstatus, evolves_waitRow h.unfinished⟩
      · exact ⟨suspended_beginRow h hitem hstatus,
          evolves_beginRow h.unfinished hcont hitem hstatus⟩
      · exact ⟨suspended_finish h.toTidy.requestStop,
          (evolves_requestStop h.unfinished).trans (evolves_finish h.unfinished) le_rfl⟩

/-- Settling the running row moves the run past it. -/
theorem between_settleRow (now : ℕ) (outcome : Except ActionError MarketActionResult) {i : ℕ}
    {job : Job E} (h : job.Suspended) (hi : job.suspension = .executing i) :
    (job.settleRow now i outcome).Between (i + 1) ∧
      job.Evolves now (job.settleRow now i outcome) := by
  have hphase := h.phase
  rw [hi] at hphase
  obtain ⟨hf, hset, hun, hbound, item, hitem, hrun⟩ := hphase
  refine ⟨⟨⟨?_, ?_, ?_⟩, ?_, ?_, ?_, ?_⟩, evolves_settleRow hf hitem hrun⟩
  · rw [settleRow_items, List.length_modify, h.length]
    cases outcome <;> rfl
  · have hflip := countP_modify_of_flip
      (p := fun item : MarketBatchJobItem => !item.status.isOpen)
      (f := settledItem job.value.kind outcome) hitem
      (by simp [hrun, ItemStatus.isOpen]) (by simp [isOpen_settledItem])
    rw [settleRow_items, hflip, ← h.counted]
    cases outcome <;> rfl
  · cases outcome <;> exact h.ordered
  · cases outcome <;> exact hf
  · intro j new hj hlt
    by_cases hij : i = j
    · subst hij
      rw [settleRow_items, List.getElem?_modify_eq, hitem] at hj
      obtain rfl := Option.some.inj hj
      exact isOpen_settledItem _ _ _
    · rw [settleRow_items, List.getElem?_modify_ne _ _ hij] at hj
      exact hset j new hj (by omega)
  · intro j new command hj hcj hle
    have hij : i ≠ j := by omega
    rw [settleRow_items, List.getElem?_modify_ne _ _ hij] at hj
    refine hun j new command hj ?_ hle
    cases outcome <;> exact hcj
  · cases outcome <;> exact hbound

theorem settleRow_commands {now i : ℕ} {outcome : Except ActionError MarketActionResult}
    {job : Job E} : (job.settleRow now i outcome).commands = job.commands := by
  cases outcome <;> rfl

/-- A settled execution leaves the run suspended again. -/
theorem executed_spec (now : ℕ) (outcome : Except ActionError MarketActionResult) {job : Job E}
    (h : job.Suspended) : (job.executed now outcome).Suspended ∧
      job.Evolves now (job.executed now outcome) := by
  unfold executed
  split
  next i hi =>
    obtain ⟨hb, he⟩ := between_settleRow now outcome h hi
    dsimp only
    split_ifs with hstop
    · exact ⟨suspended_finish hb.toTidy, he.trans (evolves_finish hb.unfinished) le_rfl⟩
    · obtain ⟨hs, he'⟩ := runRows_spec now hb rfl
      rw [settleRow_commands] at hs he'
      rw [settleRow_commands]
      exact ⟨hs, he.trans he' le_rfl⟩
  next => exact ⟨h, .refl now job⟩

theorem waited_spec (now : ℕ) (resolved : Bool) {job : Job E} (h : job.Suspended) :
    (job.waited now resolved).Suspended ∧ job.Evolves now (job.waited now resolved) := by
  unfold waited
  split
  next i hi =>
    have hphase := h.phase
    rw [hi] at hphase
    obtain ⟨hb, item, hitem, hq⟩ := hphase
    split_ifs with hgo
    · have hcont : job.shouldContinue now = true := by simp_all
      exact ⟨suspended_beginRow hb hitem hq, evolves_beginRow hb.unfinished hcont hitem hq⟩
    · exact ⟨suspended_finish hb.toTidy.requestStop,
        (evolves_requestStop hb.unfinished).trans (evolves_finish hb.unfinished) le_rfl⟩
  next => exact ⟨h, .refl now job⟩

end Job
end SteamBee.Inventory
