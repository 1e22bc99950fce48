import SteamBee.Data.Table
import SteamBee.Inventory.Contracts
import SteamBee.Text.Search
import SteamBee.Transition.Machine

/-! The batch queue: a confirmed batch is a bounded sequence of rows, and the
runner is suspended at every call of `execute` and at every wait between rows.
`E` stands for the closures that execute a row. -/
namespace SteamBee.Inventory
variable {E : Type}

structure BatchCommand (E : Type) where
  row : MarketBatchPreviewItem
  execute : Option E

structure Prepared (E : Type) where
  accountId : AccountId
  actor : Actor
  preview : MarketBatchPreview
  commands : List (BatchCommand E)

/-- The promise a `run` awaits: the execution of a row, or the delay before one. -/
inductive Suspension where
  | executing (index : ℕ)
  | waiting (index : ℕ)
  | done
  deriving DecidableEq, Repr

/-- A job together with the variables of its `run`. `started` lists the rows
whose `execute` has been called, in the order of the calls. -/
structure Job (E : Type) where
  accountId : AccountId
  actor : Actor
  value : MarketBatchJob
  aborted : Bool
  finishedAt : Option ℕ
  commands : List (BatchCommand E)
  delaySeconds : ℕ
  deadline : ℕ
  submitted : Bool
  suspension : Suspension
  started : List ℕ

/-- The statuses a row leaves again. -/
def ItemStatus.isOpen (s : ItemStatus) : Bool := s == .queued || s == .running

/-- `String.prototype.slice(0, 500)`. -/
def slice500 (s : String) : String := String.ofList (Text.sliceUnits 500 s.toList)

namespace Job

def shouldContinue (now : ℕ) (job : Job E) : Bool :=
  !job.value.stopRequested && !job.aborted && decide (now < job.deadline)

def requestStop (job : Job E) : Job E :=
  { job with value := { job.value with stopRequested := true } }

/-- Rows that were not submitted are skipped and the counters are recomputed. -/
def finish (now : ℕ) (job : Job E) : Job E :=
  let items := job.value.items.map fun item =>
    if item.status.isOpen then
      { item with status := .skipped, message := some "Stopped before this item was submitted." }
    else item
  { job with
    value := { job.value with
      items
      completedCount := items.countP fun item => !item.status.isOpen
      status := if job.value.stopRequested then .stopped else .completed
      nextActionAt := none
      updatedAt := now }
    finishedAt := some now
    suspension := .done }

def waitRow (now index : ℕ) (job : Job E) : Job E :=
  { job with
    value := { job.value with
      status := .waiting
      nextActionAt := some (now + job.delaySeconds * 1000)
      updatedAt := now }
    suspension := .waiting index }

def beginRow (now index : ℕ) (job : Job E) : Job E :=
  { job with
    value := { job.value with
      items := job.value.items.modify index fun item => { item with status := .running }
      status := .running
      nextActionAt := none
      updatedAt := now }
    suspension := .executing index
    started := job.started ++ [index] }

/-- The loop of `run` from row `index` on, up to its next suspension. -/
def runRows (now : ℕ) : List (BatchCommand E) → ℕ → Job E → Job E
  | [], _, job => job.finish now
  | command :: rest, index, job =>
    match command.execute with
    | none => runRows now rest (index + 1) job
    | some _ =>
      if job.shouldContinue now then
        if job.submitted then job.waitRow now index else job.beginRow now index
      else job.requestStop.finish now

def resultStatus (kind : MarketKind) (result : MarketActionResult) : ItemStatus :=
  if !result.ok then .failed
  else match kind with
    | .cancel => .cancelled
    | .sale => if result.pendingConfirmation then .pendingConfirmation else .listed

/-- Record what `execute` returned or threw. -/
def settleRow (now index : ℕ) (outcome : Except ActionError MarketActionResult)
    (job : Job E) : Job E :=
  match outcome with
  | .ok result =>
    { job with
      value := { job.value with
        items := job.value.items.modify index fun item =>
          { item with
            listingId := result.listingId.or item.listingId
            status := resultStatus job.value.kind result
            message := some result.message }
        completedCount := job.value.completedCount + 1
        updatedAt := now }
      submitted := true }
  | .error detail =>
    { job with
      value := { job.value with
        items := job.value.items.modify index fun item =>
          { item with
            status := if detail.notSubmitted then .skipped else .failed
            message := some <| (detail.message.map slice500).getD
              "This market item could not be processed." }
        completedCount := job.value.completedCount + 1
        updatedAt := now
        stopRequested := job.value.stopRequested || detail.stopBatch ||
          detail.statusCode == some 429 }
      submitted := !detail.notSubmitted }

def executed (now : ℕ) (outcome : Except ActionError MarketActionResult) (job : Job E) : Job E :=
  match job.suspension with
  | .executing index =>
    let job := job.settleRow now index outcome
    if job.value.stopRequested then job.finish now
    else job.runRows now (job.commands.drop (index + 1)) (index + 1)
  | _ => job

/-- `run` resumed by the promise of `wait`, which an abort rejects. -/
def waited (now : ℕ) (resolved : Bool) (job : Job E) : Job E :=
  match job.suspension with
  | .waiting index =>
    if resolved && job.shouldContinue now then job.beginRow now index
    else job.requestStop.finish now
  | _ => job

end Job

/-- The queue with its clock and the number of identifiers drawn so far. -/
structure MarketBatchQueue (E : Type) where
  now : ℕ
  drawn : Uuid
  previews : Table Uuid (Prepared E)
  jobs : Table Uuid (Job E)
  active : Table AccountId Uuid

namespace MarketBatchQueue

def empty : MarketBatchQueue E := ⟨0, 0, ∅, ∅, ∅⟩

/-- Write back a job after a segment of its `run`; `finish` releases the account. -/
def put (q : MarketBatchQueue E) (id : Uuid) (job : Job E) : MarketBatchQueue E :=
  { q with
    jobs := q.jobs.modify id fun _ => job
    active :=
      if job.finishedAt.isSome && q.active.lookup job.accountId == some id then
        q.active.erase job.accountId
      else q.active }

/-- Drop expired previews and jobs finished an hour ago, then enforce the bounds. -/
def prune (q : MarketBatchQueue E) : Except AppError Unit × MarketBatchQueue E :=
  let q := { q with
    previews := q.previews.retain fun _ entry => decide (q.now < entry.preview.expiresAt)
    jobs := q.jobs.retain fun _ job =>
      !job.finishedAt.any fun finishedAt => decide (finishedAt + 60 * 60000 ≤ q.now) }
  if 200 ≤ q.previews.size ∨ 200 ≤ q.jobs.size then
    (.error ⟨"Too many market batches. Wait before creating another batch.", 429, .rateLimited⟩, q)
  else (.ok (), q)

def assertIdle (q : MarketBatchQueue E) (accountId : AccountId) : Except AppError Unit :=
  if (q.active.lookup accountId).isSome then
    .error ⟨"A market batch is already running for this account. Stop it before starting another action.",
      409, .conflict⟩
  else .ok ()

def create (q : MarketBatchQueue E) (accountId : AccountId) (actor : Actor) (kind : MarketKind)
    (currency : Option MarketCurrency) (commands : List (BatchCommand E)) (delaySeconds : ℕ) :
    Except AppError MarketBatchPreview × MarketBatchQueue E :=
  match q.assertIdle accountId with
  | .error e => (.error e, q)
  | .ok () =>
    match q.prune with
    | (.error e, q) => (.error e, q)
    | (.ok (), q) =>
      if commands.length = 0 ∨ 50 < commands.length then
        (.error ⟨"Choose between one and 50 distinct items.", 400, .validation⟩, q)
      else
        let preview : MarketBatchPreview := {
          token := q.drawn
          expiresAt := q.now + 2 * 60000
          kind, currency
          items := commands.map BatchCommand.row
          delaySeconds
          totalBuyerPays :=
            commands.foldl (fun sum command => sum + command.row.buyerPays.getD 0) 0
          totalSellerReceives :=
            commands.foldl (fun sum command => sum + command.row.sellerReceives.getD 0) 0 }
        (.ok preview, { q with
          drawn := q.drawn + 1
          previews := (q.previews.retain fun _ entry =>
            !(entry.accountId == accountId && entry.actor == actor)).insert preview.token
              ⟨accountId, actor, preview, commands⟩ })

/-- The job of a confirmed preview, before its `run` starts. -/
def newJob (q : MarketBatchQueue E) (accountId : AccountId) (actor : Actor)
    (entry : Prepared E) : Job E where
  accountId
  actor
  value := {
    id := q.drawn
    kind := entry.preview.kind
    status := .running
    createdAt := q.now
    updatedAt := q.now
    nextActionAt := none
    items := entry.commands.map fun command => {
      assetId := command.row.assetId
      variantId := command.row.variantId
      listingId := command.row.listingId
      name := command.row.name
      quantity := command.row.quantity
      status := if command.execute.isSome then .queued else .skipped
      message := command.row.message }
    completedCount := entry.commands.countP fun command => !command.execute.isSome
    totalCount := entry.commands.length
    stopRequested := false }
  aborted := false
  finishedAt := none
  commands := entry.commands
  delaySeconds := entry.preview.delaySeconds
  deadline := q.now + 60 * 60000
  submitted := false
  suspension := .done
  started := []

def launch (q : MarketBatchQueue E) (accountId : AccountId) (actor : Actor)
    (entry : Prepared E) : Job E × MarketBatchQueue E :=
  let job := q.newJob accountId actor entry
  let started := job.runRows q.now job.commands 0
  (started, { q with
    drawn := q.drawn + 1
    jobs := q.jobs.insert q.drawn job
    active := q.active.insert accountId q.drawn }.put q.drawn started)

def confirm (q : MarketBatchQueue E) (accountId : AccountId) (actor : Actor) (token : Uuid) :
    Except AppError MarketBatchJob × MarketBatchQueue E :=
  match q.previews.lookup token with
  | none => (.error ⟨"Batch preview is invalid. Create a new preview.", 409, .conflict⟩, q)
  | some entry =>
    if entry.accountId ≠ accountId ∨ entry.actor ≠ actor then
      (.error ⟨"Batch preview is invalid. Create a new preview.", 409, .conflict⟩, q)
    else
      let q := { q with previews := q.previews.erase token }
      if entry.preview.expiresAt ≤ q.now then
        (.error ⟨"Batch preview expired. Review a fresh batch before confirming.", 409, .conflict⟩, q)
      else if !entry.commands.any fun command => command.execute.isSome then
        (.error ⟨"No eligible items are available for this batch. Review its item messages and price settings.",
          409, .conflict⟩, q)
      else
        match q.assertIdle accountId with
        | .error e => (.error e, q)
        | .ok () =>
          match q.prune with
          | (.error e, q) => (.error e, q)
          | (.ok (), q) =>
            let (job, q) := q.launch accountId actor entry
            (.ok job.value, q)

def get (q : MarketBatchQueue E) (accountId : AccountId) (actor : Actor) (jobId : Uuid) :
    Except AppError MarketBatchJob :=
  match q.jobs.lookup jobId with
  | none => .error ⟨"Market batch was not found.", 404, .notFound⟩
  | some job =>
    if job.accountId ≠ accountId ∨ job.actor ≠ actor ∨
        job.finishedAt.any (fun finishedAt => decide (finishedAt + 60 * 60000 ≤ q.now)) then
      .error ⟨"Market batch was not found.", 404, .notFound⟩
    else .ok job.value

def current (q : MarketBatchQueue E) (accountId : AccountId) (actor : Actor) :
    Option MarketBatchJob := do
  let id ← q.active.lookup accountId
  let job ← q.jobs.lookup id
  if job.actor = actor then some job.value else none

/-- Ask an unfinished job to stop and abort its wait. -/
def halt (now : ℕ) (job : Job E) : Job E :=
  { job with
    value := { job.value with stopRequested := true, updatedAt := now }
    aborted := true }

def stop (q : MarketBatchQueue E) (accountId : AccountId) (actor : Actor) (jobId : Uuid) :
    Except AppError MarketBatchJob × MarketBatchQueue E :=
  match q.get accountId actor jobId with
  | .error e => (.error e, q)
  | .ok _ =>
    let q := { q with
      jobs := q.jobs.modify jobId fun job =>
        if job.finishedAt.isNone then halt q.now job else job }
    (q.get accountId actor jobId, q)

/-- Unconfirmed previews are invalidated too: a later confirm must not resurrect
a stopped account. -/
def stopAccount (q : MarketBatchQueue E) (accountId : AccountId) : MarketBatchQueue E :=
  { q with
    previews := q.previews.retain fun _ entry => entry.accountId != accountId
    jobs :=
      match q.active.lookup accountId with
      | none => q.jobs
      | some jobId => q.jobs.modify jobId (halt q.now) }

def shutdown (q : MarketBatchQueue E) : MarketBatchQueue E :=
  { q.active.keys.foldl stopAccount q with previews := ∅ }

def executed (q : MarketBatchQueue E) (jobId : Uuid)
    (outcome : Except ActionError MarketActionResult) : Option (MarketBatchQueue E) := do
  let job ← q.jobs.lookup jobId
  let .executing _ := job.suspension | none
  some (q.put jobId (job.executed q.now outcome))

def waited (q : MarketBatchQueue E) (jobId : Uuid) (resolved : Bool) :
    Option (MarketBatchQueue E) := do
  let job ← q.jobs.lookup jobId
  let .waiting _ := job.suspension | none
  some (q.put jobId (job.waited q.now resolved))

end MarketBatchQueue

/-- The calls of the queue, the promises its runs await, and the clock. -/
inductive QueueAction (E : Type) where
  | create (accountId : AccountId) (actor : Actor) (kind : MarketKind)
      (currency : Option MarketCurrency) (commands : List (BatchCommand E)) (delaySeconds : ℕ)
  | confirm (accountId : AccountId) (actor : Actor) (token : Uuid)
  | stop (accountId : AccountId) (actor : Actor) (jobId : Uuid)
  | stopAccount (accountId : AccountId)
  | shutdown
  | executed (jobId : Uuid) (outcome : Except ActionError MarketActionResult)
  | waited (jobId : Uuid) (resolved : Bool)
  | tick (elapsed : ℕ)

/-- The queue under every order of calls, settled promises and passing time. -/
def queueMachine (E : Type) : Transition.Machine (MarketBatchQueue E) (QueueAction E) where
  Starts q := q = .empty
  next q
    | .create accountId actor kind currency commands delaySeconds =>
      some (q.create accountId actor kind currency commands delaySeconds).2
    | .confirm accountId actor token => some (q.confirm accountId actor token).2
    | .stop accountId actor jobId => some (q.stop accountId actor jobId).2
    | .stopAccount accountId => some (q.stopAccount accountId)
    | .shutdown => some q.shutdown
    | .executed jobId outcome => q.executed jobId outcome
    | .waited jobId resolved => q.waited jobId resolved
    | .tick elapsed => some { q with now := q.now + elapsed }

end SteamBee.Inventory
