import Mathlib.Data.Int.Notation
import Mathlib.Logic.Function.Basic
import SteamBee.Transition.Program

/-! Restoring a backup: the critical files of the data directory, the instance guard
with its restore fence, and `restoreBackup` as a program whose file operations may fail. -/
namespace SteamBee.Restore

abbrev OwnerId := ℕ

inductive FileName where
  | database | wal | shm | journal | secret
  deriving DecidableEq, Repr

/-- What `lstat` and `existsSync` tell of a directory entry: a regular file with one
link, something else that exists, or a symbolic link to nothing. -/
inductive Kind where
  | regular | irregular | dangling
  deriving DecidableEq, Repr

structure Node where
  inode : ℕ
  kind : Kind
  deriving DecidableEq, Repr

abbrev Entries := FileName → Option Node

inductive Dir where
  | data | staging | rollback
  deriving DecidableEq, Repr

inductive OwnerKind where
  | runtime | restore
  deriving DecidableEq, Repr

/-- A row of `instance_guard`, as it may be found; `none` stands for a text that is
empty or not one of the two kinds. -/
structure GuardRow where
  singleton : ℤ
  ownerId : Option OwnerId
  ownerKind : Option OwnerKind
  pid : ℤ
  acquiredAt : ℤ
  restoreRequired : ℤ
  deriving DecidableEq, Repr

/-- The guard file: not there, without a schema, with its table, or not fit for use
(no private regular file, an unsafe sidecar, another schema or a failed check). -/
inductive GuardFile where
  | missing
  | blank
  | table (rows : List GuardRow)
  | unusable
  deriving DecidableEq, Repr

def maxSafeInteger : ℤ := 9007199254740991

def GuardRow.isValid (r : GuardRow) : Bool :=
  r.singleton == 1 && r.ownerId.isSome && r.ownerKind.isSome && decide (0 < r.pid) &&
    decide (r.pid ≤ maxSafeInteger) && decide (-maxSafeInteger ≤ r.acquiredAt) &&
    decide (r.acquiredAt ≤ maxSafeInteger) && (r.restoreRequired == 0 || r.restoreRequired == 1)

/-- The data directory and the operating system's lock on the guard. `original` records
the critical files when the last restore acquired the guard, or as a server left them
since, and `replacement` the files that this restore staged. -/
structure Disk where
  data : Entries
  staging : Option Entries
  rollback : Option Entries
  nextInode : ℕ
  guard : GuardFile
  lock : Option OwnerId
  original : Entries
  replacement : Entries

inductive Op where
  | assertRestoreRoot
  | acquire (kind : OwnerKind) (pid acquiredAt : ℤ)
  | readBackup
  | existsDir (dir : Dir)
  | existsFile (name : FileName)
  | mkdir (dir : Dir)
  | write (name : FileName)
  | validateSecret
  | validateDatabase
  | identity (dir : Dir) (name : FileName)
  | rename (src dst : Dir) (name : FileName)
  | remove (dir : Dir)
  | completeRestore
  | release
  deriving DecidableEq, Repr

abbrev Res : Op → Type
  | .existsDir _ | .existsFile _ => Bool
  | .identity _ _ => ℕ
  | _ => Unit

inductive FileError where
  | io (op : Op)
  | guard (message : String)
  | newerMigration (migrationId : String)
  | leftovers
  | notRegular (name : FileName)
  | identityChanged
  | rollbackIdentity
  deriving DecidableEq, Repr

/-- What `restoreBackup` throws: an error after which it cleaned up as far as it could,
or `IncompleteRestoreRollbackError`. -/
inductive RestoreError where
  | failed (error : FileError)
  | incompleteRollback (installError rollbackError : FileError)
  deriving DecidableEq, Repr

namespace Disk

def entries (d : Disk) : Dir → Option Entries
  | .data => some d.data
  | .staging => d.staging
  | .rollback => d.rollback

def entry (d : Disk) (dir : Dir) (name : FileName) : Option Node :=
  (d.entries dir).bind fun entries => entries name

def setEntry (d : Disk) (dir : Dir) (name : FileName) (node : Option Node) : Disk :=
  match dir with
  | .data => { d with data := Function.update d.data name node }
  | .staging => { d with staging := d.staging.map fun e => Function.update e name node }
  | .rollback => { d with rollback := d.rollback.map fun e => Function.update e name node }

def setDir (d : Disk) (dir : Dir) (entries : Option Entries) : Disk :=
  match dir with
  | .data => { d with data := entries.getD d.data }
  | .staging => { d with staging := entries }
  | .rollback => { d with rollback := entries }

end Disk

/-- `existsSync` follows links. -/
def Node.exists (node : Node) : Bool := node.kind != .dangling

/-- The files of a directory that `existsSync` sees. -/
def Entries.file (entries : Entries) (name : FileName) : Option Node :=
  (entries name).filter Node.exists

namespace Disk

def fence (d : Disk) : Bool :=
  match d.guard with
  | .table rows => rows.any fun r => r.restoreRequired == 1
  | _ => false

/-- `acquire`, up to its durable commit. -/
def acquire (d : Disk) (id : OwnerId) (kind : OwnerKind) (pid acquiredAt : ℤ) :
    Except FileError Disk :=
  let taken : Disk := { d with
    guard := .table [⟨1, some id, some kind, pid, acquiredAt, if kind = .restore then 1 else 0⟩]
    lock := some id
    original := if kind = .restore then d.data else d.original
    replacement := if kind = .restore then fun _ => none else d.replacement }
  if d.lock.isSome then .error (.guard "database is locked")
  else match d.guard with
    | .unusable => .error (.guard "manual inspection is required.")
    | .missing | .blank => .ok taken
    | .table [row] =>
      if !row.isValid then .error (.guard "Guard metadata is invalid; manual inspection is required.")
      else if row.restoreRequired = 1 then
        .error (.guard "Incomplete restore: restore_required is set. Offline recovery is required before runtime or restore can start.")
      else .ok taken
    | .table _ => .error (.guard "Guard metadata is invalid; manual inspection is required.")

def completeRestore (d : Disk) (id : OwnerId) : Except FileError Disk :=
  if d.lock ≠ some id then
    .error (.guard "Only a held restore owner can clear restore_required.")
  else match d.guard with
    | .table rows =>
      .ok { d with guard := .table <| rows.map fun r =>
        if r.singleton = 1 ∧ r.ownerId = some id then { r with restoreRequired := 0 } else r }
    | _ => .error (.guard "Restore owner metadata changed.")

/-- Closing the database drops the lock and leaves the row as it is. -/
def release (d : Disk) (id : OwnerId) : Disk :=
  if d.lock = some id then { d with lock := none } else d

def rename (d : Disk) (src dst : Dir) (name : FileName) : Except FileError Disk :=
  match d.entry src name, d.entries dst with
  | some node, some _ => .ok ((d.setEntry src name none).setEntry dst name (some node))
  | _, _ => .error (.io (.rename src dst name))

/-- `regularFileIdentity`. -/
def identity (d : Disk) (dir : Dir) (name : FileName) : Except FileError ℕ :=
  match d.entry dir name with
  | some node => if node.kind = .regular then .ok node.inode else .error (.notRegular name)
  | none => .error (.io (.identity dir name))

/-- `writeFileSync` of a staged file, which must not exist. -/
def write (d : Disk) (name : FileName) : Except FileError Disk :=
  match d.staging, d.entry .staging name with
  | some _, none =>
    let node : Node := ⟨d.nextInode, .regular⟩
    .ok { d.setEntry .staging name (some node) with
      nextInode := d.nextInode + 1
      replacement := Function.update d.replacement name (some node) }
  | _, _ => .error (.io (.write name))

def mkdir (d : Disk) (dir : Dir) : Except FileError Disk :=
  match d.entries dir with
  | some _ => .error (.io (.mkdir dir))
  | none => .ok (d.setDir dir (some fun _ => none))

def perform (id : OwnerId) : (o : Op) → Disk → Except FileError (Res o × Disk)
  | .assertRestoreRoot, d | .readBackup, d | .validateSecret, d | .validateDatabase, d =>
    .ok ((), d)
  | .acquire kind pid acquiredAt, d => (d.acquire id kind pid acquiredAt).map fun d' => ((), d')
  | .existsDir dir, d => .ok ((d.entries dir).isSome, d)
  | .existsFile name, d => .ok ((d.data.file name).isSome, d)
  | .mkdir dir, d => (d.mkdir dir).map fun d' => ((), d')
  | .write name, d => (d.write name).map fun d' => ((), d')
  | .identity dir name, d => (d.identity dir name).map fun inode => (inode, d)
  | .rename src dst name, d => (d.rename src dst name).map fun d' => ((), d')
  | .remove dir, d => .ok ((), d.setDir dir none)
  | .completeRestore, d => (d.completeRestore id).map fun d' => ((), d')
  | .release, d => .ok ((), d.release id)

end Disk

/-- `existsSync` does not throw, and a failure of `completeRestore` exits the process. -/
def Op.mayFail : Op → Bool
  | .existsDir _ | .existsFile _ | .completeRestore | .release => false
  | _ => true

def disk (id : OwnerId) : Transition.Program.Semantics Disk Res FileError :=
  ⟨Disk.perform id, Op.mayFail, .io⟩

abbrev Script := Transition.Program Res FileError

abbrev perform (o : Op) : Script (Except FileError (Res o)) := Transition.Program.perform o

def supportedMigrationIds : List String :=
  ["001_initial_schema", "002_operational_indexes", "003_presets_schedules_analytics",
    "004_single_admin_and_preset_integrity", "005_app_read_model_indexes",
    "006_operational_safety_foundation", "007_schedule_exceptions_groups_goals",
    "008_notifications", "009_timed_hold_schedule_ownership",
    "010_timed_hold_ownership_provenance", "011_automatic_session_recovery",
    "012_card_farming_settings", "013_market_price_settings", "014_library_import_marker",
    "015_card_farming_resume", "016_boost_session_heartbeat"]

/-- A decrypted backup: its manifest is valid, so it has exactly the two entries. -/
structure Payload where
  migrationId : Option String
  entries : List FileName
  entries_perm : entries.Perm [.database, .secret]

def currentFiles : List FileName := [.database, .wal, .shm, .journal, .secret]

def restoredFiles : List FileName := [.database, .secret]

structure Progress where
  moved : List FileName
  installed : List FileName
  originalIdentities : List (FileName × ℕ)
  deriving DecidableEq, Repr

def moveOut : List FileName → Progress → Script (Option FileError × Progress)
  | [], p => pure (none, p)
  | name :: names, p => do
    match ← perform (.existsFile name) with
    | .ok true =>
      match ← perform (.identity .data name) with
      | .error e => pure (some e, p)
      | .ok identity =>
        let p := { p with originalIdentities := p.originalIdentities ++ [(name, identity)] }
        match ← perform (.rename .data .rollback name) with
        | .error e => pure (some e, p)
        | .ok _ => moveOut names { p with moved := name :: p.moved }
    | _ => moveOut names p

def moveIn : List FileName → Progress → Script (Option FileError × Progress)
  | [], p => pure (none, p)
  | name :: names, p => do
    match ← perform (.rename .staging .data name) with
    | .error e => pure (some e, p)
    | .ok _ => moveIn names { p with installed := name :: p.installed }

def renameAll (src dst : Dir) : List FileName → Script (Option FileError)
  | [] => pure none
  | name :: names => do
    match ← perform (.rename src dst name) with
    | .error e => pure (some e)
    | .ok _ => renameAll src dst names

def checkIdentities (changed : FileError) : List (FileName × ℕ) → Script (Option FileError)
  | [] => pure none
  | (name, identity) :: rest => do
    match ← perform (.identity .data name) with
    | .error e => pure (some e)
    | .ok found => if found ≠ identity then pure (some changed) else checkIdentities changed rest

def readIdentities (dir : Dir) : List FileName → Script (Except FileError (List (FileName × ℕ)))
  | [] => pure (.ok [])
  | name :: names => do
    match ← perform (.identity dir name) with
    | .error e => pure (.error e)
    | .ok identity =>
      match ← readIdentities dir names with
      | .error e => pure (.error e)
      | .ok rest => pure (.ok ((name, identity) :: rest))

/-- The `try` of `installRestore`. -/
def replaceFiles (replacementIdentities : List (FileName × ℕ)) :
    Script (Option FileError × Progress) := do
  match ← moveOut currentFiles ⟨[], [], []⟩ with
  | (some e, p) => pure (some e, p)
  | (none, p) =>
    match ← moveIn restoredFiles p with
    | (some e, p) => pure (some e, p)
    | (none, p) =>
      match ← checkIdentities .identityChanged replacementIdentities with
      | some e => pure (some e, p)
      | none =>
        match ← perform (.remove .staging) with
        | .error e => pure (some e, p)
        | .ok _ => pure (none, p)

/-- The `catch` of `installRestore`. -/
def rollBack (p : Progress) : Script (Option FileError) := do
  match ← renameAll .data .staging p.installed with
  | some e => pure (some e)
  | none =>
    match ← renameAll .rollback .data p.moved with
    | some e => pure (some e)
    | none =>
      match ← checkIdentities .rollbackIdentity p.originalIdentities with
      | some e => pure (some e)
      | none =>
        match ← perform (.remove .rollback) with
        | .error e => pure (some e)
        | .ok _ => pure none

def installRestore : Script (Except RestoreError Unit) := do
  match ← perform (.mkdir .rollback) with
  | .error e => pure (.error (.failed e))
  | .ok _ =>
    match ← readIdentities .staging restoredFiles with
    | .error e => pure (.error (.failed e))
    | .ok replacementIdentities =>
      match ← replaceFiles replacementIdentities with
      | (none, _) => pure (.ok ())
      | (some e, p) =>
        match ← rollBack p with
        | none => pure (.error (.failed e))
        | some rollbackError => pure (.error (.incompleteRollback e rollbackError))

def writeEntries : List FileName → Script (Option FileError)
  | [] => pure none
  | name :: names => do
    match ← perform (.write name) with
    | .error e => pure (some e)
    | .ok _ => writeEntries names

def stageAndInstall (payload : Payload) : Script (Except RestoreError Unit) := do
  match ← writeEntries payload.entries with
  | some e => pure (.error (.failed e))
  | none =>
    match ← perform .validateSecret with
    | .error e => pure (.error (.failed e))
    | .ok _ =>
      match ← perform .validateDatabase with
      | .error e => pure (.error (.failed e))
      | .ok _ => installRestore

/-- The inner `try` of `restoreBackup` has ended: its result and `safeToClearFence`. -/
def cleanUp : Except RestoreError Unit → Script (Except RestoreError Unit × Bool)
  | .ok _ => pure (.ok (), true)
  | .error (.incompleteRollback e rollbackError) =>
    pure (.error (.incompleteRollback e rollbackError), false)
  | .error (.failed e) => do
    match ← perform (.remove .staging) with
    | .error removeError => pure (.error (.failed removeError), false)
    | .ok _ => pure (.error (.failed e), true)

/-- `restoreBackup` while it holds the guard: its result and `safeToClearFence`. -/
def restoreHeld (payload : Payload) : Script (Except RestoreError Unit × Bool) := do
  match ← perform .readBackup with
  | .error e => pure (.error (.failed e), true)
  | .ok _ =>
    match payload.migrationId.filter fun id => decide (id ∉ supportedMigrationIds) with
    | some id => pure (.error (.failed (.newerMigration id)), true)
    | none =>
      match ← perform (.existsDir .staging), ← perform (.existsDir .rollback) with
      | .ok false, .ok false =>
        match ← perform (.mkdir .staging) with
        | .error e => pure (.error (.failed e), true)
        | .ok _ =>
          let result ← stageAndInstall payload
          cleanUp result
      | _, _ => pure (.error (.failed .leftovers), true)

/-- The `finally` of `restoreBackup`. -/
def endRestore (result : Except RestoreError Unit) (safeToClearFence : Bool) :
    Script (Except RestoreError Unit) := do
  if safeToClearFence then
    match ← perform .completeRestore with
    | .error e => pure (.error (.failed e))
    | .ok _ =>
      let _ ← perform .release
      pure result
  else
    let _ ← perform .release
    pure result

def restoreBackup (pid now : ℤ) (payload : Payload) :
    Script (Except RestoreError Unit) := do
  match ← perform .assertRestoreRoot with
  | .error e => pure (.error (.failed e))
  | .ok _ =>
    match ← perform (.acquire .restore pid now) with
    | .error e => pure (.error (.failed e))
    | .ok _ =>
      let (result, safeToClearFence) ← restoreHeld payload
      endRestore result safeToClearFence

end SteamBee.Restore
