import SteamBee.Data.Table
import SteamBee.Restore.Atomic
import SteamBee.Transition.Machine

/-! Servers and restores that share a data directory, each of which may crash between
any two file operations: one of them holds the lease, and the fence is set whenever the
critical files are half replaced. -/
namespace SteamBee.Restore

/-- A process with a lease of its own: a server, or a run of `restoreBackup`. `held` is
the state of its lease. -/
inductive Owner where
  | runtime (held : Bool)
  | restore (held : Bool) (script : Script (Except RestoreError Unit))

def Owner.held : Owner → Bool
  | .runtime held => held
  | .restore held _ => held

structure Host where
  disk : Disk
  owners : Table OwnerId Owner
  drawn : OwnerId

inductive Action where
  | startRuntime
  | acquire (id : OwnerId) (pid now : ℤ) (fail : Bool)
  | serve (id : OwnerId) (data : Entries)
  | completeRestore (id : OwnerId)
  | release (id : OwnerId)
  | startRestore (pid now : ℤ) (payload : Payload)
  | restoreStep (id : OwnerId) (fail : Bool)
  | crash (id : OwnerId)

/-- The state of a lease after one of its owner's operations. -/
def heldAfter (held : Bool) : Op → (succeeds : Bool) → Bool
  | .acquire _ _ _, succeeds => held || succeeds
  | .release, _ => false
  | _, _ => held

namespace Host

def acts (w : Host) (id : OwnerId) (disk : Disk) (owner : Owner) : Host :=
  { w with disk, owners := w.owners.insert id owner }

def starts (w : Host) (owner : Owner) : Host :=
  { w with owners := w.owners.insert w.drawn owner, drawn := w.drawn + 1 }

def next (w : Host) : Action → Option Host
  | .startRuntime => some (w.starts (.runtime false))
  | .acquire id pid now fail =>
    match w.owners.lookup id with
    | some (.runtime false) =>
      let r := (Restore.disk id).step (.acquire .runtime pid now) fail w.disk
      some (w.acts id r.2 (.runtime r.1.isOk))
    -- an owner that holds its lease gets its status
    | some (.runtime true) => some w
    | _ => none
  | .serve id data =>
    match w.owners.lookup id with
    | some (.runtime true) =>
      some (w.acts id { w.disk with data, original := data } (.runtime true))
    | _ => none
  -- only a restore owner completes a restore
  | .completeRestore id =>
    match w.owners.lookup id with
    | some (.runtime _) => some w
    | _ => none
  | .release id =>
    match w.owners.lookup id with
    | some (.runtime _) => some (w.acts id (w.disk.release id) (.runtime false))
    | _ => none
  | .startRestore pid now payload =>
    some (w.starts (.restore false (restoreBackup pid now payload)))
  | .restoreStep id fail =>
    match w.owners.lookup id with
    | some (.restore held (.call o k)) =>
      let r := (Restore.disk id).step o fail w.disk
      some (w.acts id r.2 (.restore (heldAfter held o r.1.isOk) (k r.1)))
    | _ => none
  -- the operating system drops the lock of a process that is gone
  | .crash id =>
    match w.owners.lookup id with
    | some _ => some { w with disk := w.disk.release id, owners := w.owners.erase id }
    | none => none

end Host

/-- The data directory as a server or a crash left it. -/
def hostMachine : Transition.Machine Host Action where
  Starts w := w.disk.lock = none ∧ w.disk.original = w.disk.data ∧ w.owners = ∅
  next := Host.next

namespace Disk
variable {d d' : Disk} {id id' : OwnerId}

def AllOriginal (d : Disk) : Prop := d.data.file = d.original.file

def AllNew (d : Disk) : Prop :=
  d.data.file = d.replacement ∧ ∀ name ∈ restoredFiles, (d.replacement name).isSome = true

def Intact (d : Disk) : Prop := d.fence = true ∨ d.AllOriginal ∨ d.AllNew

/-- What others do to the disk as the owner `id` sees it. -/
def Rely (id : OwnerId) (d d' : Disk) : Prop :=
  d' = d ∨ d.lock ≠ some id ∧ d'.lock ≠ some id ∧ d'.Intact

/-- What the owner `id` does to the disk: it changes it while it holds the lock, or takes
the lock. -/
def Own (id : OwnerId) (d d' : Disk) : Prop :=
  d' = d ∨ d.lock = some id ∨ d.lock = none ∧ d'.lock = some id

theorem Rely.trans {d'' : Disk} (h : Rely id d d') (h' : Rely id d' d'') : Rely id d d'' := by
  rcases h' with rfl | ⟨hlock', hlock'', hI⟩
  · exact h
  · rcases h with rfl | ⟨hlock, -, -⟩
    · exact .inr ⟨hlock', hlock'', hI⟩
    · exact .inr ⟨hlock, hlock'', hI⟩

theorem guarded_shared (id : OwnerId) : Guarded (Rely id) (Own id) Intact id where
  refl d := .inl rfl
  stable d d' hlock h := by
    rcases h with rfl | ⟨hne, -, -⟩
    · rfl
    · exact absurd hlock hne
  free d d' hlock := .inr (.inl hlock)
  fenced d h := .inl h

theorem perform_write {name : FileName} {r : Unit} (h : d.perform id (.write name) = .ok (r, d')) :
    d.write name = .ok d' := by
  simp only [perform] at h
  cases hw : d.write name with
  | error e => simp [hw, Except.map] at h
  | ok d'' =>
    simp only [hw, Except.map, Except.ok.injEq, Prod.mk.injEq, true_and] at h
    rw [h]

theorem write_guard {name : FileName} (h : d.write name = .ok d') :
    d'.guard = d.guard ∧ d'.lock = d.lock := by
  unfold write at h
  split at h
  next =>
    obtain rfl := Except.ok.inj h
    exact ⟨rfl, rfl⟩
  next => cases h

theorem completeRestore_lock (h : d.completeRestore id = .ok d') : d'.lock = d.lock := by
  unfold completeRestore at h
  split at h
  next => cases h
  next =>
    split at h
    next =>
      obtain rfl := Except.ok.inj h
      rfl
    next => cases h

theorem perform_completeRestore {r : Unit} (h : d.perform id .completeRestore = .ok (r, d')) :
    d.completeRestore id = .ok d' := by
  simp only [perform] at h
  cases hc : d.completeRestore id with
  | error e => simp [hc, Except.map] at h
  | ok d'' =>
    simp only [hc, Except.map, Except.ok.injEq, Prod.mk.injEq, true_and] at h
    rw [h]

/-- Four kinds of operations, by what they do to the guard and its lock. -/
theorem perform_cases {o : Op} {r : Res o} (h : d.perform id o = .ok (r, d')) :
    (∃ kind pid now, o = .acquire kind pid now ∧ d.acquire id kind pid now = .ok d') ∨
      o = .release ∧ d' = d.release id ∨
      o = .completeRestore ∧ d.completeRestore id = .ok d' ∨
      (∀ held succeeds, heldAfter held o succeeds = held) ∧ d'.guard = d.guard ∧
        d'.lock = d.lock := by
  have hsame (h : d' = d) : d'.guard = d.guard ∧ d'.lock = d.lock := by
    rw [h]
    exact ⟨rfl, rfl⟩
  have hpure {r' : Unit} (h : (Except.ok ((), d) : Except FileError (Unit × Disk)) = .ok (r', d')) :
      d' = d := by
    simp only [Except.ok.injEq, Prod.mk.injEq, true_and] at h
    exact h.symm
  cases o with
  | acquire kind pid now => exact .inl ⟨kind, pid, now, rfl, perform_acquire h⟩
  | release =>
    refine .inr (.inl ⟨rfl, ?_⟩)
    simp only [perform, Except.ok.injEq, Prod.mk.injEq, true_and] at h
    exact h.symm
  | completeRestore => exact .inr (.inr (.inl ⟨rfl, perform_completeRestore h⟩))
  | assertRestoreRoot => exact .inr (.inr (.inr ⟨fun _ _ => rfl, hsame (hpure h)⟩))
  | readBackup => exact .inr (.inr (.inr ⟨fun _ _ => rfl, hsame (hpure h)⟩))
  | validateSecret => exact .inr (.inr (.inr ⟨fun _ _ => rfl, hsame (hpure h)⟩))
  | validateDatabase => exact .inr (.inr (.inr ⟨fun _ _ => rfl, hsame (hpure h)⟩))
  | existsDir dir =>
    simp only [perform, Except.ok.injEq, Prod.mk.injEq] at h
    exact .inr (.inr (.inr ⟨fun _ _ => rfl, hsame h.2.symm⟩))
  | existsFile name =>
    simp only [perform, Except.ok.injEq, Prod.mk.injEq] at h
    exact .inr (.inr (.inr ⟨fun _ _ => rfl, hsame h.2.symm⟩))
  | identity dir name => exact .inr (.inr (.inr ⟨fun _ _ => rfl, hsame (perform_identity h)⟩))
  | mkdir dir =>
    obtain ⟨-, rfl⟩ := perform_mkdir h
    have hrec := sameRecord_setDir d dir (some fun _ => none)
    exact .inr (.inr (.inr ⟨fun _ _ => rfl, hrec.guard, hrec.lock⟩))
  | remove dir =>
    obtain rfl := perform_remove h
    have hrec := sameRecord_setDir d dir none
    exact .inr (.inr (.inr ⟨fun _ _ => rfl, hrec.guard, hrec.lock⟩))
  | write name => exact .inr (.inr (.inr ⟨fun _ _ => rfl, write_guard (perform_write h)⟩))
  | rename src dst name =>
    have hrec := sameRecord_rename (perform_rename h)
    exact .inr (.inr (.inr ⟨fun _ _ => rfl, hrec.guard, hrec.lock⟩))

theorem release_lock (d : Disk) (id : OwnerId) :
    (d.release id).lock ≠ some id ∧ ((d.release id).lock = d.lock ∨ (d.release id).lock = none) := by
  unfold release
  by_cases h : d.lock = some id
  · rw [if_pos h]
    simp
  · rw [if_neg h]
    exact ⟨h, .inl rfl⟩

theorem release_same (d : Disk) (id : OwnerId) :
    (d.release id).guard = d.guard ∧ (d.release id).data = d.data ∧
      (d.release id).original = d.original ∧ (d.release id).replacement = d.replacement := by
  unfold release
  split <;> exact ⟨rfl, rfl, rfl, rfl⟩

theorem release_intact (h : d.Intact) (id : OwnerId) : (d.release id).Intact := by
  obtain ⟨hguard, hdata, horiginal, hreplacement⟩ := release_same d id
  unfold Intact fence AllOriginal AllNew
  rw [hguard, hdata, horiginal, hreplacement]
  exact h

theorem completeRestore_held (h : d.completeRestore id = .ok d') : d.lock = some id := by
  unfold completeRestore at h
  by_contra hne
  rw [if_pos hne] at h
  cases h

variable {o : Op} {fail : Bool}

/-- The lease of an owner is the lock, after each of its operations. -/
theorem step_held {held : Bool} (h : held = true ↔ d.lock = some id) :
    heldAfter held o ((disk id).step o fail d).1.isOk = true ↔
      ((disk id).step o fail d).2.lock = some id := by
  rcases (disk id).step_cases o fail d with ⟨e, hf, he⟩ | ⟨r, d', hp, hr⟩
  · have hsame : heldAfter held o false = held := by
      cases o with
      | release =>
        -- closing the database does not fail
        rcases hf with ⟨hmay, -⟩ | hperform
        · cases hmay
        · cases hperform
      | acquire kind pid now => exact Bool.or_false held
      | _ => rfl
    rw [he]
    show heldAfter held o false = true ↔ d.lock = some id
    rw [hsame]
    exact h
  · rw [hr]
    rcases perform_cases hp with ⟨kind, pid, now, rfl, hacq⟩ | ⟨rfl, rfl⟩ | ⟨rfl, hc⟩ | ⟨hsame, -, hlock⟩
    · obtain ⟨-, -, rfl⟩ := acquire_spec hacq
      simp [heldAfter, Except.isOk, Except.toBool]
    · simp [heldAfter, (release_lock d id).1]
    · rw [completeRestore_lock hc]
      exact h
    · rw [hsame, hlock]
      exact h

/-- The lock of another owner is not touched. -/
theorem step_lock : ((disk id).step o fail d).2.lock = d.lock ∨
    ((disk id).step o fail d).2.lock = none ∨ ((disk id).step o fail d).2.lock = some id := by
  rcases (disk id).step_cases o fail d with ⟨e, -, he⟩ | ⟨r, d', hp, hr⟩
  · rw [he]
    exact .inl rfl
  · rw [hr]
    rcases perform_cases hp with ⟨kind, pid, now, rfl, hacq⟩ | ⟨rfl, rfl⟩ | ⟨rfl, hc⟩ | ⟨-, -, hlock⟩
    · obtain ⟨-, -, rfl⟩ := acquire_spec hacq
      exact .inr (.inr rfl)
    · rcases (release_lock d id).2 with hsame | hnone
      · exact .inl hsame
      · exact .inr (.inl hnone)
    · exact .inl (completeRestore_lock hc)
    · exact .inl hlock

/-- Only `completeRestore` of the owner that has the lock clears the fence. -/
theorem step_fence (o : Op) (fail : Bool) (hset : d.fence = true) (hclear : ((disk id).step o fail d).2.fence = false) :
    o = .completeRestore ∧ d.lock = some id := by
  rcases (disk id).step_cases o fail d with ⟨e, -, he⟩ | ⟨r, d', hp, hr⟩
  · rw [he] at hclear
    rw [hset] at hclear
    cases hclear
  · rw [hr] at hclear
    have hsame (h : d'.guard = d.guard) : o = .completeRestore ∧ d.lock = some id := by
      unfold fence at hset hclear
      rw [h, hset] at hclear
      cases hclear
    rcases perform_cases hp with ⟨kind, pid, now, rfl, hacq⟩ | ⟨rfl, rfl⟩ | ⟨rfl, hc⟩ | ⟨-, hguard, -⟩
    · obtain ⟨-, hfence, -⟩ := acquire_spec hacq
      rw [hset] at hfence
      cases hfence
    · exact hsame (release_same d id).1
    · exact ⟨rfl, completeRestore_held hc⟩
    · exact hsame hguard

theorem Rely.intact (hd : d.Intact) (hlock : d.lock ≠ some id) (h : Rely id d d') :
    d'.Intact ∧ d'.lock ≠ some id := by
  rcases h with rfl | ⟨-, hlock', hd'⟩
  · exact ⟨hd, hlock⟩
  · exact ⟨hd', hlock'⟩

/-- `restoreBackup` from the moment at which it has the guard. -/
theorem always_heldRestore {o : Entries} (hd : d.Held id o) (horiginal : d.data.file = d.original.file)
    (hnone : d.replacement = fun _ => none) (payload : Payload) :
    (disk id).Always (Rely id) (Own id) Intact (fun _ _ => True)
      (restoreHeld payload >>= fun r => endRestore r.1 r.2) d := by
  have g := guarded_shared id
  refine g.bind (always_restoreHeld g payload hd horiginal hnone (Nat.le_refl _)) ?_
  rintro ⟨r, safe⟩ s ⟨hs, hends⟩
  have hintact (hsafe : safe = true) : s.AllOriginal ∨ s.AllNew := by
    rcases hends with ⟨hs, hdata, -⟩ | ⟨e, safe, hdata, -⟩ | ⟨e, rollbackError, -, -⟩
    · exact .inr ⟨hdata, fun name hname => (hs.all name).mpr hname⟩
    · exact .inl hdata
    · cases hsafe
  refine always_endRestore g hs (fun guard _ hsafe => .inr (hintact hsafe)) ?_
  intro guard d' hfence hR
  have hreleased : ({ s with guard, lock := none } : Disk).Intact := by
    cases safe with
    | true => exact .inr (hintact rfl)
    | false => exact .inl hfence
  exact ⟨(hR.intact hreleased (by simp)).1, trivial⟩

/-- Sharing the disk with others, `restoreBackup` never leaves half-replaced files
without the fence. -/
theorem always_restoreBackup (hd : d.Intact) (hlock : d.lock ≠ some id) (pid now : ℤ)
    (payload : Payload) :
    (disk id).Always (Rely id) (Own id) Intact (fun _ _ => True) (restoreBackup pid now payload) d := by
  have hstop (s : Disk) (hs : s.Intact) (hne : s.lock ≠ some id) (e : RestoreError) :
      (disk id).Always (Rely id) (Own id) Intact (fun _ _ => True)
        (Pure.pure (.error e) : Script (Except RestoreError Unit)) s := by
    intro s' hR
    exact ⟨(hR.intact hs hne).1, trivial⟩
  intro d₁ hR
  obtain ⟨hd₁, hlock₁⟩ := hR.intact hd hlock
  refine ⟨hd₁, fun fail => ?_⟩
  rcases (disk id).step_cases .assertRestoreRoot fail d₁ with ⟨e, -, he⟩ | ⟨r, d₂, hp, hr⟩
  · rw [he]
    exact ⟨.inl rfl, hstop d₁ hd₁ hlock₁ _⟩
  rw [hr]
  obtain rfl : d₁ = d₂ := by simpa [disk, perform] using hp
  refine ⟨.inl rfl, fun d₂ hR => ?_⟩
  obtain ⟨hd₂, hlock₂⟩ := hR.intact hd₁ hlock₁
  refine ⟨hd₂, fun fail => ?_⟩
  rcases (disk id).step_cases (.acquire .restore pid now) fail d₂ with ⟨e, -, he⟩ | ⟨r, d₃, hp, hr⟩
  · rw [he]
    exact ⟨.inl rfl, hstop d₂ hd₂ hlock₂ _⟩
  rw [hr]
  have hacq := perform_acquire hp
  obtain ⟨hheld, horiginal, hnone, -⟩ := acquire_held hacq
  exact ⟨.inr (.inr ⟨(acquire_spec hacq).1, hheld.lock⟩),
    always_heldRestore hheld horiginal hnone payload⟩

end Disk

namespace Host
open Disk
variable {w w' : Host} {id : OwnerId}

structure Safe (w : Host) : Prop where
  intact : w.disk.Intact
  fresh : ∀ id owner, w.owners.lookup id = some owner → id < w.drawn
  owned : ∀ id, w.disk.lock = some id → ∃ owner, w.owners.lookup id = some owner
  held : ∀ id owner, w.owners.lookup id = some owner →
    (owner.held = true ↔ w.disk.lock = some id)
  runtime : ∀ id, w.owners.lookup id = some (.runtime true) → w.disk.fence = false
  restore : ∀ id held script, w.owners.lookup id = some (.restore held script) →
    (Restore.disk id).Always (Rely id) (Own id) Intact (fun _ _ => True) script w.disk

structure Acts (id : OwnerId) (d d' : Disk) : Prop where
  own : Own id d d'
  lock : d'.lock = d.lock ∨ d'.lock = none ∨ d'.lock = some id
  intact : d'.Intact

theorem Acts.rely {d d' : Disk} (h : Acts id d d') {id' : OwnerId} (hne : id' ≠ id) :
    Rely id' d d' := by
  rcases h.own with rfl | hlock | ⟨hnone, hlock⟩
  · exact .inl rfl
  · refine .inr ⟨by simpa [hlock] using hne.symm, ?_, h.intact⟩
    rcases h.lock with hsame | hnone | hlock'
    · simpa [hsame, hlock] using hne.symm
    · simp [hnone]
    · simpa [hlock'] using hne.symm
  · exact .inr ⟨by simp [hnone], by simpa [hlock] using hne.symm, h.intact⟩

/-- An owner that others see holding the lock keeps it. -/
theorem Acts.lock_iff {d d' : Disk} (h : Acts id d d') {id' : OwnerId} (hne : id' ≠ id) :
    d'.lock = some id' ↔ d.lock = some id' := by
  rcases h.rely hne with rfl | ⟨hlock, hlock', -⟩
  · rfl
  · simp [hlock, hlock']

/-- A step of one owner keeps the invariant if it is right about its own lease. -/
theorem Safe.acts (h : w.Safe) {before owner : Owner} {d : Disk}
    (hbefore : w.owners.lookup id = some before) (ha : Acts id w.disk d)
    (hheld : owner.held = true ↔ d.lock = some id)
    (hruntime : owner = .runtime true → d.fence = false)
    (hrestore : ∀ held script, owner = .restore held script →
      (Restore.disk id).Always (Rely id) (Own id) Intact (fun _ _ => True) script d) :
    (w.acts id d owner).Safe := by
  have hlookup (id' : OwnerId) (owner' : Owner)
      (h : (w.acts id d owner).owners.lookup id' = some owner') :
      id' = id ∧ owner' = owner ∨ id' ≠ id ∧ w.owners.lookup id' = some owner' := by
    have h : (w.owners.insert id owner).lookup id' = some owner' := h
    rw [Table.lookup_insert_eq] at h
    by_cases hid : id' = id
    · rw [if_pos hid] at h
      exact .inl ⟨hid, (Option.some.inj h).symm⟩
    · rw [if_neg hid] at h
      exact .inr ⟨hid, h⟩
  constructor
  case intact => exact ha.intact
  case fresh =>
    intro id' owner' hid'
    rcases hlookup id' owner' hid' with ⟨rfl, -⟩ | ⟨-, hold⟩
    · exact h.fresh id' before hbefore
    · exact h.fresh id' owner' hold
  case owned =>
    intro id' hlock
    show ∃ owner', (w.owners.insert id owner).lookup id' = some owner'
    rw [Table.lookup_insert_eq]
    by_cases hid : id' = id
    · exact ⟨owner, if_pos hid⟩
    · rw [if_neg hid]
      exact h.owned id' ((ha.lock_iff hid).mp hlock)
  case held =>
    intro id' owner' hid'
    rcases hlookup id' owner' hid' with ⟨rfl, rfl⟩ | ⟨hne, hold⟩
    · exact hheld
    · exact (h.held id' owner' hold).trans (ha.lock_iff hne).symm
  case runtime =>
    intro id' hid'
    rcases hlookup id' _ hid' with ⟨rfl, hsame⟩ | ⟨hne, hold⟩
    · exact hruntime hsame.symm
    · -- its lock keeps the others from changing the disk
      have hlock : w.disk.lock = some id' := (h.held id' _ hold).mp rfl
      have hsame : d = w.disk := (guarded_shared id').stable _ _ hlock (ha.rely hne)
      show d.fence = false
      rw [hsame]
      exact h.runtime id' hold
  case restore =>
    intro id' held script hid'
    rcases hlookup id' _ hid' with ⟨rfl, hsame⟩ | ⟨hne, hold⟩
    · exact hrestore held script hsame.symm
    · have halways := h.restore id' held script hold
      exact halways.interfere (fun _ _ _ h h' => h.trans h') (ha.rely hne)

/-- A new process has no lease yet. -/
theorem Safe.starts (h : w.Safe) {owner : Owner} (hheld : owner.held = false)
    (hrestore : ∀ held script, owner = .restore held script → w.disk.lock ≠ some w.drawn →
      (Restore.disk w.drawn).Always (Rely w.drawn) (Own w.drawn) Intact (fun _ _ => True)
        script w.disk) :
    (w.starts owner).Safe := by
  have hfree : w.disk.lock ≠ some w.drawn := by
    intro hlock
    obtain ⟨owner', hold⟩ := h.owned _ hlock
    exact Nat.lt_irrefl _ (h.fresh _ _ hold)
  have hlookup (id' : OwnerId) (owner' : Owner)
      (h : (w.starts owner).owners.lookup id' = some owner') :
      id' = w.drawn ∧ owner' = owner ∨ w.owners.lookup id' = some owner' := by
    have h : (w.owners.insert w.drawn owner).lookup id' = some owner' := h
    rw [Table.lookup_insert_eq] at h
    by_cases hid : id' = w.drawn
    · rw [if_pos hid] at h
      exact .inl ⟨hid, (Option.some.inj h).symm⟩
    · rw [if_neg hid] at h
      exact .inr h
  constructor
  case intact => exact h.intact
  case fresh =>
    intro id' owner' hid'
    rcases hlookup id' owner' hid' with ⟨rfl, -⟩ | hold
    · exact Nat.lt_succ_self _
    · exact Nat.lt_succ_of_lt (h.fresh id' owner' hold)
  case owned =>
    intro id' hlock
    show ∃ owner', (w.owners.insert w.drawn owner).lookup id' = some owner'
    rw [Table.lookup_insert_eq]
    by_cases hid : id' = w.drawn
    · exact ⟨owner, if_pos hid⟩
    · rw [if_neg hid]
      exact h.owned id' hlock
  case held =>
    intro id' owner' hid'
    rcases hlookup id' owner' hid' with ⟨rfl, rfl⟩ | hold
    · rw [hheld]
      exact ⟨fun hf => (by cases hf), fun hlock => absurd hlock hfree⟩
    · exact h.held id' owner' hold
  case runtime =>
    intro id' hid'
    rcases hlookup id' _ hid' with ⟨-, hsame⟩ | hold
    · rw [← hsame] at hheld
      cases hheld
    · exact h.runtime id' hold
  case restore =>
    intro id' held script hid'
    rcases hlookup id' _ hid' with ⟨rfl, hsame⟩ | hold
    · exact hrestore held script hsame.symm hfree
    · exact h.restore id' held script hold

theorem acts_release (h : w.Safe) (id : OwnerId) : Acts id w.disk (w.disk.release id) := by
  refine ⟨?_, ?_, release_intact h.intact id⟩
  · unfold release
    by_cases hlock : w.disk.lock = some id
    · exact .inr (.inl hlock)
    · rw [if_neg hlock]
      exact .inl rfl
  · rcases (release_lock w.disk id).2 with hsame | hnone
    · exact .inl hsame
    · exact .inr (.inl hnone)

theorem Safe.crash (h : w.Safe) {owner : Owner} (hid : w.owners.lookup id = some owner) :
    ({ w with disk := w.disk.release id, owners := w.owners.erase id } : Host).Safe := by
  -- a release, after which nobody asks the owner
  have hreleased : (w.acts id (w.disk.release id) (.runtime false)).Safe := by
    refine h.acts hid (acts_release h id) ?_ (fun heq => by cases heq) (fun _ _ heq => by cases heq)
    exact ⟨fun hf => (by cases hf), fun hlock => absurd hlock (release_lock w.disk id).1⟩
  have hlookup (id' : OwnerId) (owner' : Owner) (hold : (w.owners.erase id).lookup id' = some owner') :
      (w.acts id (w.disk.release id) (.runtime false)).owners.lookup id' = some owner' := by
    rw [Table.lookup_erase_eq] at hold
    show (w.owners.insert id (.runtime false)).lookup id' = some owner'
    rw [Table.lookup_insert_eq]
    by_cases hne : id' = id
    · rw [if_pos hne] at hold
      cases hold
    · rw [if_neg hne] at hold
      rw [if_neg hne]
      exact hold
  constructor
  case intact => exact hreleased.intact
  case fresh => exact fun id' owner' hold => hreleased.fresh id' owner' (hlookup id' owner' hold)
  case owned =>
    intro id' hlock
    have hne : id' ≠ id := by
      rintro rfl
      exact (release_lock w.disk id').1 hlock
    obtain ⟨owner', hold⟩ := h.owned id' (((acts_release h id).lock_iff hne).mp hlock)
    refine ⟨owner', ?_⟩
    show (w.owners.erase id).lookup id' = some owner'
    rw [Table.lookup_erase_eq, if_neg hne]
    exact hold
  case held => exact fun id' owner' hold => hreleased.held id' owner' (hlookup id' owner' hold)
  case runtime => exact fun id' hold => hreleased.runtime id' (hlookup id' _ hold)
  case restore =>
    exact fun id' held script hold => hreleased.restore id' held script (hlookup id' _ hold)

/-- A server acquires the guard, or does not. -/
theorem acquire_runtime (w : Host) (id : OwnerId) (pid now : ℤ) (fail : Bool) :
    (∃ e, (Restore.disk id).step (.acquire .runtime pid now) fail w.disk = (.error e, w.disk)) ∨
      ∃ d, (Restore.disk id).step (.acquire .runtime pid now) fail w.disk = (.ok (), d) ∧
        w.disk.lock = none ∧ w.disk.fence = false ∧ d.fence = false ∧ d.lock = some id ∧
        d.data = w.disk.data ∧ d.original = w.disk.original ∧
        d.replacement = w.disk.replacement := by
  rcases (Restore.disk id).step_cases (.acquire .runtime pid now) fail w.disk with
    ⟨e, -, he⟩ | ⟨r, d, hp, hr⟩
  · exact .inl ⟨e, he⟩
  · obtain ⟨hfree, hfence, hd⟩ := acquire_spec (perform_acquire hp)
    refine .inr ⟨d, hr, hfree, hfence, ?_⟩
    subst hd
    exact ⟨rfl, rfl, rfl, rfl, rfl⟩

theorem Safe.acquire (h : w.Safe) (hid : w.owners.lookup id = some (.runtime false))
    (pid now : ℤ) (fail : Bool) :
    (w.acts id ((Restore.disk id).step (.acquire .runtime pid now) fail w.disk).2
      (.runtime ((Restore.disk id).step (.acquire .runtime pid now) fail w.disk).1.isOk)).Safe := by
  rcases acquire_runtime w id pid now fail with
    ⟨e, he⟩ | ⟨d, hd, hfree, hfence, hfence', hlock, hdata, horiginal, hreplacement⟩
  · rw [he]
    refine h.acts hid ⟨.inl rfl, .inl rfl, h.intact⟩ (h.held id _ hid) ?_ ?_
    · intro heq
      cases heq
    · intro held script heq
      cases heq
  · rw [hd]
    have hintact : d.Intact := by
      rcases h.intact with hset | hall
      · rw [hfence] at hset
        cases hset
      · right
        unfold AllOriginal AllNew
        rw [hdata, horiginal, hreplacement]
        exact hall
    have hheld : (Owner.runtime true).held = true ↔ d.lock = some id := by simp [Owner.held, hlock]
    refine h.acts hid ⟨.inr (.inr ⟨hfree, hlock⟩), .inr (.inr hlock), hintact⟩ hheld ?_ ?_
    · exact fun _ => hfence'
    · intro held script heq
      cases heq

theorem Safe.serve (h : w.Safe) (hid : w.owners.lookup id = some (.runtime true))
    (data : Entries) :
    (w.acts id { w.disk with data, original := data } (.runtime true)).Safe := by
  have hlock : w.disk.lock = some id := (h.held id _ hid).mp rfl
  refine h.acts hid ⟨.inr (.inl hlock), .inl rfl, .inr (.inl rfl)⟩ (h.held id _ hid) ?_ ?_
  · exact fun _ => h.runtime id hid
  · intro held script heq
    cases heq

theorem Safe.release (h : w.Safe) {held : Bool} (hid : w.owners.lookup id = some (.runtime held)) :
    (w.acts id (w.disk.release id) (.runtime false)).Safe := by
  refine h.acts hid (acts_release h id) ?_ ?_ ?_
  · exact ⟨fun hf => (by cases hf), fun hlock => absurd hlock (release_lock w.disk id).1⟩
  · intro heq
    cases heq
  · intro held script heq
    cases heq

theorem Safe.restoreStep (h : w.Safe) {held : Bool} {o : Op}
    {k : Except FileError (Res o) → Script (Except RestoreError Unit)}
    (hid : w.owners.lookup id = some (.restore held (.call o k))) (fail : Bool) :
    (w.acts id ((Restore.disk id).step o fail w.disk).2
      (.restore (heldAfter held o ((Restore.disk id).step o fail w.disk).1.isOk)
        (k ((Restore.disk id).step o fail w.disk).1))).Safe := by
  obtain ⟨hown, hthen⟩ := (h.restore id held _ hid).step ((guarded_shared id).refl _) fail
  have hintact := hthen.now ((guarded_shared id).refl _)
  refine h.acts hid ⟨hown, step_lock, hintact⟩ (step_held (h.held id _ hid)) ?_ ?_
  · intro heq
    cases heq
  · rintro _ _ heq
    obtain ⟨-, rfl⟩ := Owner.restore.inj heq
    exact hthen

theorem Safe.next (h : w.Safe) {a : Action} (hn : w.next a = some w') : w'.Safe := by
  cases a with
  | startRuntime =>
    obtain rfl := Option.some.inj hn
    exact h.starts rfl fun _ _ heq => by cases heq
  | acquire id pid now fail =>
    simp only [Host.next] at hn
    split at hn
    next hid =>
      obtain rfl := Option.some.inj hn
      exact h.acquire hid pid now fail
    next =>
      obtain rfl := Option.some.inj hn
      exact h
    next => cases hn
  | serve id data =>
    simp only [Host.next] at hn
    split at hn
    next hid =>
      obtain rfl := Option.some.inj hn
      exact h.serve hid data
    next => cases hn
  | completeRestore id =>
    simp only [Host.next] at hn
    split at hn
    next =>
      obtain rfl := Option.some.inj hn
      exact h
    next => cases hn
  | release id =>
    simp only [Host.next] at hn
    split at hn
    next hid =>
      obtain rfl := Option.some.inj hn
      exact h.release hid
    next => cases hn
  | startRestore pid now payload =>
    obtain rfl := Option.some.inj hn
    refine h.starts rfl ?_
    intro held script heq hfree
    obtain ⟨-, rfl⟩ := Owner.restore.inj heq
    exact always_restoreBackup h.intact hfree pid now payload
  | restoreStep id fail =>
    simp only [Host.next] at hn
    split at hn
    next hid =>
      obtain rfl := Option.some.inj hn
      exact h.restoreStep hid fail
    next => cases hn
  | crash id =>
    simp only [Host.next] at hn
    split at hn
    next hid =>
      obtain rfl := Option.some.inj hn
      exact h.crash hid
    next => cases hn

theorem Safe.of_reachable (h : hostMachine.Reachable w) : w.Safe := by
  refine h.invariant (fun w hw => ?_) fun w a w' hw _ hn => hw.next hn
  obtain ⟨hlock, horiginal, hnone⟩ := hw
  have hempty (id : OwnerId) (owner : Owner) : w.owners.lookup id ≠ some owner := by
    rw [hnone, AList.lookup_empty]
    intro heq
    cases heq
  constructor
  case intact => exact .inr (.inl (by rw [AllOriginal, horiginal]))
  case fresh => exact fun id owner hid => absurd hid (hempty id owner)
  case owned =>
    intro id hheld
    rw [hlock] at hheld
    cases hheld
  case held => exact fun id owner hid => absurd hid (hempty id owner)
  case runtime => exact fun id hid => absurd hid (hempty id _)
  case restore => exact fun id held script hid => absurd hid (hempty id _)

/-- The step of a restore that completes it, holding the lease and the lock. -/
def Completes (w : Host) (a : Action) : Prop :=
  ∃ id fail k, a = .restoreStep id fail ∧ w.disk.lock = some id ∧
    w.owners.lookup id = some (.restore true (.call .completeRestore k))

theorem Safe.clears (h : w.Safe) {a : Action} (hn : w.next a = some w')
    (hset : w.disk.fence = true) (hclear : w'.disk.fence = false) : w.Completes a := by
  have hsame (hguard : w'.disk.guard = w.disk.guard) : w.Completes a := by
    unfold fence at hset hclear
    rw [hguard, hset] at hclear
    cases hclear
  cases a with
  | restoreStep id fail =>
    simp only [Host.next] at hn
    split at hn
    next held o k hid =>
      obtain rfl := Option.some.inj hn
      obtain ⟨rfl, hlock⟩ := step_fence o fail hset hclear
      obtain rfl : held = true := (h.held id _ hid).mpr hlock
      exact ⟨id, fail, k, rfl, hlock, hid⟩
    next => cases hn
  | startRuntime | startRestore _ _ _ =>
    obtain rfl := Option.some.inj hn
    exact hsame rfl
  | acquire id pid now fail =>
    simp only [Host.next] at hn
    split at hn
    next =>
      obtain rfl := Option.some.inj hn
      obtain ⟨heq, -⟩ := step_fence (.acquire .runtime pid now) fail hset hclear
      cases heq
    next =>
      obtain rfl := Option.some.inj hn
      exact hsame rfl
    next => cases hn
  | serve id _ | completeRestore id =>
    simp only [Host.next] at hn
    split at hn
    next =>
      obtain rfl := Option.some.inj hn
      exact hsame rfl
    next => cases hn
  | release id | crash id =>
    simp only [Host.next] at hn
    split at hn
    next =>
      obtain rfl := Option.some.inj hn
      exact hsame (release_same w.disk id).1
    next => cases hn

/-- The lease has one holder. While the critical files are neither all original nor all
new the fence is set, no server runs or gets the lease, and only a restore that holds the
lease clears it. -/
theorem fence_and_lease (h : hostMachine.Reachable w) :
    (∀ id id' owner owner', w.owners.lookup id = some owner → w.owners.lookup id' = some owner' →
        owner.held = true → owner'.held = true → id = id') ∧
      (w.disk.fence = true ∨ w.disk.AllOriginal ∨ w.disk.AllNew) ∧
      (w.disk.fence = true →
        (∀ id, w.owners.lookup id ≠ some (.runtime true)) ∧
        ∀ id pid now fail w', w.next (.acquire id pid now fail) = some w' →
          w'.owners.lookup id = some (.runtime false) ∧ w'.disk.fence = true) ∧
      ∀ a w', w.next a = some w' → w.disk.fence = true → w'.disk.fence = false →
        w.Completes a := by
  have hs := Safe.of_reachable h
  refine ⟨?_, hs.intact, ?_, ?_⟩
  · intro id id' owner owner' hid hid' hheld hheld'
    have hlock := (hs.held id owner hid).mp hheld
    have hlock' := (hs.held id' owner' hid').mp hheld'
    exact Option.some.inj (hlock.symm.trans hlock')
  · intro hset
    have hnone (id : OwnerId) : w.owners.lookup id ≠ some (.runtime true) := by
      intro hid
      have hclear := hs.runtime id hid
      rw [hset] at hclear
      cases hclear
    refine ⟨hnone, ?_⟩
    intro id pid now fail w' hn
    simp only [Host.next] at hn
    split at hn
    next hid =>
      obtain rfl := Option.some.inj hn
      rcases acquire_runtime w id pid now fail with ⟨e, he⟩ | ⟨d, -, -, hclear, -⟩
      · rw [he]
        exact ⟨AList.lookup_insert _, hset⟩
      · rw [hset] at hclear
        cases hclear
    next hid => exact absurd hid (hnone id)
    next => cases hn
  · intro a w' hn hset hclear
    exact hs.clears hn hset hclear

def servedHost : Host := ⟨{ servedDisk with original := servedDisk.data }, ∅, 1⟩

/-- A restore stops at every step of the installation, and a server starts in vain. -/
def crashedRestore : List Action :=
  [.startRestore 7 0 bothEntries, .startRuntime] ++ List.replicate 16 (.restoreStep 1 false) ++
    [.crash 1, .acquire 2 8 1 false]

set_option maxRecDepth 20000 in
theorem fence_and_lease_crashedRestore :
    let w := (hostMachine.exec servedHost crashedRestore).getD servedHost
    (w.disk.fence = true ∨ w.disk.AllOriginal ∨ w.disk.AllNew) ∧
      w.disk.fence = true ∧ w.disk.data .database = none :=
  ⟨(fence_and_lease (Transition.Machine.reachable_exec ⟨rfl, rfl, rfl⟩ (by decide))).2.1,
    by decide, by decide⟩

end Host
end SteamBee.Restore
