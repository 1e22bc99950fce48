import SteamBee.Restore.Backup

/-! Whatever fails while a backup is restored, the restore is complete, or undone, or
leaves every file and its fence behind. -/
namespace SteamBee.Restore
open Transition.Program

theorem Entries.file_eq_some {entries : Entries} {name : FileName} {node : Node} :
    entries.file name = some node ↔ entries name = some node ∧ node.exists = true := by
  simp [Entries.file, Option.filter_eq_some_iff]

theorem Entries.file_update (entries : Entries) (name k : FileName) (node : Option Node) :
    Entries.file (Function.update entries name node) k =
      if k = name then node.filter Node.exists else entries.file k := by
  unfold Entries.file
  by_cases h : k = name
  · subst h
    simp
  · simp [h]

namespace Disk
variable {d d' : Disk} {id : OwnerId} {o : Entries} {name : FileName}

/-- The owner holds the guard for a restore, whose critical files were `o` before. -/
structure Held (d : Disk) (id : OwnerId) (o : Entries) : Prop where
  lock : d.lock = some id
  guard : ∃ row, d.guard = .table [row] ∧ row.singleton = 1 ∧ row.ownerId = some id ∧
    row.restoreRequired = 1
  original : d.original = o

theorem Held.fence {d : Disk} {id : OwnerId} {o : Entries} (h : d.Held id o) : d.fence = true := by
  obtain ⟨row, hrow, -, -, hreq⟩ := h.guard
  simp [Disk.fence, hrow, hreq]

structure SameRecord (d d' : Disk) : Prop where
  guard : d'.guard = d.guard
  lock : d'.lock = d.lock
  original : d'.original = d.original
  replacement : d'.replacement = d.replacement

theorem SameRecord.held (h : d.SameRecord d') (hd : d.Held id o) : d'.Held id o := by
  refine ⟨h.lock.trans hd.lock, ?_, h.original.trans hd.original⟩
  rw [h.guard]
  exact hd.guard

theorem sameRecord_setEntry (d : Disk) (dir : Dir) (name : FileName) (node : Option Node) :
    d.SameRecord (d.setEntry dir name node) := by
  cases dir <;> exact ⟨rfl, rfl, rfl, rfl⟩

theorem sameRecord_setDir (d : Disk) (dir : Dir) (entries : Option Entries) :
    d.SameRecord (d.setDir dir entries) := by
  cases dir <;> exact ⟨rfl, rfl, rfl, rfl⟩

/-- A rename moves one entry. -/
theorem rename_spec {src dst : Dir} (h : d.rename src dst name = .ok d') :
    ∃ node, d.entry src name = some node ∧
      d' = (d.setEntry src name none).setEntry dst name (some node) := by
  unfold rename at h
  split at h
  next node _ hsrc _ => exact ⟨node, hsrc, (Except.ok.inj h).symm⟩
  next => cases h

theorem sameRecord_rename {src dst : Dir} (h : d.rename src dst name = .ok d') :
    d.SameRecord d' := by
  obtain ⟨node, -, rfl⟩ := rename_spec h
  have h₁ := sameRecord_setEntry d src name none
  have h₂ := sameRecord_setEntry (d.setEntry src name none) dst name (some node)
  exact ⟨h₂.guard.trans h₁.guard, h₂.lock.trans h₁.lock, h₂.original.trans h₁.original,
    h₂.replacement.trans h₁.replacement⟩

/-- Where the critical files are while `moved` have been moved out and `installed` have
been moved in. -/
structure Layout (d : Disk) (moved installed : List FileName) : Prop where
  data : ∀ name, d.data.file name =
    if name ∈ installed then d.replacement name
    else if name ∈ moved then none else d.original.file name
  staging : d.staging = some fun name => if name ∈ installed then none else d.replacement name
  rollback : d.rollback = some fun name => if name ∈ moved then d.original.file name else none
  staged : ∀ name ∈ installed, (d.replacement name).isSome = true
  regular : ∀ name node, d.replacement name = some node → node.kind = .regular
  kept : installed ≠ [] → ∀ name, (d.original.file name).isSome = true → name ∈ moved

def Holds (d : Disk) (name : FileName) (node : Node) : Prop := ∃ dir, d.entry dir name = some node

structure Present (d : Disk) : Prop where
  original : ∀ name node, d.original.file name = some node → d.Holds name node
  replacement : ∀ name node, d.replacement name = some node → d.Holds name node

theorem Layout.present {moved installed : List FileName} (h : d.Layout moved installed) :
    d.Present := by
  constructor
  · intro name node hnode
    by_cases hm : name ∈ moved
    · exact ⟨.rollback, by simp [entry, entries, h.rollback, hm, hnode]⟩
    · have hempty : installed = [] := by
        by_contra hne
        exact hm (h.kept hne name (by simp [hnode]))
      have hdata : d.data.file name = some node := by simp [h.data, hempty, hm, hnode]
      exact ⟨.data, by simpa [entry, entries] using (Entries.file_eq_some.mp hdata).1⟩
  · intro name node hnode
    by_cases hi : name ∈ installed
    · have hdata : d.data.file name = some node := by simp [h.data, hi, hnode]
      exact ⟨.data, by simpa [entry, entries] using (Entries.file_eq_some.mp hdata).1⟩
    · exact ⟨.staging, by simp [entry, entries, h.staging, hi, hnode]⟩

/-- A current file is moved out. -/
theorem Layout.moveOut {moved : List FileName} (h : d.Layout moved []) (hname : name ∉ moved)
    (hfile : (d.data.file name).isSome = true) (hr : d.rename .data .rollback name = .ok d') :
    d'.Layout (name :: moved) [] := by
  obtain ⟨node, hnode, rfl⟩ := rename_spec hr
  have hnode : d.data name = some node := hnode
  obtain ⟨node', hnode'⟩ := Option.isSome_iff_exists.mp hfile
  obtain rfl : node = node' :=
    Option.some.inj (hnode.symm.trans (Entries.file_eq_some.mp hnode').1)
  have horig : d.original.file name = some node := by
    rw [← hnode', h.data]
    simp [hname]
  constructor
  case data =>
    intro k
    show Entries.file (Function.update d.data name none) k = _
    rw [Entries.file_update]
    by_cases hk : k = name
    · simp [hk]
    · simp [hk, h.data, setEntry]
  case staging =>
    show d.staging = _
    rw [h.staging]
    simp [setEntry]
  case rollback =>
    show (d.rollback.map fun e => Function.update e name (some node)) = _
    rw [h.rollback]
    refine congrArg some (funext fun k => ?_)
    by_cases hk : k = name
    · subst hk
      simp [horig, setEntry]
    · simp [hk, setEntry]
  case staged => simp
  case regular => exact h.regular
  case kept => simp

/-- A staged file is moved in, where nothing is left that exists. -/
theorem Layout.moveIn {moved installed : List FileName} (h : d.Layout moved installed)
    (hname : name ∉ installed)
    (hall : ∀ k, (d.original.file k).isSome = true → k ∈ moved)
    (hr : d.rename .staging .data name = .ok d') : d'.Layout moved (name :: installed) := by
  obtain ⟨node, hnode, rfl⟩ := rename_spec hr
  have hrep : d.replacement name = some node := by
    simpa [entry, entries, h.staging, hname] using hnode
  have hexists : node.exists = true := by simp [Node.exists, h.regular name node hrep]
  constructor
  case data =>
    intro k
    show Entries.file (Function.update d.data name (some node)) k = _
    rw [Entries.file_update]
    by_cases hk : k = name
    · subst hk
      simp [hrep, Option.filter, hexists, setEntry]
    · simp [hk, h.data, setEntry]
  case staging =>
    show (d.staging.map fun e => Function.update e name none) = _
    rw [h.staging]
    refine congrArg some (funext fun k => ?_)
    by_cases hk : k = name
    · simp [hk]
    · simp [hk, setEntry]
  case rollback =>
    show d.rollback = _
    rw [h.rollback]
    simp [setEntry]
  case staged =>
    intro k hk
    rcases List.mem_cons.mp hk with rfl | hk
    · show (d.replacement k).isSome = true
      simp [hrep]
    · exact h.staged k hk
  case regular => exact h.regular
  case kept => exact fun _ => hall

/-- An installed file is moved back. -/
theorem Layout.undoIn {moved installed : List FileName} (h : d.Layout moved (name :: installed))
    (hname : name ∉ installed) (hr : d.rename .data .staging name = .ok d') :
    d'.Layout moved installed := by
  obtain ⟨node, hnode, rfl⟩ := rename_spec hr
  have hnode : d.data name = some node := hnode
  have hall := h.kept (by simp)
  obtain ⟨node', hrep⟩ := Option.isSome_iff_exists.mp (h.staged name (by simp))
  have hdata : d.data.file name = some node' := by simp [h.data, hrep]
  obtain rfl : node = node' := Option.some.inj (hnode.symm.trans (Entries.file_eq_some.mp hdata).1)
  -- what was there before is in the rollback directory, or did not exist
  have hgone : (if name ∈ moved then none else d.original.file name) = none := by
    by_cases hm : name ∈ moved
    · rw [if_pos hm]
    · rw [if_neg hm]
      by_contra hne
      exact hm (hall name (Option.ne_none_iff_isSome.mp hne))
  constructor
  case data =>
    intro k
    show Entries.file (Function.update d.data name none) k = _
    rw [Entries.file_update]
    by_cases hk : k = name
    · subst hk
      simpa [hname, setEntry] using hgone.symm
    · simp [hk, h.data, setEntry]
  case staging =>
    show (d.staging.map fun e => Function.update e name (some node)) = _
    rw [h.staging]
    refine congrArg some (funext fun k => ?_)
    by_cases hk : k = name
    · subst hk
      simp [hname, hrep, setEntry]
    · simp [hk, setEntry]
  case rollback =>
    show d.rollback = _
    rw [h.rollback]
    simp [setEntry]
  case staged => exact fun k hk => h.staged k (List.mem_cons_of_mem _ hk)
  case regular => exact h.regular
  case kept => exact fun _ => hall

/-- A moved file is moved back. -/
theorem Layout.undoOut {moved : List FileName} (h : d.Layout (name :: moved) [])
    (hname : name ∉ moved) (hr : d.rename .rollback .data name = .ok d') :
    d'.Layout moved [] := by
  obtain ⟨node, hnode, rfl⟩ := rename_spec hr
  have horig : d.original.file name = some node := by
    simpa [entry, entries, h.rollback] using hnode
  have hexists : node.exists = true := (Entries.file_eq_some.mp horig).2
  constructor
  case data =>
    intro k
    show Entries.file (Function.update d.data name (some node)) k = _
    rw [Entries.file_update]
    by_cases hk : k = name
    · subst hk
      simp [hname, horig, Option.filter, hexists, setEntry]
    · simp [hk, h.data, setEntry]
  case staging =>
    show d.staging = _
    rw [h.staging]
    simp [setEntry]
  case rollback =>
    show (d.rollback.map fun e => Function.update e name none) = _
    rw [h.rollback]
    refine congrArg some (funext fun k => ?_)
    by_cases hk : k = name
    · simp [hk, hname]
    · simp [hk, setEntry]
  case staged => simp
  case regular => exact h.regular
  case kept => simp

/-- Nobody interferes with the owner of the guard, who may do anything, and the invariant
holds while the fence is set. -/
structure Guarded (R G : Disk → Disk → Prop) (I : Disk → Prop) (id : OwnerId) : Prop where
  refl : ∀ d, R d d
  stable : ∀ d d', d.lock = some id → R d d' → d' = d
  free : ∀ d d', d.lock = some id → G d d'
  fenced : ∀ d, d.fence = true → I d

variable {R G : Disk → Disk → Prop} {I : Disk → Prop} {α : Type} {Q : α → Disk → Prop}

theorem Guarded.pure (g : Guarded R G I id) (hd : d.Held id o) {a : α} (hQ : Q a d) :
    (disk id).Always R G I Q (Pure.pure a) d :=
  Semantics.Always.pure (fun d' => g.stable d d' hd.lock) (g.fenced d hd.fence) hQ

theorem Guarded.perform (g : Guarded R G I id) (hd : d.Held id o) {o : Op}
    {k : Except FileError (Res o) → Script α}
    (hfails : ∀ e, (disk id).Fails o d e → (disk id).Always R G I Q (k (.error e)) d)
    (hdoes : ∀ r d', d.perform id o = .ok (r, d') → (disk id).Always R G I Q (k (.ok r)) d') :
    (disk id).Always R G I Q (Restore.perform o >>= k) d :=
  Semantics.Always.perform (fun d' => g.stable d d' hd.lock) (g.fenced d hd.fence)
    (g.free d d hd.lock) hfails fun r d' hp => ⟨g.free d d' hd.lock, hdoes r d' hp⟩

theorem Guarded.bind (g : Guarded R G I id) {β : Type} {p : Script β} {k : β → Script α}
    {P : β → Disk → Prop} (hp : (disk id).Always R G I P p d)
    (hk : ∀ b d', P b d' → (disk id).Always R G I Q (k b) d') : (disk id).Always R G I Q (p >>= k) d :=
  Semantics.Always.bind (hp.mono hk) g.refl

theorem perform_rename {src dst : Dir} {r : Unit}
    (h : d.perform id (.rename src dst name) = .ok (r, d')) : d.rename src dst name = .ok d' := by
  simp only [perform] at h
  cases hr : d.rename src dst name with
  | error e => simp [hr, Except.map] at h
  | ok d'' =>
    simp only [hr, Except.map, Except.ok.injEq, Prod.mk.injEq, true_and] at h
    rw [h]

theorem perform_identity {dir : Dir} {r : ℕ}
    (h : d.perform id (.identity dir name) = .ok (r, d')) : d' = d := by
  simp only [perform] at h
  cases hr : d.identity dir name with
  | error e => simp [hr, Except.map] at h
  | ok inode =>
    simp only [hr, Except.map, Except.ok.injEq, Prod.mk.injEq] at h
    exact h.2.symm

theorem perform_mkdir {dir : Dir} {r : Unit} (h : d.perform id (.mkdir dir) = .ok (r, d')) :
    d.entries dir = none ∧ d' = d.setDir dir (some fun _ => none) := by
  simp only [perform, mkdir] at h
  cases hr : d.entries dir with
  | some entries => simp [hr, Except.map] at h
  | none =>
    simp only [hr, Except.map, Except.ok.injEq, Prod.mk.injEq, true_and] at h
    exact ⟨rfl, h.symm⟩

theorem perform_remove {dir : Dir} {r : Unit} (h : d.perform id (.remove dir) = .ok (r, d')) :
    d' = d.setDir dir none := by
  simp only [perform, Except.ok.injEq, Prod.mk.injEq, true_and] at h
  exact h.symm

theorem always_readIdentities (g : Guarded R G I id) (hd : d.Held id o) (dir : Dir)
    (names : List FileName) :
    (disk id).Always R G I (fun _ s => s = d) (readIdentities dir names) d := by
  induction names with
  | nil => exact g.pure hd rfl
  | cons name names ih =>
    refine g.perform hd (fun e _ => g.pure hd rfl) fun identity d' hp => ?_
    rw [perform_identity hp]
    refine g.bind ih ?_
    rintro (e | rest) _ rfl
    · exact g.pure hd rfl
    · exact g.pure hd rfl

theorem always_checkIdentities (g : Guarded R G I id) (hd : d.Held id o) (changed : FileError)
    (identities : List (FileName × ℕ)) :
    (disk id).Always R G I (fun _ s => s = d) (checkIdentities changed identities) d := by
  induction identities with
  | nil => exact g.pure hd rfl
  | cons e rest ih =>
    obtain ⟨name, identity⟩ := e
    refine g.perform hd (fun e _ => g.pure hd rfl) fun found d' hp => ?_
    rw [perform_identity hp]
    dsimp only
    by_cases hne : found ≠ identity
    · rw [if_pos hne]
      exact g.pure hd rfl
    · rw [if_neg hne]
      exact ih

/-- An undo loop steps through the layouts `P` of the names that are left. -/
theorem always_renameAll (g : Guarded R G I id) {src dst : Dir} {P : List FileName → Disk → Prop}
    (hP : ∀ name names d d', P (name :: names) d → d.rename src dst name = .ok d' → P names d')
    (names : List FileName) (hd : d.Held id o) (hnames : P names d) :
    (disk id).Always R G I (fun r s => s.Held id o ∧ (∃ left, P left s) ∧ (r = none → P [] s))
      (renameAll src dst names) d := by
  induction names generalizing d with
  | nil => exact g.pure hd ⟨hd, ⟨[], hnames⟩, fun _ => hnames⟩
  | cons name names ih =>
    refine g.perform hd (fun e _ => g.pure hd ⟨hd, ⟨_, hnames⟩, ?_⟩) fun r d' hp => ?_
    · intro hnone
      cases hnone
    · have hr := perform_rename hp
      exact ih ((sameRecord_rename hr).held hd) (hP name names d d' hnames hr)

structure Staged (n : ℕ) (replacement : Entries) : Prop where
  all : ∀ name, (replacement name).isSome = true ↔ name ∈ restoredFiles
  fresh : ∀ name node, replacement name = some node → n ≤ node.inode

variable {n : ℕ}

structure Undoing (n : ℕ) (moved installed : List FileName) (d : Disk) : Prop where
  layout : d.Layout moved installed
  nodup : installed.Nodup ∧ moved.Nodup
  staged : Staged n d.replacement

theorem undoing_in {moved : List FileName} (name : FileName) (names : List FileName)
    (d d' : Disk) (h : Undoing n moved (name :: names) d)
    (hr : d.rename .data .staging name = .ok d') : Undoing n moved names d' := by
  obtain ⟨hname, hnodup⟩ := List.nodup_cons.mp h.nodup.1
  exact ⟨h.layout.undoIn hname hr, ⟨hnodup, h.nodup.2⟩,
    (sameRecord_rename hr).replacement ▸ h.staged⟩

theorem undoing_out (name : FileName) (names : List FileName) (d d' : Disk)
    (h : Undoing n (name :: names) [] d) (hr : d.rename .rollback .data name = .ok d') :
    Undoing n names [] d' := by
  obtain ⟨hname, hnodup⟩ := List.nodup_cons.mp h.nodup.2
  exact ⟨h.layout.undoOut hname hr, ⟨h.nodup.1, hnodup⟩,
    (sameRecord_rename hr).replacement ▸ h.staged⟩

structure Unchanged (d : Disk) : Prop where
  data : d.data.file = d.original.file
  staging : d.staging = some d.replacement
  regular : ∀ name node, d.replacement name = some node → node.kind = .regular

theorem Unchanged.present (h : d.Unchanged) : d.Present := by
  constructor
  · intro name node hnode
    rw [← h.data] at hnode
    exact ⟨.data, by simpa [entry, entries] using (Entries.file_eq_some.mp hnode).1⟩
  · intro name node hnode
    exact ⟨.staging, by simp [entry, entries, h.staging, hnode]⟩

theorem always_rollBack (g : Guarded R G I id) (hd : d.Held id o) (p : Progress)
    (h : Undoing n p.moved p.installed d) :
    (disk id).Always R G I (fun r s => s.Held id o ∧ Staged n s.replacement ∧ s.Present ∧
      (r = none → s.Unchanged)) (rollBack p) d := by
  have hfails (s : Disk) (e : FileError) (hs : s.Held id o) {moved installed : List FileName}
      (hleft : Undoing n moved installed s) :
      (disk id).Always R G I (fun r s => s.Held id o ∧ Staged n s.replacement ∧ s.Present ∧
        (r = none → s.Unchanged)) (Pure.pure (some e)) s := by
    refine g.pure hs ⟨hs, hleft.staged, hleft.layout.present, ?_⟩
    intro hnone
    cases hnone
  refine g.bind (always_renameAll g (P := Undoing n p.moved) undoing_in p.installed hd h) ?_
  rintro (_ | e) d₁ ⟨hd₁, ⟨left, hleft⟩, hdone⟩
  · refine g.bind (always_renameAll g (P := fun names d => Undoing n names [] d) undoing_out
      p.moved hd₁ (hdone rfl)) ?_
    rintro (_ | e) d₂ ⟨hd₂, ⟨left', hleft'⟩, hdone'⟩
    · have hback := hdone' rfl
      refine g.bind (always_checkIdentities g hd₂ .rollbackIdentity p.originalIdentities) ?_
      rintro (_ | e) d₃ hsame
      · rw [hsame]
        refine g.perform hd₂ (fun e _ => hfails d₂ e hd₂ hback) fun r d₄ hp => ?_
        obtain rfl := perform_remove hp
        have hd₃ : (d₂.setDir .rollback none).Held id o := (sameRecord_setDir _ _ _).held hd₂
        have hun : (d₂.setDir .rollback none).Unchanged := by
          refine ⟨funext fun name => ?_, ?_, hback.layout.regular⟩
          · simpa [setDir] using hback.layout.data name
          · simpa [setDir] using hback.layout.staging
        exact g.pure hd₃ ⟨hd₃, hback.staged, hun.present, fun _ => hun⟩
      · rw [hsame]
        exact hfails d₂ e hd₂ hback
    · exact hfails d₂ e hd₂ hleft'
  · exact hfails d₁ e hd₁ hleft

structure Reached (n : ℕ) (id : OwnerId) (o : Entries) (p : Progress) (d : Disk) : Prop where
  held : d.Held id o
  staged : Staged n d.replacement
  layout : d.Layout p.moved p.installed
  moved : p.moved.Nodup
  installed : p.installed.Nodup

theorem always_moveOut (g : Guarded R G I id) (names : List FileName) (p : Progress)
    (h : Reached n id o p d) (hempty : p.installed = []) (hnodup : names.Nodup)
    (hfresh : ∀ name ∈ names, name ∉ p.moved)
    (hcover : ∀ name, (d.original.file name).isSome = true → name ∈ p.moved ∨ name ∈ names) :
    (disk id).Always R G I (fun r s => Reached n id o r.2 s ∧ r.2.installed = [] ∧
      (r.1 = none → ∀ name, (s.original.file name).isSome = true → name ∈ r.2.moved))
      (moveOut names p) d := by
  induction names generalizing d p with
  | nil =>
    refine g.pure h.held ⟨h, hempty, fun _ name hname => ?_⟩
    simpa using hcover name hname
  | cons name names ih =>
    obtain ⟨hname, hnodup⟩ := List.nodup_cons.mp hnodup
    have hfails (p' : Progress) (hmoved : p'.moved = p.moved) (hinst : p'.installed = p.installed)
        (e : FileError) : (disk id).Always R G I (fun r s => Reached n id o r.2 s ∧ r.2.installed = [] ∧
          (r.1 = none → ∀ name, (s.original.file name).isSome = true → name ∈ r.2.moved))
          (Pure.pure (some e, p')) d := by
      have h' : Reached n id o p' d :=
        ⟨h.held, h.staged, by rw [hmoved, hinst]; exact h.layout, hmoved ▸ h.moved, hinst ▸ h.installed⟩
      refine g.pure h.held ⟨h', hinst.trans hempty, ?_⟩
      intro hnone
      cases hnone
    -- without the file there is nothing to move
    have hskip (habsent : d.data.file name = none) :
        (disk id).Always R G I (fun r s => Reached n id o r.2 s ∧ r.2.installed = [] ∧
          (r.1 = none → ∀ name, (s.original.file name).isSome = true → name ∈ r.2.moved))
          (moveOut names p) d := by
      refine ih p h hempty hnodup (fun k hk => hfresh k (List.mem_cons_of_mem _ hk)) ?_
      intro k hk
      rcases hcover k hk with hk' | hk'
      · exact .inl hk'
      · rcases List.mem_cons.mp hk' with rfl | hk'
        · have hlay := h.layout.data k
          rw [habsent, hempty] at hlay
          simp [hfresh k (by simp)] at hlay
          simp [← hlay] at hk
        · exact .inr hk'
    refine g.perform h.held (fun e hf => ?_) fun found d' hp => ?_
    · rcases hf with ⟨hmay, -⟩ | hperform
      · cases hmay
      · cases hperform
    · simp only [Disk.perform, Except.ok.injEq, Prod.mk.injEq] at hp
      obtain ⟨hfound, rfl⟩ := hp
      cases found with
      | false => exact hskip (by simpa using hfound)
      | true =>
        refine g.perform h.held (fun e _ => hfails p rfl rfl e) fun identity d' hp => ?_
        rw [perform_identity hp]
        refine g.perform h.held (fun e _ => hfails { p with originalIdentities :=
          p.originalIdentities ++ [(name, identity)] } rfl rfl e) fun r d'' hp => ?_
        have hr := perform_rename hp
        have hrec := sameRecord_rename hr
        have hlay : d''.Layout (name :: p.moved) [] :=
          (hempty ▸ h.layout).moveOut (hfresh name (by simp)) hfound hr
        have hreach : Reached n id o { p with
            moved := name :: p.moved
            originalIdentities := p.originalIdentities ++ [(name, identity)] } d'' :=
          ⟨hrec.held h.held, hrec.replacement ▸ h.staged, hempty ▸ hlay,
            List.nodup_cons.mpr ⟨hfresh name (by simp), h.moved⟩, h.installed⟩
        refine ih _ hreach hempty hnodup ?_ ?_
        · intro k hk hmem
          rcases List.mem_cons.mp hmem with rfl | hmem
          · exact hname hk
          · exact hfresh k (List.mem_cons_of_mem _ hk) hmem
        · intro k hk
          rw [hrec.original] at hk
          rcases hcover k hk with hk' | hk'
          · exact .inl (List.mem_cons_of_mem _ hk')
          · rcases List.mem_cons.mp hk' with rfl | hk'
            · exact .inl List.mem_cons_self
            · exact .inr hk'

theorem always_moveIn (g : Guarded R G I id) (names : List FileName) (p : Progress)
    (h : Reached n id o p d) (hnodup : names.Nodup) (hfresh : ∀ name ∈ names, name ∉ p.installed)
    (hall : ∀ name, (d.original.file name).isSome = true → name ∈ p.moved) :
    (disk id).Always R G I (fun r s => Reached n id o r.2 s ∧ (r.1 = none →
      (∀ name, (s.original.file name).isSome = true → name ∈ r.2.moved) ∧
        ∀ name, name ∈ p.installed ∨ name ∈ names → name ∈ r.2.installed))
      (moveIn names p) d := by
  induction names generalizing d p with
  | nil => exact g.pure h.held ⟨h, fun _ => ⟨hall, fun name hname => by simpa using hname⟩⟩
  | cons name names ih =>
    obtain ⟨hname, hnodup⟩ := List.nodup_cons.mp hnodup
    refine g.perform h.held (fun e _ => g.pure h.held ⟨h, ?_⟩) fun r d' hp => ?_
    · intro hnone
      cases hnone
    · have hr := perform_rename hp
      have hrec := sameRecord_rename hr
      have hreach : Reached n id o { p with installed := name :: p.installed } d' :=
        ⟨hrec.held h.held, hrec.replacement ▸ h.staged, h.layout.moveIn (hfresh name (by simp)) hall hr, h.moved,
          List.nodup_cons.mpr ⟨hfresh name (by simp), h.installed⟩⟩
      refine (ih _ hreach hnodup ?_ ?_).mono ?_
      · intro k hk hmem
        rcases List.mem_cons.mp hmem with rfl | hmem
        · exact hname hk
        · exact hfresh k (List.mem_cons_of_mem _ hk) hmem
      · intro k hk
        rw [hrec.original] at hk
        exact hall k hk
      · rintro r s ⟨hs, hdone⟩
        refine ⟨hs, fun hnone => ⟨(hdone hnone).1, fun k hk => (hdone hnone).2 k ?_⟩⟩
        rcases hk with hk | hk
        · exact .inl (List.mem_cons_of_mem _ hk)
        · rcases List.mem_cons.mp hk with rfl | hk
          · exact .inl List.mem_cons_self
          · exact .inr hk

structure Installed (n : ℕ) (d : Disk) : Prop where
  staged : Staged n d.replacement
  data : d.data.file = d.replacement
  rollback : ∃ entries, d.rollback = some entries ∧
    ∀ name node, d.original.file name = some node → entries name = some node

theorem Reached.complete {p : Progress} (h : Reached n id o p d)
    (hall : ∀ name, (d.original.file name).isSome = true → name ∈ p.moved)
    (hinst : ∀ name ∈ restoredFiles, name ∈ p.installed) : (d.setDir .staging none).Installed n := by
  refine ⟨h.staged, funext fun name => ?_, ?_⟩
  · show d.data.file name = d.replacement name
    rw [h.layout.data]
    by_cases hi : name ∈ p.installed
    · rw [if_pos hi]
    · -- nothing was staged under this name, and what was there is moved out
      have hnone : d.replacement name = none := by
        by_contra hne
        exact hi (hinst name ((h.staged.all name).mp (Option.ne_none_iff_isSome.mp hne)))
      rw [if_neg hi, hnone]
      by_cases hm : name ∈ p.moved
      · rw [if_pos hm]
      · rw [if_neg hm]
        by_contra hne
        exact hm (hall name (Option.ne_none_iff_isSome.mp hne))
  · refine ⟨_, h.layout.rollback, fun name node hnode => ?_⟩
    have hnode : d.original.file name = some node := hnode
    simp [hall name (by simp [hnode]), hnode]

theorem always_replaceFiles (g : Guarded R G I id) (identities : List (FileName × ℕ))
    (h : Reached n id o ⟨[], [], []⟩ d) :
    (disk id).Always R G I (fun r s => s.Held id o ∧ (r.1 = none → s.Installed n) ∧
      (r.1 ≠ none → Reached n id o r.2 s)) (replaceFiles identities) d := by
  have hfails (p : Progress) (s : Disk) (e : FileError) (hs : Reached n id o p s) :
      (disk id).Always R G I (fun r s => s.Held id o ∧ (r.1 = none → s.Installed n) ∧
        (r.1 ≠ none → Reached n id o r.2 s)) (Pure.pure (some e, p)) s := by
    refine g.pure hs.held ⟨hs.held, ?_, fun _ => hs⟩
    intro hnone
    cases hnone
  refine g.bind (always_moveOut g currentFiles ⟨[], [], []⟩ h rfl (by decide)
    (fun _ _ hmem => by cases hmem) ?_) ?_
  · intro name _
    right
    cases name <;> decide
  · rintro ⟨e | _, p⟩ d₁ ⟨h₁, hempty, hall⟩
    rotate_left
    · exact hfails p d₁ _ h₁
    have hempty : p.installed = [] := hempty
    refine g.bind (always_moveIn g restoredFiles p h₁ (by decide) (by simp [hempty]) (hall rfl)) ?_
    rintro ⟨e | _, p'⟩ d₂ ⟨h₂, hdone⟩
    rotate_left
    · exact hfails p' d₂ _ h₂
    refine g.bind (always_checkIdentities g h₂.held .identityChanged identities) ?_
    rintro (_ | e) d₃ hsame
    rotate_left
    · rw [hsame]
      exact hfails p' d₂ e h₂
    rw [hsame]
    refine g.perform h₂.held (fun e _ => hfails p' d₂ e h₂) fun r d₄ hp => ?_
    obtain rfl := perform_remove hp
    have hheld : (d₂.setDir .staging none).Held id o := (sameRecord_setDir _ _ _).held h₂.held
    obtain ⟨hall', hinst⟩ := hdone rfl
    have hcomplete := h₂.complete hall' fun name hname => hinst name (.inr hname)
    refine g.pure hheld ⟨hheld, fun _ => hcomplete, ?_⟩
    intro hne
    exact absurd rfl hne

inductive Undone (n : ℕ) (d : Disk) : RestoreError → Prop where
  | unchanged (e : FileError) (h : d.Unchanged) : Undone n d (.failed e)
  | incomplete (e rollbackError : FileError) (hs : Staged n d.replacement) (h : d.Present) :
    Undone n d (.incompleteRollback e rollbackError)

/-- What the installation leaves behind. -/
structure InstallEnds (n : ℕ) (id : OwnerId) (o : Entries) (r : Except RestoreError Unit)
    (d : Disk) : Prop where
  held : d.Held id o
  ok : r = .ok () → d.Installed n
  error : ∀ e, r = .error e → Undone n d e

theorem installEnds_error (g : Guarded R G I id) {e : RestoreError} (hd : d.Held id o)
    (h : Undone n d e) : (disk id).Always R G I (InstallEnds n id o) (Pure.pure (.error e)) d := by
  refine g.pure hd ⟨hd, ?_, ?_⟩
  · intro hok
    cases hok
  · rintro e' he
    obtain rfl := Except.error.inj he
    exact h

theorem always_installRestore (g : Guarded R G I id) (hd : d.Held id o)
    (hstaged : Staged n d.replacement) (h : d.Unchanged) :
    (disk id).Always R G I (InstallEnds n id o) installRestore d := by
  refine g.perform hd (fun e _ => installEnds_error g hd (.unchanged e h)) fun r d₁ hp => ?_
  obtain ⟨-, rfl⟩ := perform_mkdir hp
  have hd₁ : (d.setDir .rollback (some fun _ => none)).Held id o := (sameRecord_setDir _ _ _).held hd
  have h₁ : (d.setDir .rollback (some fun _ => none)).Unchanged := ⟨h.data, h.staging, h.regular⟩
  refine g.bind (always_readIdentities g hd₁ .staging restoredFiles) ?_
  rintro (e | identities) d₂ hsame
  · rw [hsame]
    exact installEnds_error g hd₁ (.unchanged e h₁)
  rw [hsame]
  have hreach : Reached n id o ⟨[], [], []⟩ (d.setDir .rollback (some fun _ => none)) := by
    refine ⟨hd₁, hstaged, ⟨?_, ?_, ?_, ?_, h.regular, ?_⟩, List.nodup_nil, List.nodup_nil⟩
    · intro name
      simpa using congrFun h₁.data name
    · simpa using h₁.staging
    · simp [setDir]
    · simp
    · simp
  refine g.bind (always_replaceFiles g identities hreach) ?_
  rintro ⟨_ | e, p⟩ d₃ ⟨hd₃, hok, hstopped⟩
  · refine g.pure hd₃ ⟨hd₃, fun _ => hok rfl, ?_⟩
    intro e he
    cases he
  · have hreach' := hstopped (by simp)
    refine g.bind (always_rollBack g hd₃ p ⟨hreach'.layout, ⟨hreach'.installed, hreach'.moved⟩,
      hreach'.staged⟩) ?_
    rintro (_ | rollbackError) d₄ ⟨hd₄, hstaged₄, hpresent, hback⟩
    · exact installEnds_error g hd₄ (.unchanged e (hback rfl))
    · exact installEnds_error g hd₄ (.incomplete e rollbackError hstaged₄ hpresent)

structure Staging (n : ℕ) (d : Disk) (names : List FileName) : Prop where
  unchanged : d.Unchanged
  next : n ≤ d.nextInode
  fresh : ∀ name node, d.replacement name = some node → n ≤ node.inode
  written : ∀ name, (d.replacement name).isSome = true ↔ name ∈ restoredFiles ∧ name ∉ names

theorem Staging.write {names : List FileName} {name : FileName} (h : Staging n d (name :: names))
    (hname : name ∈ restoredFiles) (hnodup : name ∉ names) (hw : d.write name = .ok d') :
    Staging n d' names ∧ d'.guard = d.guard ∧ d'.lock = d.lock ∧ d'.original = d.original := by
  unfold Disk.write at hw
  split at hw
  next e hstaging hnone =>
    obtain rfl := Except.ok.inj hw
    refine ⟨⟨⟨?_, ?_, ?_⟩, ?_, ?_, ?_⟩, rfl, rfl, rfl⟩
    · exact h.unchanged.data
    · show (d.staging.map fun e => Function.update e name _) = _
      rw [h.unchanged.staging]
      rfl
    · intro k node hk
      have hk : Function.update d.replacement name (some ⟨d.nextInode, .regular⟩) k = some node := hk
      by_cases hkn : k = name
      · subst hkn
        simp only [Function.update_self, Option.some.injEq] at hk
        rw [← hk]
      · rw [Function.update_of_ne hkn] at hk
        exact h.unchanged.regular k node hk
    · exact Nat.le_trans h.next (Nat.le_succ _)
    · intro k node hk
      have hk : Function.update d.replacement name (some ⟨d.nextInode, .regular⟩) k = some node := hk
      by_cases hkn : k = name
      · subst hkn
        simp only [Function.update_self, Option.some.injEq] at hk
        rw [← hk]
        exact h.next
      · rw [Function.update_of_ne hkn] at hk
        exact h.fresh k node hk
    · intro k
      show (Function.update d.replacement name (some ⟨d.nextInode, .regular⟩) k).isSome = true ↔ _
      by_cases hkn : k = name
      · subst hkn
        simp [hname, hnodup]
      · rw [Function.update_of_ne hkn, h.written k]
        simp [hkn]
  next => cases hw

theorem always_writeEntries (g : Guarded R G I id) (names : List FileName) (hd : d.Held id o)
    (h : Staging n d names) (hnodup : names.Nodup) (hsub : ∀ name ∈ names, name ∈ restoredFiles) :
    (disk id).Always R G I (fun r s => s.Held id o ∧ s.Unchanged ∧ (r = none → Staged n s.replacement))
      (writeEntries names) d := by
  induction names generalizing d with
  | nil =>
    refine g.pure hd ⟨hd, h.unchanged, fun _ => ⟨fun name => ?_, h.fresh⟩⟩
    simpa using h.written name
  | cons name names ih =>
    obtain ⟨hname, hnodup⟩ := List.nodup_cons.mp hnodup
    refine g.perform hd (fun e _ => g.pure hd ⟨hd, h.unchanged, ?_⟩) fun r d' hp => ?_
    · intro hnone
      cases hnone
    · have hw : d.write name = .ok d' := by
        simp only [Disk.perform] at hp
        cases hw : d.write name with
        | error e => simp [hw, Except.map] at hp
        | ok d'' =>
          simp only [hw, Except.map, Except.ok.injEq, Prod.mk.injEq, true_and] at hp
          rw [hp]
      obtain ⟨hstaging, hguard, hlock, horig⟩ := h.write (hsub name (by simp)) hname hw
      have hd' : d'.Held id o :=
        ⟨hlock.trans hd.lock, hguard ▸ hd.guard, horig.trans hd.original⟩
      exact ih hd' hstaging hnodup fun k hk => hsub k (List.mem_cons_of_mem _ hk)

theorem always_stageAndInstall (g : Guarded R G I id) (payload : Payload) (hd : d.Held id o)
    (h : Staging n d payload.entries) :
    (disk id).Always R G I (InstallEnds n id o) (stageAndInstall payload) d := by
  have hperm := payload.entries_perm
  have hnodup : payload.entries.Nodup := hperm.nodup_iff.mpr (by decide)
  have hsub : ∀ name ∈ payload.entries, name ∈ restoredFiles := fun name => hperm.mem_iff.mp
  refine g.bind (always_writeEntries g payload.entries hd h hnodup hsub) ?_
  rintro (_ | e) d₁ ⟨hd₁, h₁, hstaged⟩
  · refine g.perform hd₁ (fun e _ => installEnds_error g hd₁ (.unchanged e h₁)) fun r d₂ hp => ?_
    obtain rfl : d₁ = d₂ := by simpa [Disk.perform] using hp
    refine g.perform hd₁ (fun e _ => installEnds_error g hd₁ (.unchanged e h₁)) fun r d₂ hp => ?_
    obtain rfl : d₁ = d₂ := by simpa [Disk.perform] using hp
    exact always_installRestore g hd₁ (hstaged rfl) h₁
  · exact installEnds_error g hd₁ (.unchanged e h₁)

/-- What `restoreBackup` leaves behind when it acquired the guard. -/
inductive RestoreEnds (n : ℕ) (d : Disk) : Except RestoreError Unit → Bool → Prop where
  | installed (h : d.Installed n) : RestoreEnds n d (.ok ()) true
  | undone (e : FileError) (safe : Bool) (h : d.data.file = d.original.file)
      (hsafe : safe = false → e = .io (.remove .staging)) : RestoreEnds n d (.error (.failed e)) safe
  | incomplete (e rollbackError : FileError) (hs : Staged n d.replacement) (h : d.Present) :
    RestoreEnds n d (.error (.incompleteRollback e rollbackError)) false

theorem always_cleanUp (g : Guarded R G I id) {r : Except RestoreError Unit}
    (h : InstallEnds n id o r d) :
    (disk id).Always R G I (fun r s => s.Held id o ∧ RestoreEnds n s r.1 r.2) (cleanUp r) d := by
  obtain ⟨hd, hok, herror⟩ := h
  rcases r with e | _
  · rcases herror e rfl with ⟨e, hun⟩ | ⟨e, rollbackError, hs, hpresent⟩
    · refine g.perform hd (fun e hf => ?_) fun r d' hp => ?_
      · refine g.pure hd ⟨hd, .undone e false hun.data fun _ => ?_⟩
        rcases hf with ⟨-, rfl⟩ | hperform
        · rfl
        · cases hperform
      · obtain rfl := perform_remove hp
        have hd' : (d.setDir .staging none).Held id o := (sameRecord_setDir _ _ _).held hd
        exact g.pure hd' ⟨hd', .undone e true hun.data fun hsafe => by cases hsafe⟩
    · exact g.pure hd ⟨hd, .incomplete e rollbackError hs hpresent⟩
  · exact g.pure hd ⟨hd, .installed (hok rfl)⟩

theorem always_restoreHeld (g : Guarded R G I id) (payload : Payload) (hd : d.Held id o)
    (horiginal : d.data.file = d.original.file) (hnone : d.replacement = fun _ => none)
    (hn : n ≤ d.nextInode) :
    (disk id).Always R G I (fun r s => s.Held id o ∧ RestoreEnds n s r.1 r.2) (restoreHeld payload) d := by
  have hsafe (s : Disk) (e : FileError) (hs : s.Held id o) (h : s.data.file = s.original.file) :
      (disk id).Always R G I (fun r s => s.Held id o ∧ RestoreEnds n s r.1 r.2)
        (Pure.pure (.error (.failed e), true)) s := by
    refine g.pure hs ⟨hs, .undone e true h ?_⟩
    intro hfalse
    cases hfalse
  refine g.perform hd (fun e _ => hsafe d e hd horiginal) fun r d₁ hp => ?_
  obtain rfl : d = d₁ := by simpa [Disk.perform] using hp
  dsimp only
  split
  next => exact hsafe d _ hd horiginal
  next =>
    refine g.perform hd (fun e hf => ?_) fun stagingExists d₂ hp => ?_
    · rcases hf with ⟨hmay, -⟩ | hperform
      · cases hmay
      · cases hperform
    simp only [Disk.perform, Except.ok.injEq, Prod.mk.injEq] at hp
    obtain ⟨hstaging, rfl⟩ := hp
    refine g.perform hd (fun e hf => ?_) fun rollbackExists d₃ hp => ?_
    · rcases hf with ⟨hmay, -⟩ | hperform
      · cases hmay
      · cases hperform
    simp only [Disk.perform, Except.ok.injEq, Prod.mk.injEq] at hp
    obtain ⟨hrollback, rfl⟩ := hp
    split
    next =>
      refine g.perform hd (fun e _ => hsafe d e hd horiginal) fun r d₄ hp => ?_
      obtain ⟨-, rfl⟩ := perform_mkdir hp
      have hd' : (d.setDir .staging (some fun _ => none)).Held id o :=
        (sameRecord_setDir _ _ _).held hd
      have hstaging : Staging n (d.setDir .staging (some fun _ => none)) payload.entries := by
        have hrep : (d.setDir .staging (some fun _ => none)).replacement = fun _ => none := hnone
        refine ⟨⟨horiginal, ?_, ?_⟩, hn, ?_, ?_⟩
        · rw [hrep]
          rfl
        · simp [hrep]
        · simp [hrep]
        · intro name
          rw [hrep]
          simpa [payload.entries_perm.mem_iff, restoredFiles] using fun h => by
            rcases h with rfl | rfl <;> simp
      exact g.bind (always_stageAndInstall g payload hd' hstaging) fun r s hs =>
        always_cleanUp g hs
    next => exact hsafe d _ hd horiginal

theorem Held.complete (h : d.Held id o) :
    ∃ guard, d.completeRestore id = .ok { d with guard } ∧
      ({ d with guard } : Disk).fence = false := by
  obtain ⟨row, hrow, hsingle, howner, -⟩ := h.guard
  refine ⟨.table [{ row with restoreRequired := 0 }], ?_, ?_⟩
  · simp [Disk.completeRestore, h.lock, hrow, hsingle, howner]
  · simp [Disk.fence]

/-- The end of `restoreBackup`: `guard` is what the fence is left as. -/
theorem always_endRestore (g : Guarded R G I id) (hd : d.Held id o) {r : Except RestoreError Unit}
    {safe : Bool} {Q : Except RestoreError Unit → Disk → Prop}
    (hopen : ∀ guard, ({ d with guard } : Disk).fence = false → safe = true → I { d with guard })
    (hend : ∀ guard d', ({ d with guard } : Disk).fence = !safe →
      R { d with guard, lock := none } d' → I d' ∧ Q r d') :
    (disk id).Always R G I Q (endRestore r safe) d := by
  have hrelease (guard : GuardFile) (hfence : ({ d with guard } : Disk).fence = !safe)
      (hI : I { d with guard }) :
      (disk id).Always R G I Q (do let _ ← Restore.perform .release; Pure.pure r) { d with guard } := by
    have hstable (d' : Disk) (hR : R { d with guard } d') : d' = { d with guard } :=
      g.stable _ _ hd.lock hR
    refine Semantics.Always.perform hstable hI (g.free _ _ hd.lock) (fun e hf => ?_)
      fun _ d' hp => ⟨g.free _ _ hd.lock, ?_⟩
    · rcases hf with ⟨hmay, -⟩ | hperform
      · cases hmay
      · cases hperform
    · obtain rfl : { d with guard, lock := none } = d' := by
        simpa [disk, Disk.perform, release, hd.lock] using hp
      exact fun d'' hR => hend guard d'' hfence hR
  unfold endRestore
  cases safe with
  | false => exact hrelease d.guard (by simpa using hd.fence) (g.fenced d hd.fence)
  | true =>
    obtain ⟨guard, hcomplete, hfence⟩ := hd.complete
    refine g.perform hd (fun e hf => ?_) fun _ d' hp => ?_
    · rcases hf with ⟨hmay, -⟩ | hperform
      · cases hmay
      · simp [disk, Disk.perform, hcomplete, Except.map] at hperform
    · obtain rfl : { d with guard } = d' := by
        simpa [Disk.perform, hcomplete, Except.map] using hp
      exact hrelease guard (by simpa using hfence) (hopen guard hfence rfl)

/-- Acquiring the guard: the lock was free and the fence clear. -/
theorem acquire_spec {kind : OwnerKind} {pid now : ℤ} (h : d.acquire id kind pid now = .ok d') :
    d.lock = none ∧ d.fence = false ∧
      d' = { d with
        guard := .table [⟨1, some id, some kind, pid, now, if kind = .restore then 1 else 0⟩]
        lock := some id
        original := if kind = .restore then d.data else d.original
        replacement := if kind = .restore then fun _ => none else d.replacement } := by
  unfold acquire at h
  dsimp only at h
  split at h
  next => cases h
  next hlock =>
    have hlock : d.lock = none := by simpa using hlock
    split at h
    next => cases h
    next hguard =>
      obtain rfl := Except.ok.inj h
      exact ⟨hlock, by simp [Disk.fence, hguard], rfl⟩
    next hguard =>
      obtain rfl := Except.ok.inj h
      exact ⟨hlock, by simp [Disk.fence, hguard], rfl⟩
    next row hguard =>
      split at h
      next => cases h
      next =>
        split at h
        next => cases h
        next hreq =>
          obtain rfl := Except.ok.inj h
          exact ⟨hlock, by simp [Disk.fence, hguard, hreq], rfl⟩
    next => cases h

theorem perform_acquire {kind : OwnerKind} {pid now : ℤ} {r : Unit}
    (h : d.perform id (.acquire kind pid now) = .ok (r, d')) :
    d.acquire id kind pid now = .ok d' := by
  simp only [perform] at h
  cases hacq : d.acquire id kind pid now with
  | error e => simp [hacq, Except.map] at h
  | ok d'' =>
    simp only [hacq, Except.map, Except.ok.injEq, Prod.mk.injEq, true_and] at h
    rw [h]

/-- A restore that has just acquired the guard. -/
theorem acquire_held {pid now : ℤ} (h : d.acquire id .restore pid now = .ok d') :
    d'.Held id d.data ∧ d'.data.file = d'.original.file ∧ (d'.replacement = fun _ => none) ∧
      d'.nextInode = d.nextInode := by
  obtain ⟨-, -, rfl⟩ := acquire_spec h
  exact ⟨⟨rfl, ⟨_, rfl, rfl, rfl, rfl⟩, rfl⟩, rfl, rfl, rfl⟩

/-- Every way in which `restoreBackup` ends. A fence that is set refuses it; otherwise it
is complete, or undone, or leaves its fence and every file behind. -/
inductive Restored (before after : Disk) : Except RestoreError Unit → Prop where
  | refused (e : FileError) (hset : before.fence = true) (h : after = before) :
    Restored before after (.error (.failed e))
  | installed (h : after.data.file = after.replacement)
      (hs : Staged before.nextInode after.replacement)
      (hrollback : ∃ entries, after.rollback = some entries ∧
        ∀ name node, before.data.file name = some node → entries name = some node)
      (hfence : after.fence = false) : Restored before after (.ok ())
  | undone (e : FileError) (h : after.data.file = before.data.file)
      (hfence : after.fence = true → e = .io (.remove .staging)) :
    Restored before after (.error (.failed e))
  | incomplete (e rollbackError : FileError)
      (horiginal : ∀ name node, before.data.file name = some node → after.Holds name node)
      (hs : Staged before.nextInode after.replacement)
      (hreplacement : ∀ name node, after.replacement name = some node → after.Holds name node)
      (hfence : after.fence = true) :
    Restored before after (.error (.incompleteRollback e rollbackError))

theorem guarded_alone (id : OwnerId) : Guarded Eq (fun _ _ => True) (fun _ => True) id :=
  ⟨fun _ => rfl, fun _ _ _ h => h.symm, fun _ _ _ => trivial, fun _ _ => trivial⟩

theorem restored_of_ends {before : Disk} {r : Except RestoreError Unit} {safe : Bool}
    {guard : GuardFile} (h : RestoreEnds before.nextInode d r safe) (hd : d.Held id before.data)
    (hfence : ({ d with guard } : Disk).fence = !safe) :
    Restored before { d with guard, lock := none } r := by
  have hfence : ({ d with guard, lock := none } : Disk).fence = !safe := hfence
  rcases h with ⟨hs, hdata, hroll⟩ | ⟨e, safe, hdata, hsafe⟩ | ⟨e, rollbackError, hs, hpresent⟩
  · rw [hd.original] at hroll
    exact .installed hdata hs hroll hfence
  · refine .undone e (hdata.trans (by rw [hd.original])) fun hset => hsafe ?_
    rw [hfence] at hset
    simpa using hset
  · refine .incomplete e rollbackError (fun name node hnode => ?_) hs
      (fun name node hnode => ?_) hfence
    · exact hpresent.original name node (by rwa [hd.original])
    · exact hpresent.replacement name node hnode

/-- However its file operations fail, `restoreBackup` ends in one of these ways. -/
theorem restoreBackup_restored (id : OwnerId) (pid now : ℤ) (payload : Payload)
    (fails : List Bool) (before : Disk) :
    Restored before ((disk id).run (restoreBackup pid now payload) fails before).2
      ((disk id).run (restoreBackup pid now payload) fails before).1 := by
  have hstop (e : FileError) : Restored before before (.error (.failed e)) := by
    cases hset : before.fence with
    | true => exact .refused e hset rfl
    | false => exact .undone e rfl fun h => by simp [hset] at h
  have g := guarded_alone id
  have halways : (disk id).Always Eq (fun _ _ => True) (fun _ => True) (fun r after => Restored before after r)
      (restoreBackup pid now payload) before := by
    refine Semantics.Always.perform (fun _ h => h.symm) trivial trivial (fun e _ => ?_)
      fun _ d hp => ⟨trivial, ?_⟩
    · exact Semantics.Always.pure (fun _ h => h.symm) trivial (hstop e)
    obtain rfl : before = d := by simpa [disk, Disk.perform] using hp
    refine Semantics.Always.perform (fun _ h => h.symm) trivial trivial (fun e _ => ?_)
      fun _ d hp => ⟨trivial, ?_⟩
    · exact Semantics.Always.pure (fun _ h => h.symm) trivial (hstop e)
    obtain ⟨hd, horiginal, hnone, hnext⟩ := acquire_held (perform_acquire hp)
    refine g.bind (always_restoreHeld (n := before.nextInode) g payload hd horiginal hnone
      (Nat.le_of_eq hnext.symm)) ?_
    rintro ⟨r, safe⟩ s ⟨hs, hends⟩
    refine always_endRestore g hs (fun _ _ _ => trivial) fun guard d' hfence hR => ?_
    subst hR
    exact ⟨trivial, restored_of_ends hends hs hfence⟩
  exact halways.run (fun _ => rfl) fails

def bothEntries : Payload := ⟨some "001_initial_schema", [.database, .secret], .refl _⟩

/-- An earlier restore could not roll back and left its fence. -/
def fencedDisk : Disk where
  data := fun _ => none
  staging := some fun _ => none
  rollback := some fun _ => none
  nextInode := 1
  guard := .table [⟨1, some 0, some .restore, 7, 0, 1⟩]
  lock := none
  original := fun _ => none
  replacement := fun _ => none

theorem restoreBackup_keeps_old_fence :
    (∃ e, ((disk 1).run (restoreBackup 7 0 bothEntries) [] fencedDisk).1 = .error (.failed e) ∧
      e ≠ .io (.remove .staging)) ∧
      ((disk 1).run (restoreBackup 7 0 bothEntries) [] fencedDisk).2.fence = true :=
  ⟨⟨_, rfl, by decide⟩, rfl⟩

/-- A data directory with a database that the server left. -/
def servedDisk : Disk where
  data := fun name => if name = .database then some ⟨5, .regular⟩ else none
  staging := none
  rollback := none
  nextInode := 9
  guard := .table [⟨1, some 0, some .runtime, 7, 0, 0⟩]
  lock := none
  original := fun _ => none
  replacement := fun _ => none

/-- The installation of the secret fails, and so does moving the new database back. -/
example : ((disk 1).run (restoreBackup 7 0 bothEntries)
    [false, false, false, false, false, false, false, false, false, false, false, false, false,
      false, false, false, false, false, false, false, false, true, true] servedDisk).1 =
    .error (.incompleteRollback (.io (.rename .staging .data .secret))
      (.io (.rename .data .staging .database))) := rfl

end Disk
end SteamBee.Restore
