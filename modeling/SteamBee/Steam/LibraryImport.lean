import SteamBee.Steam.Library

/-! An import replaces the entries of an account as a whole, and what the user set on them
lives on, unless an edit slips in between what the import reads and what it writes. -/
namespace SteamBee.Steam
namespace Library
open Transition

def libraryMachine : Machine LibraryState LibraryAction where
  Starts s := s.imports = ∅ ∧ s.edits = ∅
  next := LibraryState.next

section Replace
variable {db db' t : LibraryDb} {accountId : AccountId} {previousMeta : PreviousMeta} {now : ℕ}
  {app : OwnedApp} {apps : List OwnedApp}

namespace LibraryDb

theorem insertApp_eq_some (h : db.insertApp accountId previousMeta now app = some t) :
    (accountId, app.appId) ∉ db.library ∧ t = { db with
      appCache := db.appCache.insert app.appId ⟨app.name, app.playtimeForever, now⟩
      library := db.library.insert (accountId, app.appId) (entryOf previousMeta now app) } := by
  unfold insertApp at h
  split_ifs at h with hmem
  exact ⟨hmem, (Option.some.inj h).symm⟩

/-- What the loop keeps of an entry that is there: it, and the name and time of its app. -/
structure Holds (appId : AppId) (entry : LibraryEntry) (cached : Option CachedApp)
    (accountId : AccountId) (db : LibraryDb) : Prop where
  entry : db.library.lookup (accountId, appId) = some entry
  cached : db.appCache.lookup appId = cached

theorem Holds.turn {appId : AppId} {entry : LibraryEntry} {cached : Option CachedApp}
    (h : Holds appId entry cached accountId db)
    (hn : db.insertApp accountId previousMeta now app = some t) :
    Holds appId entry cached accountId t := by
  obtain ⟨hfresh, rfl⟩ := insertApp_eq_some hn
  have hne : appId ≠ app.appId := by
    rintro rfl
    exact hfresh (AList.lookup_isSome.mp (by simp [h.entry]))
  constructor
  · rw [Table.lookup_insert_eq, if_neg (by simpa using hne)]
    exact h.entry
  · rw [Table.lookup_insert_eq, if_neg hne]
    exact h.cached

theorem Holds.loop {appId : AppId} {entry : LibraryEntry} {cached : Option CachedApp}
    (h : Holds appId entry cached accountId db)
    (hn : apps.foldlM (insertApp accountId previousMeta now) db = some t) :
    Holds appId entry cached accountId t := by
  induction apps generalizing db with
  | nil =>
    cases hn
    exact h
  | cons app apps ih =>
    obtain ⟨mid, hmid, hrest⟩ := Option.bind_eq_some_iff.mp hn
    exact ih (h.turn hmid) hrest

/-- Every app of the loop gets its entry. By induction on the apps. -/
theorem holds_insertApps (hn : apps.foldlM (insertApp accountId previousMeta now) db = some t)
    (happ : app ∈ apps) : Holds app.appId (entryOf previousMeta now app)
      (some ⟨app.name, app.playtimeForever, now⟩) accountId t := by
  induction apps generalizing db with
  | nil => cases happ
  | cons first apps ih =>
    obtain ⟨mid, hmid, hrest⟩ := Option.bind_eq_some_iff.mp hn
    rcases List.mem_cons.mp happ with rfl | happ
    · refine Holds.loop ?_ hrest
      obtain ⟨-, rfl⟩ := insertApp_eq_some hmid
      exact ⟨AList.lookup_insert _, AList.lookup_insert _⟩
    · exact ih hrest happ

/-- The loop leaves every other entry as it was. -/
theorem lookup_insertApps (hn : apps.foldlM (insertApp accountId previousMeta now) db = some t)
    {key : AccountId × AppId} (hkey : ∀ app ∈ apps, key ≠ (accountId, app.appId)) :
    t.library.lookup key = db.library.lookup key := by
  induction apps generalizing db with
  | nil =>
    cases hn
    rfl
  | cons first apps ih =>
    obtain ⟨mid, hmid, hrest⟩ := Option.bind_eq_some_iff.mp hn
    rw [ih hrest fun app happ => hkey app (List.mem_cons_of_mem first happ)]
    obtain ⟨-, rfl⟩ := insertApp_eq_some hmid
    exact AList.lookup_insert_ne (hkey first List.mem_cons_self)

theorem libraryImportedAt_insertApps
    (hn : apps.foldlM (insertApp accountId previousMeta now) db = some t) :
    t.libraryImportedAt = db.libraryImportedAt := by
  induction apps generalizing db with
  | nil =>
    cases hn
    rfl
  | cons first apps ih =>
    obtain ⟨mid, hmid, hrest⟩ := Option.bind_eq_some_iff.mp hn
    rw [ih hrest]
    obtain ⟨-, rfl⟩ := insertApp_eq_some hmid
    rfl

theorem lookup_deleteAccount (key : AccountId × AppId) :
    (db.deleteAccount accountId).library.lookup key =
      if key.1 = accountId then none else db.library.lookup key := by
  simp only [deleteAccount, Table.lookup_retain]
  split_ifs with hkey
  · simp [hkey]
  · cases db.library.lookup key <;> simp [hkey]

/-- The entries of the account are those of the apps, and no other row changes. -/
structure Replaced (accountId : AccountId) (apps : List OwnedApp) (previousMeta : PreviousMeta)
    (now : ℕ) (db t : LibraryDb) : Prop where
  owned : ∀ app ∈ apps, t.library.lookup (accountId, app.appId) =
    some (entryOf previousMeta now app)
  gone : ∀ appId, (∀ app ∈ apps, app.appId ≠ appId) → t.library.lookup (accountId, appId) = none
  others : ∀ other appId, other ≠ accountId →
    t.library.lookup (other, appId) = db.library.lookup (other, appId)
  cached : ∀ app ∈ apps, t.appCache.lookup app.appId =
    some ⟨app.name, app.playtimeForever, now⟩
  importedAt : t.libraryImportedAt = db.libraryImportedAt.insert accountId now

theorem replaced_of_replace
    (h : db.replaceAccountLibrary accountId apps previousMeta now = some t) :
    Replaced accountId apps previousMeta now db t := by
  obtain ⟨mid, hmid, heq⟩ := Option.bind_eq_some_iff.mp h
  obtain rfl := Option.some.inj heq
  constructor
  case owned => exact fun app happ => (holds_insertApps hmid happ).entry
  case cached => exact fun app happ => (holds_insertApps hmid happ).cached
  case gone =>
    intro appId hgone
    show mid.library.lookup _ = none
    rw [lookup_insertApps hmid fun app happ he => hgone app happ (Prod.ext_iff.mp he).2.symm,
      lookup_deleteAccount, if_pos rfl]
  case others =>
    intro other appId hother
    show mid.library.lookup _ = _
    rw [lookup_insertApps hmid fun app happ he => hother (Prod.ext_iff.mp he).1,
      lookup_deleteAccount, if_neg hother]
  case importedAt =>
    show mid.libraryImportedAt.insert accountId now = _
    rw [libraryImportedAt_insertApps hmid]
    rfl

theorem Replaced.metaOf (h : Replaced accountId apps previousMeta now db t) (other : AccountId)
    (appId : AppId) : t.metaOf other appId =
      if other = accountId then
        if appId ∈ apps.map OwnedApp.appId then some ((previousMeta appId).getD {}) else none
      else db.metaOf other appId := by
  unfold LibraryDb.metaOf
  split_ifs with hother happ
  · obtain ⟨app, hmem, rfl⟩ := List.mem_map.mp happ
    rw [hother, h.owned app hmem]
    rfl
  · rw [hother, h.gone appId fun app hmem he => happ (he ▸ List.mem_map_of_mem hmem)]
    rfl
  · rw [h.others other appId hother]

theorem metaOf_update (edit : MetaEdit) (other : AccountId) (appId : AppId) :
    (db.update edit).metaOf other appId =
      if other = edit.accountId ∧ appId = edit.appId then
        (db.metaOf other appId).map edit.set
      else db.metaOf other appId := by
  unfold LibraryDb.metaOf LibraryDb.update
  dsimp only
  rw [Table.lookup_modify]
  simp only [Prod.mk.injEq]
  split_ifs with hkey
  · rw [hkey.1, hkey.2]
    cases db.library.lookup (edit.accountId, edit.appId) <;> rfl
  · rfl

/-- No entry comes or goes, and none is imported. -/
structure Kept (db t : LibraryDb) : Prop where
  entries : ∀ key, (t.library.lookup key).map (fun entry => (entry.playtimeForever, entry.importedAt))
    = (db.library.lookup key).map fun entry => (entry.playtimeForever, entry.importedAt)
  appCache : t.appCache = db.appCache
  importedAt : t.libraryImportedAt = db.libraryImportedAt

theorem Kept.refl (db : LibraryDb) : db.Kept db := ⟨fun _ => rfl, rfl, rfl⟩

theorem kept_update (edit : MetaEdit) : db.Kept (db.update edit) := by
  refine ⟨fun key => ?_, rfl, rfl⟩
  unfold LibraryDb.update
  dsimp only
  rw [Table.lookup_modify]
  split_ifs with hkey
  · rw [hkey]
    cases db.library.lookup (edit.accountId, edit.appId) <;> rfl
  · rfl

end LibraryDb
end Replace

/-- For each entry the values that the user's committed requests have left on it. -/
abbrev Committed := AccountId → PreviousMeta

/-- What a step commits: an edit sets its fields, and an import that goes through makes entries
of the apps that are new and drops those of the apps that are not owned any more. -/
def commit (last : Committed) (s : LibraryState) : LibraryAction → Committed
  | .updateEntry request =>
    match s.edits.lookup request with
    | some (edit, .updating) => fun other appId =>
      if other = edit.accountId ∧ appId = edit.appId then (last other appId).map edit.set
      else last other appId
    | _ => last
  | .replaceLibrary accountId =>
    match s.imports.lookup accountId with
    | some (.replacing apps now previousMeta) =>
      if (s.replaceAccountLibrary accountId apps previousMeta now).isSome then fun other appId =>
        if other = accountId then
          if appId ∈ apps.map OwnedApp.appId then some ((last other appId).getD {}) else none
        else last other appId
      else last
    | _ => last
  | _ => last

def committedMachine : Machine (LibraryState × Committed) LibraryAction :=
  { libraryMachine.recording (fun _ _ => none) commit with
    Starts := fun w => libraryMachine.Starts w.1 ∧ w.2 = w.1.metaOf }

/-- No edit changes an entry of an app that an import is about to write with what it has read. -/
def Quiet (w : LibraryState × Committed) : LibraryAction → Prop
  | .updateEntry request => ∀ edit apps now previousMeta,
      w.1.edits.lookup request = some (edit, .updating) →
      w.1.imports.lookup edit.accountId = some (.replacing apps now previousMeta) →
      edit.appId ∈ apps.map OwnedApp.appId →
      (w.1.metaOf edit.accountId edit.appId).map edit.set =
        w.1.metaOf edit.accountId edit.appId
  | _ => True

/-- What a step does to the tables: nothing that an import does, or all of it. -/
def AllOrNothing (s t : LibraryState) (action : LibraryAction) : Prop :=
  s.toLibraryDb.Kept t.toLibraryDb ∨ ∃ accountId apps now previousMeta,
    action = .replaceLibrary accountId ∧
    s.imports.lookup accountId = some (.replacing apps now previousMeta) ∧
    LibraryDb.Replaced accountId apps previousMeta now s.toLibraryDb t.toLibraryDb

section Runs
variable {s t : LibraryState} {action : LibraryAction} {w w' : LibraryState × Committed}

/-- What an import has read is what it had read before, or what the tables say now. -/
def Reads (s t : LibraryState) : Prop := ∀ accountId apps now previousMeta,
  t.imports.lookup accountId = some (.replacing apps now previousMeta) →
    s.imports.lookup accountId = some (.replacing apps now previousMeta) ∨
      previousMeta = s.metaOf accountId

theorem reads_of_imports (h : t.imports = s.imports) : Reads s t :=
  fun _ _ _ _ hlook => .inl (h ▸ hlook)

theorem reads_insert {accountId : AccountId} {phase : Import}
    (h : t.imports = s.imports.insert accountId phase)
    (hphase : ∀ apps now previousMeta, phase = .replacing apps now previousMeta →
      previousMeta = s.metaOf accountId) : Reads s t := by
  intro other apps now previousMeta hlook
  rw [h, Table.lookup_insert_eq] at hlook
  split_ifs at hlook with hother
  · exact .inr (hother ▸ hphase apps now previousMeta (Option.some.inj hlook))
  · exact .inl hlook

theorem reads_erase {accountId : AccountId} (h : t.imports = s.imports.erase accountId) :
    Reads s t := by
  intro other apps now previousMeta hlook
  rw [h, Table.lookup_erase_eq] at hlook
  split_ifs at hlook
  exact .inl hlook

/-- What a step does: it commits nothing, or an import goes through, or an edit does. -/
inductive Change (s t : LibraryState) : LibraryAction → Prop
  | waits {action : LibraryAction} (hdb : t.toLibraryDb = s.toLibraryDb) (hreads : Reads s t)
      (hcommit : ∀ last, commit last s action = last) : Change s t action
  | replaces (accountId : AccountId) (apps : List OwnedApp) (now : ℕ)
      (previousMeta : PreviousMeta)
      (hlook : s.imports.lookup accountId = some (.replacing apps now previousMeta))
      (hreplace : s.replaceAccountLibrary accountId apps previousMeta now = some t.toLibraryDb)
      (himports : t.imports = s.imports.erase accountId) : Change s t (.replaceLibrary accountId)
  | updates (request : ℕ) (edit : MetaEdit)
      (hlook : s.edits.lookup request = some (edit, .updating))
      (hdb : t.toLibraryDb = s.toLibraryDb.update edit) (himports : t.imports = s.imports) :
      Change s t (.updateEntry request)

theorem change_of_next (hn : libraryMachine.next s action = some t) : Change s t action := by
  cases action with
  | importLibrary accountId =>
    simp only [libraryMachine, LibraryState.next] at hn
    split at hn <;> cases hn
    exact .waits rfl (reads_insert rfl fun _ _ _ he => by cases he) fun _ => rfl
  | getUserOwnedApps accountId apps now =>
    simp only [libraryMachine, LibraryState.next] at hn
    split at hn <;> cases hn
    exact .waits rfl (reads_insert rfl fun _ _ _ he => by cases he) fun _ => rfl
  | selectMeta accountId =>
    simp only [libraryMachine, LibraryState.next] at hn
    split at hn <;> cases hn
    exact .waits rfl (reads_insert rfl fun _ _ _ he => by cases he; rfl) fun _ => rfl
  | replaceLibrary accountId =>
    simp only [libraryMachine, LibraryState.next] at hn
    split at hn
    next apps now previousMeta hlook =>
      cases hreplace : s.replaceAccountLibrary accountId apps previousMeta now with
      | none =>
        rw [hreplace] at hn
        cases hn
        exact .waits rfl (reads_erase rfl) fun last => by simp [commit, hlook, hreplace]
      | some db =>
        rw [hreplace] at hn
        cases hn
        exact .replaces accountId apps now previousMeta hlook hreplace rfl
    next => cases hn
  | failImport accountId =>
    simp only [libraryMachine, LibraryState.next] at hn
    split at hn <;> cases hn
    exact .waits rfl (reads_erase rfl) fun _ => rfl
  | put request edit =>
    simp only [libraryMachine, LibraryState.next] at hn
    split at hn <;> cases hn
    exact .waits rfl (reads_of_imports rfl) fun _ => rfl
  | findEntry request =>
    simp only [libraryMachine, LibraryState.next] at hn
    split at hn
    next =>
      split_ifs at hn <;> cases hn <;> exact .waits rfl (reads_of_imports rfl) fun _ => rfl
    next => cases hn
  | updateEntry request =>
    simp only [libraryMachine, LibraryState.next] at hn
    split at hn
    next edit hlook =>
      cases hn
      exact .updates request edit hlook rfl rfl
    next => cases hn

theorem Change.allOrNothing (h : Change s t action) : AllOrNothing s t action := by
  cases h with
  | waits hdb hreads hcommit => exact .inl (hdb ▸ .refl _)
  | replaces accountId apps now previousMeta hlook hreplace himports =>
    exact .inr ⟨accountId, apps, now, previousMeta, rfl, hlook,
      LibraryDb.replaced_of_replace hreplace⟩
  | updates request edit hlook hdb himports => exact .inl (hdb ▸ LibraryDb.kept_update edit)

/-- What is committed is what the tables say, and what an import has read of an app that it is
about to write is what is committed. -/
structure Faithful (w : LibraryState × Committed) : Prop where
  committed : w.2 = w.1.metaOf
  read : ∀ accountId apps now previousMeta,
    w.1.imports.lookup accountId = some (.replacing apps now previousMeta) →
      ∀ appId ∈ apps.map OwnedApp.appId, previousMeta appId = w.1.metaOf accountId appId

theorem Faithful.change (h : Faithful w) (hchange : Change w.1 t action)
    (hquiet : Quiet w action) : Faithful (t, commit w.2 w.1 action) := by
  cases hchange with
  | waits hdb hreads hcommit =>
    have hmeta : t.metaOf = w.1.metaOf := congrArg LibraryDb.metaOf hdb
    constructor
    case committed => exact (hcommit w.2).trans (h.committed.trans hmeta.symm)
    case read =>
      intro accountId apps now previousMeta hlook appId happ
      rw [hmeta]
      rcases hreads accountId apps now previousMeta hlook with hold | rfl
      · exact h.read accountId apps now previousMeta hold appId happ
      · rfl
  | replaces accountId apps now previousMeta hlook hreplace himports =>
    have hmeta := (LibraryDb.replaced_of_replace hreplace).metaOf
    constructor
    case committed =>
      funext other appId
      rw [hmeta]
      simp only [commit, hlook, hreplace, Option.isSome_some, if_true, h.committed]
      split_ifs with hother happ
      · rw [hother, h.read accountId apps now previousMeta hlook appId happ]
      · rfl
      · rfl
    case read =>
      intro other apps' now' previousMeta' hlook' appId happ
      rw [himports, Table.lookup_erase_eq] at hlook'
      split_ifs at hlook' with hother
      rw [hmeta, if_neg hother]
      exact h.read other apps' now' previousMeta' hlook' appId happ
  | updates request edit hlook hdb himports =>
    have hmeta (other : AccountId) (appId : AppId) : t.metaOf other appId =
        if other = edit.accountId ∧ appId = edit.appId then
          (w.1.metaOf other appId).map edit.set
        else w.1.metaOf other appId := by
      rw [hdb, LibraryDb.metaOf_update]
    constructor
    case committed =>
      funext other appId
      rw [hmeta]
      simp only [commit, hlook, h.committed]
    case read =>
      intro other apps now previousMeta hread appId happ
      rw [himports] at hread
      rw [hmeta, h.read other apps now previousMeta hread appId happ]
      split_ifs with hedited
      · obtain ⟨rfl, rfl⟩ := hedited
        exact (hquiet edit apps now previousMeta hlook hread happ).symm
      · rfl

theorem committed_next (hn : committedMachine.next w action = some w') :
    libraryMachine.next w.1 action = some w'.1 ∧ w'.2 = commit w.2 w.1 action := by
  have hn : (libraryMachine.recording (fun _ _ => none) commit).next w action = some w' := hn
  exact Machine.recording_next hn

theorem faithful_of_reachable (h : committedMachine.ReachableWhen Quiet w) : Faithful w := by
  refine h.invariant ?_ ?_
  · rintro w ⟨⟨himports, -⟩, hcommitted⟩
    refine ⟨hcommitted, fun accountId apps now previousMeta hlook => ?_⟩
    rw [himports] at hlook
    cases hlook
  · intro w action w' hw hquiet hn
    obtain ⟨hnext, hcommit⟩ := committed_next hn
    have hw' : w' = (w'.1, commit w.2 w.1 action) := Prod.ext rfl hcommit
    rw [hw']
    exact hw.change (change_of_next hnext) hquiet

/-- In every run in which no edit slips in between what an import reads and what it writes: each
entry has what was committed on it last, and a step replaces the entries of an account as a whole
or does nothing of an import. -/
theorem library_keeps_edits (h : committedMachine.ReachableWhen Quiet w) :
    (∀ accountId appId, w.1.metaOf accountId appId = w.2 accountId appId) ∧
      ∀ action t, libraryMachine.next w.1 action = some t → AllOrNothing w.1 t action :=
  ⟨fun accountId appId =>
      (congrFun (congrFun (faithful_of_reachable h).committed accountId) appId).symm,
    fun _ _ hn => (change_of_next hn).allOrNothing⟩

/-- An edit that slips in is lost when the import goes through. -/
theorem lost_of_not_quiet (h : committedMachine.ReachableWhen Quiet w) {request : ℕ}
    (hn : committedMachine.next w (.updateEntry request) = some w')
    (hquiet : ¬ Quiet w (.updateEntry request)) :
    ∃ accountId appId apps now previousMeta,
      w'.1.imports.lookup accountId = some (.replacing apps now previousMeta) ∧
      ∀ w'', committedMachine.next w' (.replaceLibrary accountId) = some w'' →
        (w'.1.replaceAccountLibrary accountId apps previousMeta now).isSome = true →
          w''.1.metaOf accountId appId ≠ w''.2 accountId appId := by
  simp only [Quiet, not_forall] at hquiet
  obtain ⟨edit, apps, now, previousMeta, hlook, hread, happ, hchanges⟩ := hquiet
  have hfaithful := faithful_of_reachable h
  obtain ⟨hnext, hcommit⟩ := committed_next hn
  obtain ⟨values, hvalues⟩ : ∃ values, w.1.metaOf edit.accountId edit.appId = some values := by
    refine Option.ne_none_iff_exists'.mp fun hnone => hchanges ?_
    rw [hnone]
    rfl
  have hprevious : previousMeta edit.appId = some values :=
    (hfaithful.read _ apps now previousMeta hread _ happ).trans hvalues
  rw [hvalues] at hchanges
  have hlast : w'.2 edit.accountId edit.appId = some (edit.set values) := by
    rw [hcommit, hfaithful.committed]
    simp [commit, hlook, hvalues]
  have himports : w'.1.imports = w.1.imports := by
    simp only [libraryMachine, LibraryState.next, hlook, Option.some.injEq] at hnext
    rw [← hnext]
  have hread' : w'.1.imports.lookup edit.accountId = some (.replacing apps now previousMeta) :=
    himports ▸ hread
  refine ⟨edit.accountId, edit.appId, apps, now, previousMeta, hread', fun w'' hn'' hdone => ?_⟩
  obtain ⟨hnext', hcommit'⟩ := committed_next hn''
  obtain ⟨db, hreplace⟩ := Option.isSome_iff_exists.mp hdone
  have hdb : w''.1.toLibraryDb = db := by
    simp only [libraryMachine, LibraryState.next, hread', hreplace, Option.getD_some,
      Option.some.injEq] at hnext'
    rw [← hnext']
  have hmeta : w''.1.metaOf edit.accountId edit.appId = some values := by
    rw [hdb, (LibraryDb.replaced_of_replace hreplace).metaOf, if_pos rfl, if_pos happ, hprevious]
    rfl
  have hlast' : w''.2 edit.accountId edit.appId = some (edit.set values) := by
    rw [hcommit']
    simp only [commit, hread', hreplace, Option.isSome_some, if_true, happ, hlast]
    rfl
  rw [hmeta, hlast']
  exact fun he => hchanges he.symm

end Runs

section Examples

def noLibrary : LibraryState × Committed :=
  ({ library := ∅, appCache := ∅, libraryImportedAt := ∅, imports := ∅, edits := ∅ },
    fun _ _ => none)

def importOne (now : ℕ) : List LibraryAction :=
  [.importLibrary "account", .getUserOwnedApps "account" [⟨730, some "game", some 60⟩] now]

def favoriteOne : MetaEdit := ⟨"account", 730, some true, none, none⟩

def editWhileReplacing : List LibraryAction :=
  importOne 1 ++ [.selectMeta "account", .replaceLibrary "account"] ++ importOne 2 ++
    [.put 0 favoriteOne, .findEntry 0, .selectMeta "account", .updateEntry 0,
      .replaceLibrary "account"]

def editWhileQuerying : List LibraryAction :=
  importOne 1 ++ [.selectMeta "account", .replaceLibrary "account"] ++ importOne 2 ++
    [.put 0 favoriteOne, .findEntry 0, .updateEntry 0, .selectMeta "account",
      .replaceLibrary "account"]

theorem starts_noLibrary : committedMachine.Starts noLibrary := ⟨⟨rfl, rfl⟩, rfl⟩

/-- The favourite that the user has set is gone after the import. -/
theorem import_loses_edit : ¬ ∀ w, committedMachine.Reachable w →
    ∀ accountId appId, w.1.metaOf accountId appId = w.2 accountId appId := by
  intro hkeeps
  have hlost : (committedMachine.exec noLibrary editWhileReplacing).map
      (fun w => (w.1.metaOf "account" 730, w.2 "account" 730)) =
        some (some { favorite := false }, some { favorite := true }) := by decide +kernel
  obtain ⟨w, hw, hmeta⟩ := Option.map_eq_some_iff.mp hlost
  obtain ⟨hnow, hlast⟩ := Prod.mk.inj hmeta
  have hsame := hkeeps w ⟨noLibrary, starts_noLibrary, Machine.leads_of_exec hw⟩ "account" 730
  rw [hnow, hlast] at hsame
  exact absurd hsame (by decide)

def quietNow (w : LibraryState × Committed) : LibraryAction → Bool
  | .updateEntry request => (w.1.edits.lookup request).all fun e =>
    match w.1.imports.lookup e.1.accountId with
    | some (.replacing ..) => false
    | _ => true
  | _ => true

theorem quiet_of_quietNow (w : LibraryState × Committed) (action : LibraryAction)
    (h : quietNow w action = true) : Quiet w action := by
  cases action with
  | updateEntry request =>
    intro edit apps now previousMeta hlook hread
    simp [quietNow, hlook, hread] at h
  | _ => trivial

theorem library_keeps_edits_editWhileQuerying : ∃ w, committedMachine.ReachableWhen Quiet w ∧
    w.1.metaOf "account" 730 = some { favorite := true } ∧
    (∀ accountId appId, w.1.metaOf accountId appId = w.2 accountId appId) ∧
      ∀ action t, libraryMachine.next w.1 action = some t → AllOrNothing w.1 t action := by
  have hkept : (committedMachine.execWhen quietNow noLibrary editWhileQuerying).map
      (fun w => w.1.metaOf "account" 730) = some (some { favorite := true }) := by decide +kernel
  obtain ⟨w, hw, hmeta⟩ := Option.map_eq_some_iff.mp hkept
  have hreach : committedMachine.ReachableWhen Quiet w :=
    ⟨noLibrary, starts_noLibrary, Machine.leads_of_execWhen quiet_of_quietNow hw⟩
  exact ⟨w, hreach, hmeta, library_keeps_edits hreach⟩

end Examples

end Library
end SteamBee.Steam
