import SteamBee.Steam.Selection
import SteamBee.Text.Json

/-! The imported library of the accounts: what the user set on its entries, and the transaction
with which an import replaces the entries of one account. -/
namespace SteamBee.Steam
namespace Library

/-- The fields of an entry that belong to the user. -/
structure LibraryMeta where
  favorite : Bool := false
  hidden : Bool := false
  tagsJson : List Char := ['[', ']']
  deriving DecidableEq

/-- A row of `steam_account_library`, whose key is unique. -/
structure LibraryEntry extends LibraryMeta where
  playtimeForever : ℕ
  importedAt : ℕ
  deriving DecidableEq

structure CachedApp where
  name : String
  playtimeForever : ℕ
  updatedAt : ℕ
  deriving DecidableEq

structure OwnedApp where
  appId : AppId
  name : String
  playtimeForever : ℕ
  deriving DecidableEq

structure LibraryDb where
  library : Table (AccountId × AppId) LibraryEntry
  appCache : Table AppId CachedApp
  libraryImportedAt : Table AccountId ℕ

abbrev PreviousMeta := AppId → Option LibraryMeta

namespace LibraryDb

def metaOf (db : LibraryDb) (accountId : AccountId) : PreviousMeta := fun appId =>
  (db.library.lookup (accountId, appId)).map LibraryEntry.toLibraryMeta

/-- `DELETE FROM steam_account_library WHERE account_id = ?` -/
def deleteAccount (accountId : AccountId) (db : LibraryDb) : LibraryDb :=
  { db with library := db.library.retain fun key _ => key.1 ≠ accountId }

def entryOf (previousMeta : PreviousMeta) (now : ℕ) (app : OwnedApp) : LibraryEntry where
  toLibraryMeta := (previousMeta app.appId).getD {}
  playtimeForever := app.playtimeForever
  importedAt := now

/-- One turn of the loop: the unique index rejects an app that is there already. -/
def insertApp (accountId : AccountId) (previousMeta : PreviousMeta) (now : ℕ) (db : LibraryDb)
    (app : OwnedApp) : Option LibraryDb :=
  if (accountId, app.appId) ∈ db.library then none
  else some { db with
    appCache := db.appCache.insert app.appId ⟨app.name, app.playtimeForever, now⟩
    library := db.library.insert (accountId, app.appId) (entryOf previousMeta now app) }

/-- The transaction; `none` when a statement fails and all of it is undone. -/
def replaceAccountLibrary (db : LibraryDb) (accountId : AccountId) (apps : List OwnedApp)
    (previousMeta : PreviousMeta) (now : ℕ) : Option LibraryDb := do
  let db ← apps.foldlM (insertApp accountId previousMeta now) (db.deleteAccount accountId)
  some { db with libraryImportedAt := db.libraryImportedAt.insert accountId now }

end LibraryDb

/-- The body of a request to change an entry, as its schema leaves it. -/
structure MetaEdit where
  accountId : AccountId
  appId : AppId
  favorite : Option Bool
  hidden : Option Bool
  tags : Option (List String)
  deriving DecidableEq

/-- The values that the request sets; the others stay. -/
def MetaEdit.set (edit : MetaEdit) (values : LibraryMeta) : LibraryMeta where
  favorite := edit.favorite.getD values.favorite
  hidden := edit.hidden.getD values.hidden
  tagsJson := (edit.tags.map fun tags =>
    Text.Json.stringify (.arr (tags.eraseDups.map .str))).getD values.tagsJson

/-- `UPDATE steam_account_library SET … WHERE account_id = ? AND app_id = ?` -/
def LibraryDb.update (edit : MetaEdit) (db : LibraryDb) : LibraryDb :=
  { db with library := db.library.modify (edit.accountId, edit.appId) fun entry =>
      { entry with toLibraryMeta := edit.set entry.toLibraryMeta } }

structure SteamApp where
  appid : AppId
  name : Option String
  playtimeForever : Option ℕ
  deriving DecidableEq

/-- `app.name || ...`: an empty name counts as none. -/
def SteamApp.owned (app : SteamApp) : OwnedApp where
  appId := app.appid
  name := match app.name with
    | none => s!"App {app.appid}"
    | some name => if name = "" then s!"App {app.appid}" else name
  playtimeForever := app.playtimeForever.getD 0

/-- What `importLibraryNow` awaits: the answer of Steam or its own query, or nothing any more
before it goes on with the rows that it has read. -/
inductive Import where
  | requesting
  | querying (apps : List OwnedApp) (now : ℕ)
  | replacing (apps : List OwnedApp) (now : ℕ) (previousMeta : PreviousMeta)

/-- What the route of an edit awaits: the query of the entry, or the update. -/
inductive EditPoint where
  | finding
  | updating
  deriving DecidableEq

/-- Imports, one at a time for each account as its worker runs them, and edits by request. -/
structure LibraryState extends LibraryDb where
  imports : Table AccountId Import
  edits : Table ℕ (MetaEdit × EditPoint)

/-- The awaits are cut where the database or Steam acts. An import fails at any of them. -/
inductive LibraryAction where
  | importLibrary (accountId : AccountId)
  | getUserOwnedApps (accountId : AccountId) (apps : List SteamApp) (now : ℕ)
  | selectMeta (accountId : AccountId)
  | replaceLibrary (accountId : AccountId)
  | failImport (accountId : AccountId)
  | put (request : ℕ) (edit : MetaEdit)
  | findEntry (request : ℕ)
  | updateEntry (request : ℕ)

namespace LibraryState

def next (s : LibraryState) : LibraryAction → Option LibraryState
  | .importLibrary accountId =>
    match s.imports.lookup accountId with
    | none => some { s with imports := s.imports.insert accountId .requesting }
    | some _ => none
  | .getUserOwnedApps accountId apps now =>
    match s.imports.lookup accountId with
    | some .requesting =>
      some { s with
        imports := s.imports.insert accountId (.querying (apps.map SteamApp.owned) now) }
    | _ => none
  | .selectMeta accountId =>
    match s.imports.lookup accountId with
    | some (.querying apps now) =>
      some { s with
        imports := s.imports.insert accountId (.replacing apps now (s.metaOf accountId)) }
    | _ => none
  | .replaceLibrary accountId =>
    match s.imports.lookup accountId with
    | some (.replacing apps now previousMeta) =>
      some { s with
        toLibraryDb :=
          (s.replaceAccountLibrary accountId apps previousMeta now).getD s.toLibraryDb
        imports := s.imports.erase accountId }
    | _ => none
  | .failImport accountId =>
    match s.imports.lookup accountId with
    | some _ => some { s with imports := s.imports.erase accountId }
    | none => none
  | .put request edit =>
    match s.edits.lookup request with
    | none => some { s with edits := s.edits.insert request (edit, .finding) }
    | some _ => none
  | .findEntry request =>
    match s.edits.lookup request with
    | some (edit, .finding) =>
      -- Without an entry the route answers 404.
      if (edit.accountId, edit.appId) ∈ s.library then
        some { s with edits := s.edits.insert request (edit, .updating) }
      else some { s with edits := s.edits.erase request }
    | _ => none
  | .updateEntry request =>
    match s.edits.lookup request with
    | some (edit, .updating) =>
      some { s with
        toLibraryDb := s.toLibraryDb.update edit
        edits := s.edits.erase request }
    | _ => none

end LibraryState
end Library
end SteamBee.Steam
