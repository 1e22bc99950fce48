import Mathlib.Algebra.Group.Nat.Defs
import SteamBee.Data.Table
import SteamBee.Inventory.Contracts
import SteamBee.Transition.Machine

/-! The stored credentials of the accounts: a login through a QR code stores a refresh token, and
the clients that are logged on renew it. Each call stops at its awaits. -/
namespace SteamBee.Steam

/-- A refresh token, known by the number of its issue: Steam issues each of them once. -/
abbrev Token := ℕ

abbrev WorkerId := ℕ

/-- `encryptSecret` takes an iv; `subject` is the `sub` in the payload of a token, if it has one. -/
structure Secrets (σ : Type) where
  encryptSecret : Token → ℕ → σ
  decryptSecret : σ → Option Token
  decrypt_encrypt : ∀ token iv, decryptSecret (encryptSecret token iv) = some token
  subject : Token → Option String

structure StoredAccount (σ : Type) where
  accountName : String
  createdAt : ℕ
  steamId : Option String
  secret : Option σ
  deriving DecidableEq, Repr

structure RenewedCredential where
  refreshToken : Token
  previousRefreshToken : Token
  steamId : String
  deriving DecidableEq, Repr

/-- `found` is the token that a start has read, `client` the one that the client goes on from and
`renewing` those that Steam has been asked to renew; `fresh` is a row on its way to `updateAccount`
and `steamId` the Steam id on its way to the row. -/
structure CredentialWorker (σ : Type) where
  accountId : Uuid
  account : StoredAccount σ
  found : Option Token
  client : Option Token
  renewing : List Token
  fresh : Option (StoredAccount σ)
  steamId : Option String

structure PersistToken (σ : Type) where
  accountName : String
  refreshToken : Token
  encrypted : σ
  steamId : Option String
  now : ℕ

inductive CredentialEvent where
  | stored (accountId : Uuid) (token : Token)
  | renewed (worker : WorkerId) (accountId : Uuid) (credential : RenewedCredential)
  | taken (worker : WorkerId) (credential : RenewedCredential) (identity : Option String)
  deriving DecidableEq, Repr

/-- `queue` holds what the credential queues of the workers hold, in the order of arrival;
`issued` counts the tokens of Steam. -/
structure CredentialStore (σ : Type) where
  accounts : Table Uuid (StoredAccount σ)
  workers : Table WorkerId (CredentialWorker σ)
  queue : List (WorkerId × RenewedCredential)
  logins : Table Uuid (PersistToken σ)
  issued : ℕ
  drawn : ℕ
  now : ℕ
  log : List CredentialEvent

/-- The pattern `^765\d{14}$`. -/
def isSteamId (steamId : String) : Bool :=
  steamId.toList.take 3 == ['7', '6', '5'] && steamId.toList.length == 17 &&
    steamId.toList.all Char.isDigit

namespace CredentialStore
variable {σ : Type} (p : Secrets σ)

def note (s : CredentialStore σ) (event : CredentialEvent) : CredentialStore σ :=
  { s with log := event :: s.log }

def setWorker (s : CredentialStore σ) (id : WorkerId) (worker : CredentialWorker σ) :
    CredentialStore σ := { s with workers := s.workers.insert id worker }

/-! ## Logins -/

/-- A login session is authenticated; the row that is inserted for it gets an id of its own. -/
def persistAccountToken (s : CredentialStore σ) (accountName : String) (steamId : Option String)
    (iv : ℕ) : CredentialStore σ :=
  { s with
    issued := s.issued + 1
    drawn := s.drawn + 1
    logins := s.logins.insert s.drawn
      ⟨accountName, s.issued, p.encryptSecret s.issued iv, steamId, s.now⟩ }

/-- The insert, or the update of the row that has the account name. -/
def insertAccount (s : CredentialStore σ) (id : Uuid) : Option (CredentialStore σ) := do
  let login ← s.logins.lookup id
  let s := { s with logins := s.logins.erase id }
  match s.accounts.entries.find? fun entry => entry.2.accountName == login.accountName with
  | some entry =>
    some ({ s with
      accounts := s.accounts.insert entry.1 { entry.2 with
        secret := some login.encrypted
        steamId := login.steamId.or entry.2.steamId } }.note (.stored entry.1 login.refreshToken))
  | none =>
    some ({ s with
      accounts := s.accounts.insert id
        ⟨login.accountName, login.now, login.steamId, some login.encrypted⟩ }.note
          (.stored id login.refreshToken))

/-! ## Workers -/

def createWorker (s : CredentialStore σ) (accountId : Uuid) : Option (CredentialStore σ) := do
  let account ← s.accounts.lookup accountId
  some { s with
    drawn := s.drawn + 1
    workers := s.workers.insert s.drawn ⟨accountId, account, none, none, [], none, none⟩ }

def readAccount (s : CredentialStore σ) (id : WorkerId) : Option (CredentialStore σ) := do
  let worker ← s.workers.lookup id
  let account ← s.accounts.lookup worker.accountId
  some (s.setWorker id { worker with fresh := some account })

def updateAccount (s : CredentialStore σ) (id : WorkerId) : Option (CredentialStore σ) := do
  let worker ← s.workers.lookup id
  let account ← worker.fresh
  some (s.setWorker id { worker with account, fresh := none })

def getRefreshToken (s : CredentialStore σ) (worker : CredentialWorker σ) : Option Token := do
  let account ← s.accounts.lookup worker.accountId
  if account.createdAt = worker.account.createdAt then p.decryptSecret (← account.secret) else none

/-- `startNow` up to its first await. -/
def startNow (s : CredentialStore σ) (id : WorkerId) : Option (CredentialStore σ) := do
  let worker ← s.workers.lookup id
  let token ← s.getRefreshToken p worker
  some (s.setWorker id { worker with found := some token })

def logOn (s : CredentialStore σ) (id : WorkerId) : Option (CredentialStore σ) := do
  let worker ← s.workers.lookup id
  let token ← worker.found
  some (s.setWorker id { worker with found := none, client := some token })

def requestRenewal (s : CredentialStore σ) (id : WorkerId) : Option (CredentialStore σ) := do
  let worker ← s.workers.lookup id
  let token ← worker.client
  some (s.setWorker id { worker with renewing := token :: worker.renewing })

/-- Steam has renewed a token; `current` tells whether the session that asked for it still is the
client's. -/
def renew (s : CredentialStore σ) (id : WorkerId) (previousRefreshToken : Token) (steamId : String)
    (current : Bool) : Option (CredentialStore σ) := do
  let worker ← s.workers.lookup id
  if previousRefreshToken ∈ worker.renewing then
    let credential := ⟨s.issued, previousRefreshToken, steamId⟩
    some ({ s with
      issued := s.issued + 1
      queue := s.queue ++ [(id, credential)]
      workers := s.workers.insert id { worker with
        renewing := worker.renewing.erase previousRefreshToken
        client := if current then some s.issued else worker.client }
      }.note (.renewed id worker.accountId credential))
  else none

/-- The read and the update are synchronous, so the row that is updated is the row that was read.
What cannot be decrypted throws, and is left as it is. -/
def persistRefreshToken (s : CredentialStore σ) (id : WorkerId) (worker : CredentialWorker σ)
    (credential : RenewedCredential) (iv : ℕ) : CredentialStore σ :=
  match s.accounts.lookup worker.accountId with
  | none => s
  | some stored =>
    match stored.secret with
    | none => s
    | some secret =>
      if stored.accountName ≠ worker.account.accountName ∨
          stored.createdAt ≠ worker.account.createdAt then s
      else if isSteamId credential.steamId = false then s
      else if stored.steamId ≠ some credential.steamId ∧ (stored.steamId ≠ none ∨
          p.subject credential.previousRefreshToken ≠ some credential.steamId) then s
      else match p.decryptSecret secret with
        | none => s
        | some storedToken =>
          if storedToken ≠ credential.previousRefreshToken ∨
              credential.refreshToken = storedToken then s
          else
            let encrypted := p.encryptSecret credential.refreshToken iv
            { s with
              accounts := s.accounts.insert worker.accountId { stored with secret := some encrypted }
              workers := s.workers.insert id
                { worker with account := { worker.account with secret := some encrypted } } }

def identity (s : CredentialStore σ) (accountId : Uuid) (previousRefreshToken : Token) :
    Option String :=
  (s.accounts.lookup accountId).bind fun stored =>
    stored.steamId.or (p.subject previousRefreshToken)

def takeRenewal (s : CredentialStore σ) (id : WorkerId) (iv : ℕ) : Option (CredentialStore σ) := do
  let worker ← s.workers.lookup id
  let (_, credential) ← s.queue.find? fun entry => entry.1 == id
  let identity := s.identity p worker.accountId credential.previousRefreshToken
  some (({ s with queue := s.queue.erase (id, credential) }.persistRefreshToken p id worker credential
    iv).note (.taken id credential identity))

/-- `persistSteamId` up to its await, when the client has logged on. -/
def loggedOn (s : CredentialStore σ) (id : WorkerId) (steamId : String) :
    Option (CredentialStore σ) := do
  let worker ← s.workers.lookup id
  if worker.account.steamId = some steamId then some s
  else some (s.setWorker id { worker with
    account := { worker.account with steamId := some steamId }
    steamId := some steamId })

def writeSteamId (s : CredentialStore σ) (id : WorkerId) : Option (CredentialStore σ) := do
  let worker ← s.workers.lookup id
  let steamId ← worker.steamId
  some { s with
    workers := s.workers.insert id { worker with steamId := none }
    accounts := s.accounts.modify worker.accountId fun row => { row with steamId := some steamId } }

end CredentialStore

inductive CredentialAction where
  | login (accountName : String) (steamId : Option String) (iv : ℕ)
  | insertAccount (id : Uuid)
  | createWorker (accountId : Uuid)
  | readAccount (worker : WorkerId)
  | updateAccount (worker : WorkerId)
  | startNow (worker : WorkerId)
  | logOn (worker : WorkerId)
  | requestRenewal (worker : WorkerId)
  | renew (worker : WorkerId) (previousRefreshToken : Token) (steamId : String) (current : Bool)
  | takeRenewal (worker : WorkerId) (iv : ℕ)
  | loggedOn (worker : WorkerId) (steamId : String)
  | writeSteamId (worker : WorkerId)
  | deleteAccount (id : Uuid)
  | tick (elapsed : ℕ)
  deriving DecidableEq

def CredentialStore.empty (σ : Type) (now : ℕ) : CredentialStore σ := ⟨∅, ∅, [], ∅, 0, 0, now, []⟩

def credentialMachine {σ : Type} (p : Secrets σ) :
    Transition.Machine (CredentialStore σ) CredentialAction where
  Starts s := ∃ now, s = .empty σ now
  next s
    | .login accountName steamId iv => some (s.persistAccountToken p accountName steamId iv)
    | .insertAccount id => s.insertAccount id
    | .createWorker accountId => s.createWorker accountId
    | .readAccount worker => s.readAccount worker
    | .updateAccount worker => s.updateAccount worker
    | .startNow worker => s.startNow p worker
    | .logOn worker => s.logOn worker
    | .requestRenewal worker => s.requestRenewal worker
    | .renew worker previousRefreshToken steamId current =>
      s.renew worker previousRefreshToken steamId current
    | .takeRenewal worker iv => s.takeRenewal p worker iv
    | .loggedOn worker steamId => s.loggedOn worker steamId
    | .writeSteamId worker => s.writeSteamId worker
    | .deleteAccount id => some { s with accounts := s.accounts.erase id }
    | .tick elapsed => some { s with now := s.now + elapsed }

end SteamBee.Steam
