import SteamBee.Data.Table
import SteamBee.Inventory.Contracts
import SteamBee.Transition.Machine

/-! Logins to Steam. A login through a QR code has a record, which events of its session, the clock
and the completion of the login bring to an end; a login with credentials completes once. -/
namespace SteamBee.Steam

abbrev LoginId := ℕ

def qrPendingTtl : ℕ := 10 * 60000

def qrTerminalTtl : ℕ := 10 * 60000

structure ConnectedAccount where
  accountId : Uuid
  accountName : String
  steamId : Option String
  connectedAt : ℕ
  deriving DecidableEq, Repr

inductive LoginState where
  | pending (qrUrl : Option String) (message : Option String)
  | authenticated (account : ConnectedAccount) (message : Option String)
  | error (message : String)
  deriving DecidableEq, Repr

def LoginState.isPending : LoginState → Bool
  | .pending _ _ => true
  | _ => false

inductive LoginPhase where
  | pending
  | completing
  | terminal
  deriving DecidableEq, Repr

structure LoginSession where
  accountName : Option String
  refreshToken : Option String
  steamId : Option String
  deriving DecidableEq, Repr

structure LoginAccount where
  id : Uuid
  steamId : Option String
  refreshToken : String
  tokenExpiresAt : Option ℕ
  updatedAt : ℕ
  deriving DecidableEq, Repr

structure PersistedLogin where
  id : Uuid
  accountName : String
  refreshToken : String
  steamId : Option String
  now : ℕ
  deriving DecidableEq, Repr

/-- What a completion waits for: the insert, the row, the event, or the start of the account. -/
inductive LoginStep where
  | inserting (login : PersistedLogin)
  | finding (login : PersistedLogin)
  | recording (account : ConnectedAccount)
  | starting (account : ConnectedAccount)
  deriving DecidableEq, Repr

/-- A completion, how often it has inserted a token, and how often an account was started for it. -/
structure LoginCompletion where
  step : Option LoginStep
  inserts : ℕ
  starts : ℕ
  deriving DecidableEq, Repr

def LoginCompletion.idle : LoginCompletion := ⟨none, 0, 0⟩

/-- `cancels` counts the calls of `cancelLoginAttempt`, `listed` tells whether `qrLogins` has the
record, and `authenticatedAt` when the session was authenticated in time. -/
structure LoginRecord where
  state : LoginState
  phase : LoginPhase
  createdAt : ℕ
  terminalAt : Option ℕ
  cleanedUp : Bool
  listed : Bool
  cancels : ℕ
  authenticatedAt : Option ℕ
  completion : LoginCompletion
  deriving DecidableEq, Repr

structure CredentialFlow where
  persisting : Bool
  completion : LoginCompletion
  result : Option (Option ConnectedAccount)
  deriving DecidableEq, Repr

structure LoginAnswer where
  loginId : LoginId
  state : LoginState
  phase : LoginPhase
  age : ℕ
  deriving DecidableEq, Repr

structure Logins where
  records : Table LoginId LoginRecord
  flows : Table LoginId CredentialFlow
  accounts : Table String LoginAccount
  drawn : ℕ
  now : ℕ
  answers : List LoginAnswer

namespace LoginRecord

def cleanupQrLoginSession (r : LoginRecord) : LoginRecord :=
  if r.cleanedUp then r else { r with cleanedUp := true, cancels := r.cancels + 1 }

def setQrLoginTerminal (r : LoginRecord) (state : LoginState) (now : ℕ) : LoginRecord :=
  if r.phase = .terminal then r
  else
    { r with
      phase := .terminal
      state
      terminalAt := some (r.terminalAt.getD now) }.cleanupQrLoginSession

def isOpen (r : LoginRecord) : Bool := r.phase == .pending && r.state.isPending

def expireQrLogin (r : LoginRecord) (now : ℕ) : LoginRecord :=
  if r.isOpen then r.setQrLoginTerminal (.error "Login session expired.") now else r

/-- What `cleanupQrLogins` does with a record that is listed. -/
def cleanup (r : LoginRecord) (now : ℕ) : LoginRecord :=
  if r.isOpen ∧ now - r.createdAt ≥ qrPendingTtl then r.expireQrLogin now
  else if r.terminalAt.any (fun terminalAt => now - terminalAt ≥ qrTerminalTtl) then
    { r with listed := false }
  else r

/-- `persistAccountToken` up to its insert. -/
def complete (r : LoginRecord) (session : LoginSession) (id : Uuid) (now : ℕ) : LoginRecord :=
  match session.refreshToken with
  | none => r.setQrLoginTerminal (.error "No refresh token received.") now
  | some refreshToken =>
    { r with completion.step := some (.inserting
        ⟨id, session.accountName.getD "unknown", refreshToken, session.steamId, now⟩) }

def onAuthenticated (r : LoginRecord) (session : LoginSession) (id : Uuid) (now : ℕ) :
    LoginRecord :=
  if r.isOpen = false then r
  else if now - r.createdAt ≥ qrPendingTtl then r.expireQrLogin now
  else
    ({ r with phase := .completing, authenticatedAt := some now }.cleanupQrLoginSession).complete
      session id now

def onFailure (r : LoginRecord) (message : String) (now : ℕ) : LoginRecord :=
  if r.isOpen = false then r else r.setQrLoginTerminal (.error message) now

/-- What a step of its completion makes of a record; `message` is that of an error. -/
def settle (r : LoginRecord) (completion : LoginCompletion)
    (ended : Option (Option ConnectedAccount)) (message : String) (now : ℕ) : LoginRecord :=
  match ended with
  | none => { r with completion }
  | some none => { r with completion }.setQrLoginTerminal (.error message) now
  | some (some account) => { r with completion }.setQrLoginTerminal
      (.authenticated account (some "Connection saved. Steam is connecting.")) now

end LoginRecord

/-- `persist` up to its insert; without a token it throws. -/
def CredentialFlow.persist (flow : CredentialFlow) (session : LoginSession) (id : Uuid) (now : ℕ) :
    CredentialFlow :=
  match session.refreshToken with
  | none => { flow with persisting := true, result := some none }
  | some refreshToken => { flow with
      persisting := true
      completion.step := some (.inserting
        ⟨id, session.accountName.getD "unknown", refreshToken, session.steamId, now⟩) }

namespace Logins

def setRecord (s : Logins) (id : LoginId) (record : LoginRecord) : Logins :=
  { s with records := s.records.insert id record }

def setFlow (s : Logins) (id : LoginId) (flow : CredentialFlow) : Logins :=
  { s with flows := s.flows.insert id flow }

def startQrLogin (s : Logins) (qrChallengeUrl : String) : Logins :=
  { s.setRecord s.drawn
      { state := .pending (some qrChallengeUrl) (some "QR-Code mit der Steam Mobile App scannen.")
        phase := .pending
        createdAt := s.now
        terminalAt := none
        cleanedUp := false
        listed := true
        cancels := 0
        authenticatedAt := none
        completion := .idle } with drawn := s.drawn + 1 }

/-- An event of a session, whose listeners are gone when the record has been cleaned up. -/
def emit (s : Logins) (id : LoginId) (handler : LoginRecord → LoginRecord) : Option Logins := do
  let record ← s.records.lookup id
  if record.cleanedUp then none else some (s.setRecord id (handler record))

def cleanupQrLogins (s : Logins) : Logins :=
  { s with records := s.records.update fun _ record =>
      if record.listed then record.cleanup s.now else record }

def getQrLogin (s : Logins) (id : LoginId) : Logins :=
  let s := s.cleanupQrLogins
  match s.records.lookup id with
  | none => s
  | some record =>
    if record.listed then
      { s with answers :=
          ⟨id, record.state, record.phase, s.now - record.createdAt⟩ :: s.answers }
    else s

/-! ## Completions -/

def insertAccount (s : Logins) (decodeJwtExpiry : String → Option ℕ) (login : PersistedLogin) :
    Logins :=
  { s with accounts := s.accounts.insert login.accountName <|
      match s.accounts.lookup login.accountName with
      | some account => { account with
          steamId := login.steamId.or account.steamId
          refreshToken := login.refreshToken
          tokenExpiresAt := decodeJwtExpiry login.refreshToken
          updatedAt := login.now }
      | none => ⟨login.id, login.steamId, login.refreshToken, decodeJwtExpiry login.refreshToken,
          login.now⟩ }

def connected (s : Logins) (login : PersistedLogin) : ConnectedAccount :=
  let account := s.accounts.lookup login.accountName
  ⟨(account.map LoginAccount.id).getD login.id, login.accountName,
    (account.bind LoginAccount.steamId).or login.steamId, login.now⟩

/-- The next step of a completion, which may be rejected except for the event, and whether it has
ended: with an account, or with what was thrown. -/
def resume (s : Logins) (decodeJwtExpiry : String → Option ℕ) (completion : LoginCompletion)
    (ok : Bool) : Option (Logins × LoginCompletion × Option (Option ConnectedAccount)) := do
  match ← completion.step with
  | .inserting login =>
    if ok then
      some (s.insertAccount decodeJwtExpiry login,
        ⟨some (.finding login), completion.inserts + 1, completion.starts⟩, none)
    else some (s, { completion with step := none }, some none)
  | .finding login =>
    if ok then some (s, { completion with step := some (.recording (s.connected login)) }, none)
    else some (s, { completion with step := none }, some none)
  | .recording account => some (s, { completion with step := some (.starting account) }, none)
  | .starting account =>
    if ok then some (s, ⟨none, completion.inserts, completion.starts + 1⟩, some (some account))
    else some (s, { completion with step := none }, some none)

def resumeQr (s : Logins) (decodeJwtExpiry : String → Option ℕ) (id : LoginId) (ok : Bool)
    (message : String) : Option Logins := do
  let record ← s.records.lookup id
  let (s, completion, ended) ← s.resume decodeJwtExpiry record.completion ok
  some (s.setRecord id (record.settle completion ended message s.now))

/-! ## Credentials -/

def startFlow (s : Logins) : Logins :=
  { s.setFlow s.drawn ⟨false, .idle, none⟩ with drawn := s.drawn + 1 }

/-- `persistOnce`, which the event of the session and the answer of `startWithCredentials` call. -/
def persistOnce (s : Logins) (id : LoginId) (session : LoginSession) : Option Logins := do
  let flow ← s.flows.lookup id
  some <|
    if flow.persisting then s
    else { s.setFlow id (flow.persist session s.drawn s.now) with drawn := s.drawn + 1 }

def resumeFlow (s : Logins) (decodeJwtExpiry : String → Option ℕ) (id : LoginId) (ok : Bool) :
    Option Logins := do
  let flow ← s.flows.lookup id
  let (s, completion, ended) ← s.resume decodeJwtExpiry flow.completion ok
  some (s.setFlow id { flow with completion, result := ended.or flow.result })

end Logins

/-- The events of the sessions, the steps of the completions, the questions of the browser, the
timer that cleans up, and the deletion of an account. -/
inductive LoginAction where
  | startQrLogin (qrChallengeUrl : String)
  | authenticated (id : LoginId) (session : LoginSession)
  | timeout (id : LoginId)
  | error (id : LoginId) (message : String)
  | resumeQr (id : LoginId) (ok : Bool) (message : String)
  | getQrLogin (id : LoginId)
  | cleanupQrLogins
  | startFlow
  | persistOnce (id : LoginId) (session : LoginSession)
  | resumeFlow (id : LoginId) (ok : Bool)
  | deleteAccount (accountName : String)
  | tick (elapsed : ℕ)
  deriving DecidableEq, Repr

def loginMachine (decodeJwtExpiry : String → Option ℕ) : Transition.Machine Logins LoginAction where
  Starts s := s.records = ∅ ∧ s.flows = ∅ ∧ s.answers = []
  next s
    | .startQrLogin qrChallengeUrl => some (s.startQrLogin qrChallengeUrl)
    | .authenticated id session => ({ s with drawn := s.drawn + 1 } : Logins).emit id
        fun record => record.onAuthenticated session s.drawn s.now
    | .timeout id => s.emit id fun record => record.onFailure "QR login timed out." s.now
    | .error id message => s.emit id fun record => record.onFailure message s.now
    | .resumeQr id ok message => s.resumeQr decodeJwtExpiry id ok message
    | .getQrLogin id => some (s.getQrLogin id)
    | .cleanupQrLogins => some s.cleanupQrLogins
    | .startFlow => some s.startFlow
    | .persistOnce id session => s.persistOnce id session
    | .resumeFlow id ok => s.resumeFlow decodeJwtExpiry id ok
    | .deleteAccount accountName => some { s with accounts := s.accounts.erase accountName }
    | .tick elapsed => some { s with now := s.now + elapsed }

end SteamBee.Steam
