import SteamBee.Transition.Calls
import SteamBee.Transition.Machine

/-! The admin login: sessions, their validation and deletion, and the change of the
password. Every database statement and every use of argon2 is an `await`. -/
namespace SteamBee.Auth

abbrev Password := String

abbrev PasswordHash := String

abbrev SessionId := ℕ

abbrev Token := ℕ

abbrev TokenHash := String

/-- What argon2 and SHA-256 compute. A password hash depends on its salt. -/
structure Crypto where
  hash : Password → ℕ → PasswordHash
  verify : PasswordHash → Password → Bool
  sha256 : Token → TokenHash

structure AppError where
  message : String
  status : ℕ
  code : String
  deriving DecidableEq, Repr

/-- The one row of `admin_user`. `generation` counts how often its hash was replaced. -/
structure AdminUser where
  passwordHash : PasswordHash
  updatedAt : ℕ
  generation : ℕ
  deriving DecidableEq, Repr

/-- A row of `admin_session`. `credential` is the generation of the hash that its login
verified. -/
structure AdminSession where
  tokenHash : TokenHash
  csrfToken : Token
  expiresAt : ℕ
  createdAt : ℕ
  lastSeenAt : ℕ
  credential : ℕ
  deriving DecidableEq, Repr

structure SessionResult where
  sessionId : SessionId
  token : Token
  csrfToken : Token
  expiresAt : ℕ
  deriving DecidableEq, Repr

def sessionDays : ℕ := 7

def lastSeenWriteInterval : ℕ := 5 * 60000

def setupRequired : AppError :=
  ⟨"Setup is not complete yet.", 409, "SETUP_REQUIRED"⟩

def loginInvalid : AppError := ⟨"Invalid password.", 401, "LOGIN_INVALID"⟩

def currentPasswordInvalid : AppError :=
  ⟨"Current password is invalid.", 401, "CURRENT_PASSWORD_INVALID"⟩

def currentSessionProtected : AppError :=
  ⟨"The current session cannot be deleted here.", 409, "CURRENT_SESSION_PROTECTED"⟩

/-- What a call returns. `passwordChanged` names the caller's session and the
generation of the hash that the call stored. -/
inductive Reply where
  | session (result : SessionResult)
  | validated (session : Option (SessionId × AdminSession))
  | deleted
  | deletedById (found : Bool)
  | deletedMany (sessions : ℕ)
  | passwordChanged (currentSessionId : SessionId) (generation : ℕ) (revokedSessions : ℕ)
  | rejected (error : AppError)
  | failed
  deriving DecidableEq, Repr

/-- What a call waits for. `caller` of the two clean-ups is the call that awaits them:
the token that `validateSession` validates, and the generation that
`changeAdminPassword` made. `settled` is the time between the last statement of a call and
its return. -/
inductive Call where
  | createSessionUser (password : Password)
  | createSessionVerify (user : AdminUser) (password : Password)
  | createSessionInsert (result : SessionResult) (session : AdminSession)
  | cleanupSelect (now : ℕ) (caller : Option Token)
  | cleanupDelete (now : ℕ) (expired : ℕ) (caller : Option Token)
  | validateFind (now : ℕ) (token : Token)
  | validateSeen (now : ℕ) (id : SessionId) (session : AdminSession)
  | deleteSessionFind (tokenHash : TokenHash)
  | deleteSessionDelete (tokenHash : TokenHash)
  | deleteByIdFind (sessionId : SessionId)
  | deleteByIdDelete (sessionId : SessionId)
  | deleteOthersSelect (currentSessionId : SessionId) (caller : Option ℕ)
  | deleteOthersDelete (currentSessionId : SessionId) (others : ℕ) (caller : Option ℕ)
  | changeUser (currentPassword newPassword : Password) (currentSessionId : SessionId)
  | changeVerify (user : AdminUser) (currentPassword newPassword : Password)
      (currentSessionId : SessionId)
  | changeHash (newPassword : Password) (currentSessionId : SessionId)
  | changeUpdate (passwordHash : PasswordHash) (updatedAt : ℕ) (currentSessionId : SessionId)
  | settled (reply : Reply)
  deriving DecidableEq, Repr

/-- The database, the calls in flight and what was returned, newest first. -/
structure AuthService where
  now : ℕ
  user : Option AdminUser
  sessions : Table SessionId AdminSession
  calls : Transition.Calls Call
  drawn : ℕ
  replies : List Reply
  deriving DecidableEq

namespace AuthService

def await (s : AuthService) (id : ℕ) (call : Call) : AuthService :=
  { s with calls := s.calls.await id call }

def returns (s : AuthService) (id : ℕ) (reply : Reply) : AuthService :=
  { s with calls := s.calls.finish id, replies := reply :: s.replies }

/-- The last statement of call `id` took effect. -/
def settles (s : AuthService) (id : ℕ) (reply : Reply) : AuthService := s.await id (.settled reply)

def begins (s : AuthService) (call : Call) : AuthService := { s with calls := s.calls.start call }

def answers (s : AuthService) (reply : Reply) : AuthService :=
  { s with replies := reply :: s.replies }

def findByTokenHash (s : AuthService) (tokenHash : TokenHash) : Option (SessionId × AdminSession) :=
  (s.sessions.entries.find? fun e => e.2.tokenHash == tokenHash).map fun e => (e.1, e.2)

/-- `delete(adminSession).where(...)`: only rows that fail `p` stay. -/
def deleteWhere (s : AuthService) (p : SessionId → AdminSession → Bool) : AuthService :=
  { s with sessions := s.sessions.retain fun id row => !p id row }

def countWhere (s : AuthService) (p : SessionId → AdminSession → Bool) : ℕ :=
  s.sessions.entries.countP fun e => p e.1 e.2

def isExpired (now : ℕ) (_ : SessionId) (row : AdminSession) : Bool := row.expiresAt ≤ now

def isOther (currentSessionId id : SessionId) (_ : AdminSession) : Bool := id != currentSessionId

/-- `createSession` once the password is valid: the random values are drawn. -/
def createRow (p : Crypto) (s : AuthService) (credential : ℕ) : SessionResult × AdminSession :=
  let expiresAt := s.now + sessionDays * 24 * 60 * 60 * 1000
  (⟨s.drawn, s.drawn + 1, s.drawn + 2, expiresAt⟩,
    ⟨p.sha256 (s.drawn + 1), s.drawn + 2, expiresAt, s.now, s.now, credential⟩)

/-- The token hash is unique: an insert of a known one throws. -/
def insertSession (s : AuthService) (id : ℕ) (result : SessionResult) (row : AdminSession) :
    AuthService :=
  match s.findByTokenHash row.tokenHash with
  | some _ => s.settles id .failed
  | none =>
    { s with sessions := s.sessions.insert result.sessionId row }.settles id (.session result)

def cleanedUp (s : AuthService) (id : ℕ) (now expired : ℕ) : Option Token → AuthService
  | none => s.settles id (.deletedMany expired)
  | some token => s.await id (.validateFind now token)

def othersDeleted (s : AuthService) (id : ℕ) (currentSessionId : SessionId) (others : ℕ) :
    Option ℕ → AuthService
  | none => s.settles id (.deletedMany others)
  | some generation => s.settles id (.passwordChanged currentSessionId generation others)

/-- The statement that call `id` waits for takes effect and the call goes on. -/
def resume (p : Crypto) (s : AuthService) (id salt : ℕ) : Option AuthService :=
  match s.calls.waiting.lookup id with
  | none => none
  | some (.createSessionUser password) =>
    match s.user with
    | none => some (s.settles id (.rejected setupRequired))
    | some user => some (s.await id (.createSessionVerify user password))
  | some (.createSessionVerify user password) =>
    if p.verify user.passwordHash password then
      let row := s.createRow p user.generation
      some ({ s with drawn := s.drawn + 3 }.await id (.createSessionInsert row.1 row.2))
    else some (s.settles id (.rejected loginInvalid))
  | some (.createSessionInsert result row) => some (s.insertSession id result row)
  | some (.cleanupSelect now caller) =>
    let expired := s.countWhere (isExpired now)
    if expired = 0 then some (s.cleanedUp id now 0 caller)
    else some (s.await id (.cleanupDelete now expired caller))
  | some (.cleanupDelete now expired caller) =>
    some ((s.deleteWhere (isExpired now)).cleanedUp id now expired caller)
  | some (.validateFind now token) =>
    match s.findByTokenHash (p.sha256 token) with
    | none => some (s.settles id (.validated none))
    | some (sessionId, row) =>
      if lastSeenWriteInterval ≤ now - row.lastSeenAt then
        some (s.await id (.validateSeen now sessionId row))
      else some (s.settles id (.validated (some (sessionId, row))))
  | some (.validateSeen now sessionId row) =>
    some ({ s with
      sessions := s.sessions.modify sessionId fun r => { r with lastSeenAt := now } }.settles
        id (.validated (some (sessionId, row))))
  | some (.deleteSessionFind tokenHash) => some (s.await id (.deleteSessionDelete tokenHash))
  | some (.deleteSessionDelete tokenHash) =>
    some ((s.deleteWhere fun _ row => row.tokenHash == tokenHash).settles id .deleted)
  | some (.deleteByIdFind sessionId) =>
    match s.sessions.lookup sessionId with
    | none => some (s.settles id (.deletedById false))
    | some _ => some (s.await id (.deleteByIdDelete sessionId))
  | some (.deleteByIdDelete sessionId) =>
    some ((s.deleteWhere fun k _ => k == sessionId).settles id (.deletedById true))
  | some (.deleteOthersSelect current caller) =>
    let others := s.countWhere (isOther current)
    if others = 0 then some (s.othersDeleted id current 0 caller)
    else some (s.await id (.deleteOthersDelete current others caller))
  | some (.deleteOthersDelete current others caller) =>
    some ((s.deleteWhere (isOther current)).othersDeleted id current others caller)
  | some (.changeUser currentPassword newPassword current) =>
    match s.user with
    | none => some (s.settles id (.rejected setupRequired))
    | some user => some (s.await id (.changeVerify user currentPassword newPassword current))
  | some (.changeVerify user currentPassword newPassword current) =>
    if p.verify user.passwordHash currentPassword then
      some (s.await id (.changeHash newPassword current))
    else some (s.settles id (.rejected currentPasswordInvalid))
  | some (.changeHash newPassword current) =>
    some (s.await id (.changeUpdate (p.hash newPassword salt) s.now current))
  | some (.changeUpdate passwordHash updatedAt current) =>
    let generation := (s.user.map AdminUser.generation).getD 0 + 1
    some ({ s with user := s.user.map fun _ => ⟨passwordHash, updatedAt, generation⟩ }.await id
      (.deleteOthersSelect current (some generation)))
  | some (.settled reply) => some (s.returns id reply)

def fail (s : AuthService) (id : ℕ) : Option AuthService :=
  match s.calls.waiting.lookup id with
  | none | some (.settled _) => none
  | some _ => some (s.settles id .failed)

end AuthService

/-- The calls of the service, their steps and rejections, and the clock. -/
inductive Action where
  | createSession (password : Password)
  | validateSession (token : Option Token)
  | deleteSession (token : Option Token)
  | cleanupExpiredSessions
  | deleteAdminSessionById (sessionId currentSessionId : SessionId)
  | deleteOtherAdminSessions (currentSessionId : SessionId)
  | changeAdminPassword (currentPassword newPassword : Password) (currentSessionId : SessionId)
  | resume (id salt : ℕ)
  | fail (id : ℕ)
  | tick (elapsed : ℕ)
  deriving DecidableEq, Repr

/-- The service under every order of the steps of its calls, from a database without
sessions. -/
def authMachine (p : Crypto) : Transition.Machine AuthService Action where
  Starts s := s.sessions = ∅ ∧ s.calls = .empty ∧ s.replies = []
  next s
    | .createSession password => some (s.begins (.createSessionUser password))
    | .validateSession none => some (s.answers (.validated none))
    | .validateSession (some token) => some (s.begins (.cleanupSelect s.now (some token)))
    | .deleteSession none => some (s.answers .deleted)
    | .deleteSession (some token) => some (s.begins (.deleteSessionFind (p.sha256 token)))
    | .cleanupExpiredSessions => some (s.begins (.cleanupSelect s.now none))
    | .deleteAdminSessionById sessionId current =>
      if sessionId = current then some (s.answers (.rejected currentSessionProtected))
      else some (s.begins (.deleteByIdFind sessionId))
    | .deleteOtherAdminSessions current => some (s.begins (.deleteOthersSelect current none))
    | .changeAdminPassword currentPassword newPassword current =>
      some (s.begins (.changeUser currentPassword newPassword current))
    | .resume id salt => s.resume p id salt
    | .fail id => s.fail id
    | .tick elapsed => some { s with now := s.now + elapsed }

end SteamBee.Auth
