import SteamBee.Auth.Service
import SteamBee.Text.Decimal

/-! The setup of the admin: the token that permits it, the file that keeps the token, and the calls
of `setupAdmin`, over restarts and crashes of the server. -/
namespace SteamBee.Auth
open Transition (Calls)

abbrev SetupToken := List Char

def minSetupTokenLength : ℕ := 8

def maxConfiguredTokenLength : ℕ := 256

def setupAlreadyComplete : AppError :=
  ⟨"Setup has already been completed.", 409, "SETUP_ALREADY_COMPLETE"⟩

def setupTokenInvalid : AppError := ⟨"Setup token is invalid.", 401, "SETUP_TOKEN_INVALID"⟩

/-- A text of `randomBytes(32)` in the alphabet of base64url. -/
def isGenerated (token : SetupToken) : Bool :=
  token.length == 43 && token.all fun c => c.isAlphanum || c == '-' || c == '_'

/-- `configuredSetupTokenSchema`. -/
def isConfigurable (token : SetupToken) : Bool :=
  minSetupTokenLength ≤ Text.utf16Length token && Text.utf16Length token ≤ maxConfiguredTokenLength

/-- What a call of `setupAdmin` waits for; the token has been presented when its password is
hashed. -/
inductive SetupCall where
  | isSetupComplete (password : Password) (setupToken : SetupToken)
  | hash (password : Password) (presented : SetupToken) (now : ℕ)
  deriving DecidableEq, Repr

inductive SetupReply where
  | completed
  | rejected (error : AppError)
  | failed
  deriving DecidableEq, Repr

/-- The server before its token is initialized, with a file that is opened for a generated token,
and with routes. -/
inductive SetupProcess where
  | stopped
  | starting
  | creating (generated : SetupToken)
  | serving (activeToken : Option SetupToken) (calls : Calls SetupCall)
  deriving DecidableEq

/-- `unlinkSync` returns or throws, or the process ends before it. -/
inductive Unlink where
  | removed
  | failed
  | killed
  deriving DecidableEq, Repr

/-- An admin as it was created: the token of the call, and the one that was active. -/
structure CreatedAdmin where
  presented : SetupToken
  activeToken : Option SetupToken
  deriving DecidableEq, Repr

structure SetupHost where
  users : List AdminUser
  file : Option (List Char)
  setupToken : Option SetupToken
  process : SetupProcess
  now : ℕ
  replies : List SetupReply
  created : List CreatedAdmin
  deriving DecidableEq

namespace SetupHost

def serve (s : SetupHost) (activeToken : Option SetupToken) (calls : Calls SetupCall) : SetupHost :=
  { s with process := .serving activeToken calls }

def stop (s : SetupHost) : SetupHost := { s with process := .stopped }

def readSetupTokenFile (content : List Char) : Option SetupToken :=
  let token := Text.trim content
  if Text.utf16Length token < minSetupTokenLength then none else some token

/-- What throws ends the start. -/
def initializeSetupToken (s : SetupHost) (generated : SetupToken) (unlink : Unlink) :
    Option SetupHost :=
  match s.process with
  | .starting =>
    if s.users ≠ [] then
      some <|
        match unlink with
        | .removed => { s with file := none }.serve none .empty
        | .failed => if s.file = none then s.serve none .empty else s.stop
        | .killed => s.stop
    else
      match s.setupToken with
      | some token => some (s.serve (some token) .empty)
      | none =>
        match s.file with
        | none =>
          if isGenerated generated then
            some { s with file := some [], process := .creating generated }
          else none
        | some content =>
          match readSetupTokenFile content with
          | some token => some (s.serve (some token) .empty)
          | none => some s.stop
  | _ => none

def writeSetupTokenFile (s : SetupHost) : Option SetupHost :=
  match s.process with
  | .creating generated =>
    some ({ s with file := s.file.map fun _ => generated ++ ['\n'] }.serve (some generated) .empty)
  | _ => none

def reply (s : SetupHost) (reply : SetupReply) : SetupHost :=
  { s with replies := reply :: s.replies }

def completeSetupToken (s : SetupHost) (calls : Calls SetupCall) : Unlink → SetupHost
  | .removed => ({ s with file := none }.serve none calls).reply .completed
  | .failed => (s.serve none calls).reply (if s.file = none then .completed else .failed)
  | .killed => s.stop

def resume (p : Crypto) (s : SetupHost) (id salt : ℕ) (unlink : Unlink) : Option SetupHost :=
  match s.process with
  | .serving activeToken calls => do
    match ← calls.waiting.lookup id with
    | .isSetupComplete password setupToken =>
      some <|
        if s.users ≠ [] then
          (s.serve activeToken (calls.finish id)).reply (.rejected setupAlreadyComplete)
        else if activeToken ≠ some setupToken then
          (s.serve activeToken (calls.finish id)).reply (.rejected setupTokenInvalid)
        else s.serve activeToken (calls.await id (.hash password setupToken s.now))
    | .hash password presented now =>
      some <|
        -- the transaction looks again
        if s.users ≠ [] then
          (s.serve activeToken (calls.finish id)).reply (.rejected setupAlreadyComplete)
        else
          { s with
            users := [⟨p.hash password salt, now, 0⟩]
            created := ⟨presented, activeToken⟩ :: s.created }.completeSetupToken
              (calls.finish id) unlink
  | _ => none

end SetupHost

/-- The starts and the ends of the process, its calls, and what the operator does: the configured
token, the rows of a restored database and the removal of the token file. -/
inductive SetupAction where
  | start
  | initializeSetupToken (generated : SetupToken) (unlink : Unlink)
  | writeSetupTokenFile
  | crash
  | setupAdmin (password : Password) (setupToken : SetupToken)
  | resume (id salt : ℕ) (unlink : Unlink)
  | fail (id : ℕ)
  | changeAdminPassword (password : Password) (salt : ℕ)
  | configure (setupToken : Option SetupToken)
  | restore (user : Option AdminUser)
  | removeFile
  | tick (elapsed : ℕ)
  deriving DecidableEq

/-- A server under every order of these steps, from an empty data directory. -/
def setupMachine (p : Crypto) : Transition.Machine SetupHost SetupAction where
  Starts s := s.users = [] ∧ s.file = none ∧ s.setupToken = none ∧ s.process = .stopped ∧
    s.created = []
  next s
    | .start => if s.process = .stopped then some { s with process := .starting } else none
    | .initializeSetupToken generated unlink => s.initializeSetupToken generated unlink
    | .writeSetupTokenFile => s.writeSetupTokenFile
    | .crash => some s.stop
    | .setupAdmin password setupToken =>
      match s.process with
      | .serving activeToken calls =>
        some (s.serve activeToken (calls.start (.isSetupComplete password setupToken)))
      | _ => none
    | .resume id salt unlink => s.resume p id salt unlink
    | .fail id =>
      match s.process with
      | .serving activeToken calls => (calls.waiting.lookup id).map fun _ =>
          (s.serve activeToken (calls.finish id)).reply .failed
      | _ => none
    | .changeAdminPassword password salt =>
      match s.process with
      | .serving _ _ => some { s with users := s.users.map fun user =>
          ⟨p.hash password salt, s.now, user.generation + 1⟩ }
      | _ => none
    | .configure setupToken =>
      if s.process = .stopped ∧ setupToken.all isConfigurable then some { s with setupToken }
      else none
    | .restore user => if s.process = .stopped then some { s with users := user.toList } else none
    | .removeFile => some { s with file := none }
    | .tick elapsed => some { s with now := s.now + elapsed }

end SteamBee.Auth
