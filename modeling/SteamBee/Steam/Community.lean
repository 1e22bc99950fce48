import SteamBee.Inventory.SteamData

/-! Requests to the Steam Community: the web session of the account, the stop checks before the
request, the redirects that a read may follow, and the body. -/
namespace SteamBee.Steam
open Inventory Inventory.SteamData

inductive Method where
  | get | post
  deriving DecidableEq, Repr

structure CommunitySession where
  sessionId : String
  cookies : List String

structure Url where
  origin : String
  username : String
  password : String
  pathname : String
  deriving DecidableEq, Repr

/-- The body of a response as it is read: the sizes of its parts, whether the stream breaks
after them, and what they decode to together. -/
structure BodyStream where
  parts : List ℕ
  breaks : Bool
  text : List Char

/-- What `fetch` brings. `location` is the target of a redirect, where there is a valid one. -/
inductive Fetched where
  | threw
  | response (status : ℕ) (location : Option Url) (body : BodyStream)

/-- What happens to one request: how the lookup of the session ends, what `shouldContinue` says
after it and before the request, and what each `fetch` brings. -/
structure CommunityRun where
  session : Except ActionError CommunitySession
  continues : Bool
  continuesStill : Bool
  fetches : ℕ → Fetched

def communityOrigin : String := "https://steamcommunity.com"

def maxRedirects : ℕ := 3

def maxBodyBytes : ℕ := 10 * 1024 * 1024

/-- Fetch errors can include cookies or request details; never expose them. -/
def requestFailed : ActionError :=
  appError "Steam Community request failed. Try again after reconnecting." 502

def signInAgain : ActionError := appError "Steam Community requires a renewed sign-in." 409

/-- `/^\/(?:id|profiles)\/[^/]+\//`. -/
def isProfilePath (pathname : String) : Bool :=
  match pathname.splitOn "/" with
  | "" :: kind :: name :: _ :: _ => (kind == "id" || kind == "profiles") && name != ""
  | _ => false

def eligibilityPath : String := "/market/eligibilitycheck/"

/-- The redirects that are followed: same-host hops of a read. -/
def communityRedirect (location : Option Url) (current : Url) (method : Method) (hop : ℕ) :
    Option Url :=
  match location with
  | none => none
  | some next =>
    if method ≠ .get ∨ maxRedirects ≤ hop then none
    else if next.origin ≠ current.origin ∨ next.username ≠ "" ∨ next.password ≠ "" then none
    else
      let eligibility := next.pathname == eligibilityPath
      let backToMarket := current.pathname == eligibilityPath &&
        "/market/".toList.isPrefixOf next.pathname.toList && !eligibility
      if isProfilePath next.pathname || eligibility || backToMarket then some next else none

def readParts (body : BodyStream) : List ℕ → ℕ → Except ActionError ℕ
  | [], size => if body.breaks then .error requestFailed else .ok size
  | part :: rest, size =>
    if maxBodyBytes < size + part then
      .error (appError "Steam Community response exceeded the size limit." 502)
    else readParts body rest (size + part)

def readBody (status : ℕ) (body : BodyStream) : Except ActionError Response :=
  match readParts body body.parts 0 with
  | .error e => .error e
  | .ok size => .ok ⟨status, if status ∈ [204, 205, 304] then none else some (size, body.text)⟩

/-- The hops from `current` on, of which `remaining` may be redirected. -/
def fetchFrom (method : Method) (fetches : ℕ → Fetched) (current : Url) :
    ℕ → Except ActionError Response
  | 0 =>
    match fetches maxRedirects with
    | .threw => .error requestFailed
    | .response status _ body =>
      if 300 ≤ status ∧ status < 400 then .error signInAgain else readBody status body
  | remaining + 1 =>
    match fetches (maxRedirects - (remaining + 1)) with
    | .threw => .error requestFailed
    | .response status location body =>
      if 300 ≤ status ∧ status < 400 then
        match communityRedirect location current method (maxRedirects - (remaining + 1)) with
        | none => .error signInAgain
        | some next => fetchFrom method fetches next remaining
      else readBody status body

/-- The request at a valid path: whether it may have left the process, and how it settles. -/
def communityRequest (method : Method) (target : Url) (run : CommunityRun) :
    Bool × Except ActionError Response :=
  match run.session with
  | .error e => (false, .error e)
  | .ok _ =>
    -- a queued batch may be stopped while Steam renews its web session
    if !run.continues then (false, .error stoppedBeforeSubmission)
    else if !run.continuesStill then (false, .error stoppedBeforeSubmission)
    else (true, fetchFrom method run.fetches target maxRedirects)

def Unmarked {α : Type} (outcome : Except ActionError α) : Prop :=
  ∀ e, outcome = .error e → e.notSubmitted = false

variable {method : Method} {target : Url} {run : CommunityRun}

theorem unmarked_readParts (body : BodyStream) (parts : List ℕ) (size : ℕ) :
    Unmarked (readParts body parts size) := by
  induction parts generalizing size with
  | nil =>
    unfold readParts
    split_ifs
    · rintro _ ⟨⟩; rfl
    · rintro _ ⟨⟩
  | cons part rest ih =>
    unfold readParts
    split_ifs
    · rintro _ ⟨⟩; rfl
    · exact ih (size + part)

theorem unmarked_readBody (status : ℕ) (body : BodyStream) : Unmarked (readBody status body) := by
  unfold readBody
  split
  next e he =>
    rintro _ ⟨⟩
    exact unmarked_readParts body body.parts 0 e he
  next => rintro _ ⟨⟩

theorem unmarked_fetchFrom (method : Method) (fetches : ℕ → Fetched) (current : Url)
    (remaining : ℕ) : Unmarked (fetchFrom method fetches current remaining) := by
  induction remaining generalizing current with
  | zero =>
    unfold fetchFrom
    split
    next => rintro _ ⟨⟩; rfl
    next =>
      split_ifs
      · rintro _ ⟨⟩; rfl
      · exact unmarked_readBody _ _
  | succ remaining ih =>
    unfold fetchFrom
    split
    next => rintro _ ⟨⟩; rfl
    next =>
      split_ifs
      · split
        next => rintro _ ⟨⟩; rfl
        next next _ => exact ih next
      · exact unmarked_readBody _ _

/-- The lookup of the session rejects, with an error that does not say that nothing was sent. -/
def CommunityRun.lookupRejects (run : CommunityRun) : Bool :=
  match run.session with
  | .error e => !e.notSubmitted
  | .ok _ => false

/-- The errors of a request tell whether it was sent, unless the lookup of its session rejects. -/
theorem unmarked_iff_sent (method : Method) (target : Url) (run : CommunityRun) :
    Unmarked (communityRequest method target run).2 ↔
      (communityRequest method target run).1 = true ∨ run.lookupRejects = true := by
  unfold communityRequest CommunityRun.lookupRejects
  cases hsession : run.session with
  | error e =>
    simp only [Bool.false_eq_true, false_or, Bool.not_eq_true']
    constructor
    · intro h
      exact h e rfl
    · rintro h _ ⟨⟩
      exact h
  | ok =>
    dsimp only
    have hstopped : ¬Unmarked (.error stoppedBeforeSubmission : Except ActionError Response) := by
      intro h
      cases h _ rfl
    split_ifs
    · simpa using hstopped
    · simpa using hstopped
    · simpa using unmarked_fetchFrom method run.fetches target maxRedirects

end SteamBee.Steam
