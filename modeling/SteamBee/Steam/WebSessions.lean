import SteamBee.Data.Keyed
import SteamBee.Inventory.Contracts
import SteamBee.Steam.Community
import SteamBee.Text.Decimal
import SteamBee.Transition.Calls
import SteamBee.Transition.Machine

/-! The web sessions of the accounts and the requests that are made with them: a broker for each
account, the cookies that the market has set, and the requests on their way. -/
namespace SteamBee.Steam
open Transition (Calls)

/-- What `accept` keeps of a session: the cookies are pairs without attributes. -/
structure WebSession where
  steamId : String
  sessionId : List Char
  cookies : List (List Char)
  deriving DecidableEq, Repr

/-- A cached session; `stamp` is the moment of its event in the order of events. -/
structure CachedSession where
  session : WebSession
  createdAt : ℕ
  stamp : ℕ
  deriving DecidableEq, Repr

/-- A `CommunitySessionBroker` and what its adapter tells; `pending` is when its timer is due. -/
structure SessionBroker where
  steamId : Option String
  connected : Bool
  cached : Option CachedSession
  pending : Option ℕ
  deriving DecidableEq, Repr

def SessionBroker.fresh : SessionBroker := ⟨none, false, none, none⟩

def SessionBroker.connection (b : SessionBroker) : Option String :=
  if b.connected then b.steamId.filter (· ≠ "") else none

structure Grant where
  cached : CachedSession
  connection : Option String
  time : ℕ
  stamp : ℕ
  deriving DecidableEq, Repr

structure MarketCookie where
  name : List Char
  pair : List Char
  expiresAt : ℕ
  deriving DecidableEq, Repr

/-- An entry of `marketCookies`; requests keep the one that they began with. -/
structure CookieJar where
  account : Uuid
  sessionId : List Char
  cookies : List MarketCookie
  deriving DecidableEq, Repr

/-- Where a request is: it waits for the worker, for a session, to go on with one, or for the
answer to a hop. -/
inductive CallPhase where
  | locating
  | awaiting (since : ℕ)
  | granted (grant : Grant)
  | fetching (grant : Grant) (jar : ℕ) (startedAt : ℕ) (current : Url) (hop : ℕ)
  deriving DecidableEq, Repr

structure CommunityCall where
  account : Uuid
  target : Url
  method : Method
  phase : CallPhase
  deriving DecidableEq, Repr

def CommunityCall.waits (call : CommunityCall) (account : Uuid) : Bool :=
  call.account = account && (call.phase matches .awaiting _)

structure SentRequest where
  call : ℕ
  account : Uuid
  method : Method
  url : Url
  grant : Grant
  extraCookies : List MarketCookie
  startedAt : ℕ
  deriving DecidableEq, Repr

/-- The session ids that an event ends: all of the account, or one that Steam has rejected. -/
structure SessionEnding where
  account : Uuid
  sessionId : Option (List Char)
  stamp : ℕ
  deriving DecidableEq, Repr

structure Acceptance where
  account : Uuid
  connection : Option String
  cached : CachedSession
  deriving DecidableEq, Repr

structure GivenCookie where
  call : ℕ
  account : Uuid
  sessionId : List Char
  cookie : MarketCookie
  deriving DecidableEq, Repr

/-- `stamp` numbers the events of the sessions; the lists record what has happened. -/
structure WebSessions where
  brokers : Table Uuid SessionBroker
  marketCookies : Table Uuid ℕ
  jars : Table ℕ CookieJar
  drawn : ℕ
  calls : Calls CommunityCall
  now : ℕ
  stamp : ℕ
  accepted : List Acceptance
  endings : List SessionEnding
  given : List GivenCookie
  sent : List SentRequest

def sessionTtl : ℕ := 30 * 60000

def sessionTimeout : ℕ := 20000

/-! ## Texts -/

def isLineBreak (c : Char) : Bool := c == '\r' || c == '\n'

/-- `cookie.split(";")[0]`. -/
def pairOf (cookie : List Char) : List Char := cookie.takeWhile (· != ';')

/-- The checks of `accept` on what an event brings. -/
def isAcceptable (sessionId : List Char) (pairs : List (List Char)) : Bool :=
  !sessionId.isEmpty && !sessionId.any (fun c => isLineBreak c || c == ';') &&
  !pairs.any (·.any isLineBreak) &&
  pairs.any ("steamLoginSecure=".toList.isPrefixOf ·) &&
  pairs.contains ("sessionid=".toList ++ sessionId)

/-- Cookies Steam sets during its market check; never auth cookies. -/
def marketCookieNames : List (List Char) :=
  ["webTradeEligibility".toList, "steamCountry".toList]

/-- `pair.slice(0, pair.indexOf("=")).trim()`. -/
def cookieName (pair : List Char) : List Char :=
  Text.trim (if '=' ∈ pair then pair.takeWhile (· != '=') else pair.dropLast)

/-- `/^\s*max-age=(\d+)\s*$/i`. -/
def maxAge (text : List Char) : Option ℕ :=
  let trimmed := Text.trim text
  let digits := trimmed.drop 8
  if (trimmed.take 8).map Char.toLower = "max-age=".toList ∧ digits ≠ [] ∧
      digits.all Char.isDigit then
    some (Nat.ofDigitChars 10 digits 0)
  else none

/-- One header of `rememberMarketCookies`: without Max-Age a cookie is kept for an hour. -/
def rememberCookie (now : ℕ) (cookies : List MarketCookie) (header : List Char) :
    List MarketCookie :=
  let pair := pairOf header
  let name := cookieName pair
  if name ∉ marketCookieNames ∨ pair.any isLineBreak then cookies
  else
    let seconds := ((header.splitOn ';').tail.findSome? maxAge).getD 3600
    if seconds = 0 then cookies.filter (·.name ≠ name)
    else
      let cookie : MarketCookie := ⟨name, Text.trim pair, now + seconds * 1000⟩
      cookies.upsert MarketCookie.name name (fun _ => cookie) cookie

def rememberMarketCookies (now : ℕ) (cookies : List MarketCookie) (headers : List (List Char)) :
    List MarketCookie := headers.foldl (rememberCookie now) cookies

def SentRequest.cookie (r : SentRequest) : List Char :=
  "; ".toList.intercalate (r.grant.cached.session.cookies ++ r.extraCookies.map MarketCookie.pair)

namespace WebSessions

def broker (s : WebSessions) (account : Uuid) : SessionBroker :=
  (s.brokers.lookup account).getD .fresh

def setBroker (s : WebSessions) (account : Uuid) (broker : SessionBroker) : WebSessions :=
  { s with brokers := s.brokers.insert account broker }

/-! ## The broker -/

def settle (s : WebSessions) (account : Uuid) (session : Option CachedSession) : WebSessions :=
  { s with calls.waiting :=
      match session with
      | none => s.calls.waiting.retain fun _ call => !call.waits account
      | some cached => s.calls.waiting.update fun _ call =>
          if call.waits account then
            { call with
              phase := .granted ⟨cached, (s.broker account).connection, s.now, s.stamp⟩ }
          else call }

def invalidate (s : WebSessions) (account : Uuid) : WebSessions :=
  let broker := s.broker account
  let s := s.setBroker account { broker with cached := none, pending := none }
  let s := if broker.pending.isSome then s.settle account none else s
  { s with
    stamp := s.stamp + 1
    endings := ⟨account, none, s.stamp⟩ :: s.endings }

def accept (s : WebSessions) (account : Uuid) (sessionId : List Char)
    (cookies : List (List Char)) : WebSessions :=
  let broker := s.broker account
  match broker.connection with
  | none => s
  | some steamId =>
    if isAcceptable sessionId (cookies.map pairOf) then
      let cached : CachedSession := ⟨⟨steamId, sessionId, cookies.map pairOf⟩, s.now, s.stamp⟩
      let s := { s.setBroker account { broker with cached := some cached, pending := none } with
        stamp := s.stamp + 1
        accepted := ⟨account, some steamId, cached⟩ :: s.accepted }
      if broker.pending.isSome then s.settle account (some cached) else s
    else s

def discard (s : WebSessions) (account : Uuid) (sessionId : List Char) : WebSessions :=
  let broker := s.broker account
  let s := { s with
    stamp := s.stamp + 1
    endings := ⟨account, some sessionId, s.stamp⟩ :: s.endings }
  if broker.cached.any (·.session.sessionId = sessionId) then
    s.setBroker account { broker with cached := none }
  else s

def usable (s : WebSessions) (account : Uuid) (steamId : String) : Option CachedSession :=
  (s.broker account).cached.filter fun cached =>
    cached.session.steamId = steamId ∧ s.now - cached.createdAt < sessionTtl

/-- `get` for a call; `throws` tells whether `webLogOn` throws. -/
def get (s : WebSessions) (id : ℕ) (call : CommunityCall) (throws : Bool) : WebSessions :=
  let account := call.account
  let broker := s.broker account
  match broker.connection with
  | none => ({ s with calls := s.calls.finish id } : WebSessions).invalidate account
  | some steamId =>
    match s.usable account steamId with
    | some cached =>
      let grant : Grant := ⟨cached, broker.connection, s.now, s.stamp⟩
      { s with calls := s.calls.await id { call with phase := .granted grant } }
    | none =>
      let waiting := { s with calls := s.calls.await id { call with phase := .awaiting s.now } }
      if broker.pending.isSome then waiting
      else
        let waiting := waiting.setBroker account
          { broker with pending := some (s.now + sessionTimeout) }
        if throws then waiting.invalidate account else waiting

/-! ## The requests -/

def isCommunityPath (path : List Char) : Bool :=
  "/".toList.isPrefixOf path && !"//".toList.isPrefixOf path &&
  !path.any fun c => c == '\\' || isLineBreak c || c == '\x00'

def request (s : WebSessions) (parse : String → Option Url) (account : Uuid) (path : String)
    (method : Method) : Option WebSessions := do
  let target ← parse path
  if isCommunityPath path.toList = true ∧ target.origin = communityOrigin ∧ target.username = "" ∧
      target.password = "" then
    some { s with calls := s.calls.start ⟨account, target, method, .locating⟩ }
  else none

/-- `marketCookiesFor`, which also gives the jar. -/
def marketCookiesFor (s : WebSessions) (account : Uuid) (sessionId : List Char) :
    ℕ × WebSessions :=
  let known := (s.marketCookies.lookup account).filter fun jar =>
    (s.jars.lookup jar).any (·.sessionId = sessionId)
  match known with
  | some jar => (jar, { s with jars := s.jars.modify jar fun entry =>
      { entry with cookies := entry.cookies.filter (s.now < ·.expiresAt) } })
  | none => (s.drawn, { s with
      jars := s.jars.insert s.drawn ⟨account, sessionId, []⟩
      marketCookies := s.marketCookies.insert account s.drawn
      drawn := s.drawn + 1 })

def cookiesIn (s : WebSessions) (jar : ℕ) : List MarketCookie :=
  ((s.jars.lookup jar).map CookieJar.cookies).getD []

def fetch (s : WebSessions) (id : ℕ) (call : CommunityCall) (grant : Grant) (jar startedAt : ℕ)
    (current : Url) (hop : ℕ) : WebSessions :=
  { s with
    calls := s.calls.await id { call with phase := .fetching grant jar startedAt current hop }
    sent := ⟨id, call.account, call.method, current, grant, s.cookiesIn jar, startedAt⟩ :: s.sent }

/-- A call that has its session goes on, unless its batch has been stopped. -/
def proceed (s : WebSessions) (id : ℕ) (continues : Bool) : Option WebSessions := do
  let call ← s.calls.waiting.lookup id
  match call.phase with
  | .granted grant =>
    if continues then
      let (jar, s) := s.marketCookiesFor call.account grant.cached.session.sessionId
      some (s.fetch id call grant jar s.now call.target 0)
    else some { s with calls := s.calls.finish id }
  | _ => none

def remember (s : WebSessions) (id jar : ℕ) (headers : List (List Char)) : WebSessions :=
  match s.jars.lookup jar with
  | none => s
  | some entry =>
    let cookies := rememberMarketCookies s.now entry.cookies headers
    { s with
      jars := s.jars.insert jar { entry with cookies }
      given := (cookies.filter (· ∉ entry.cookies)).map
        (⟨id, entry.account, entry.sessionId, ·⟩) ++ s.given }

/-- The answer to a hop, after its body has been cancelled when it is a redirect. -/
def respond (s : WebSessions) (id : ℕ) (status : ℕ) (location : Option Url)
    (setCookie : List (List Char)) : Option WebSessions := do
  let call ← s.calls.waiting.lookup id
  match call.phase with
  | .fetching grant jar startedAt current hop =>
    if 300 ≤ status ∧ status < 400 then
      let s := s.remember id jar setCookie
      match communityRedirect location current call.method hop with
      | some next => some (s.fetch id call grant jar startedAt next (hop + 1))
      | none => some (({ s with calls := s.calls.finish id } : WebSessions).discard call.account
          grant.cached.session.sessionId)
    else some { s with calls := s.calls.finish id }
  | _ => none

end WebSessions

/-- The events of the workers and of their timers, and the steps of the requests. -/
inductive WebAction where
  | connection (account : Uuid) (steamId : Option String) (connected : Bool)
  | webSession (account : Uuid) (sessionId : List Char) (cookies : List (List Char))
  | timeout (account : Uuid)
  | invalidate (account : Uuid)
  | request (account : Uuid) (path : String) (method : Method)
  | located (id : ℕ) (found throws : Bool)
  | proceed (id : ℕ) (continues : Bool)
  | respond (id : ℕ) (status : ℕ) (location : Option Url) (setCookie : List (List Char))
  | failed (id : ℕ)
  | tick (elapsed : ℕ)
  deriving DecidableEq, Repr

open WebSessions in
def webMachine (parse : String → Option Url) : Transition.Machine WebSessions WebAction where
  Starts s := s.brokers = ∅ ∧ s.marketCookies = ∅ ∧ s.jars = ∅ ∧ s.calls = .empty ∧
    s.accepted = [] ∧ s.endings = [] ∧ s.given = [] ∧ s.sent = []
  next s
    | .connection account steamId connected =>
      some (s.setBroker account { s.broker account with steamId, connected })
    | .webSession account sessionId cookies => some (s.accept account sessionId cookies)
    | .timeout account =>
      if (s.broker account).pending.any (· ≤ s.now) then some (s.invalidate account) else none
    | .invalidate account => some (s.invalidate account)
    | .request account path method => s.request parse account path method
    | .located id found throws => do
      let call ← s.calls.waiting.lookup id
      if call.phase = .locating then
        some (if found then s.get id call throws else { s with calls := s.calls.finish id })
      else none
    | .proceed id continues => s.proceed id continues
    | .respond id status location setCookie => s.respond id status location setCookie
    | .failed id => do
      let call ← s.calls.waiting.lookup id
      if call.phase matches .fetching .. then some { s with calls := s.calls.finish id } else none
    | .tick elapsed => some { s with now := s.now + elapsed }

end SteamBee.Steam
