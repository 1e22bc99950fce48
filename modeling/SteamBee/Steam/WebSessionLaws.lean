import SteamBee.Steam.WebSessions

/-! Credentials stay with their connection: a request carries a session that its account's
connection has been given and that nothing has ended, to Steam and to nobody else. -/
namespace SteamBee.Steam
open Transition (Calls)

/-! ## Cookies -/

theorem name_of_mem_rememberCookie {now : ℕ} {cookies : List MarketCookie} {header : List Char}
    {c : MarketCookie} (h : c ∈ rememberCookie now cookies header) : c ∈ cookies ∨
      c.name ∈ marketCookieNames ∧ c.pair.any isLineBreak = false ∧ now < c.expiresAt := by
  unfold rememberCookie at h
  dsimp only at h
  split_ifs at h with hskip hzero
  · exact .inl h
  · exact .inl (List.mem_of_mem_filter h)
  obtain ⟨hname, hclean⟩ := not_or.mp hskip
  have hpair : (Text.trim (pairOf header)).any isLineBreak = false := by
    obtain ⟨before, after, hall, -, -⟩ := Text.exists_trim (pairOf header)
    rw [Bool.not_eq_true, hall, List.any_append, List.any_append, Bool.or_eq_false_iff,
      Bool.or_eq_false_iff] at hclean
    exact hclean.1.2
  have hlater : ∀ seconds : ℕ, seconds ≠ 0 → now < now + seconds * 1000 := by omega
  rcases List.mem_upsert h with ⟨h, -⟩ | ⟨-, -, -, rfl⟩ | ⟨-, rfl⟩
  · exact .inl h
  · exact .inr ⟨not_not.mp hname, hpair, hlater _ hzero⟩
  · exact .inr ⟨not_not.mp hname, hpair, hlater _ hzero⟩

/-- A cookie that an answer has added is a market cookie that lasts. -/
theorem name_of_mem_rememberMarketCookies {now : ℕ} {headers : List (List Char)}
    {cookies : List MarketCookie} {c : MarketCookie}
    (h : c ∈ rememberMarketCookies now cookies headers) : c ∈ cookies ∨
      c.name ∈ marketCookieNames ∧ c.pair.any isLineBreak = false ∧ now < c.expiresAt := by
  induction headers generalizing cookies with
  | nil => exact .inl h
  | cons header headers ih =>
    rcases ih h with h | h
    · exact name_of_mem_rememberCookie h
    · exact .inr h

/-! ## What the records say -/

structure Accepted (s : WebSessions) (account : Uuid) (cached : CachedSession) : Prop where
  record : ⟨account, some cached.session.steamId, cached⟩ ∈ s.accepted
  text : isAcceptable cached.session.sessionId cached.session.cookies = true
  createdAt : cached.createdAt ≤ s.now
  stamp : cached.stamp < s.stamp

def SessionEnding.Ends (e : SessionEnding) (account : Uuid) (cached : CachedSession) : Prop :=
  e.account = account ∧ (e.sessionId = none ∨ e.sessionId = some cached.session.sessionId)

/-- A session that nothing had ended when it was handed out. -/
structure Granted (s : WebSessions) (account : Uuid) (grant : Grant) : Prop where
  accepted : Accepted s account grant.cached
  connection : grant.connection = some grant.cached.session.steamId
  fresh : grant.time < grant.cached.createdAt + sessionTtl
  unended : ∀ e ∈ s.endings, e.Ends account grant.cached →
    e.stamp < grant.cached.stamp ∨ grant.stamp ≤ e.stamp
  stamp : grant.stamp ≤ s.stamp

/-- A cookie that an answer to a request with the session has set. -/
structure Given (s : WebSessions) (account : Uuid) (sessionId : List Char) (c : MarketCookie) :
    Prop where
  name : c.name ∈ marketCookieNames
  text : c.pair.any isLineBreak = false
  record : ∃ g ∈ s.given, g.account = account ∧ g.sessionId = sessionId ∧ g.cookie = c

def Url.IsCommunity (url : Url) : Prop :=
  url.origin = communityOrigin ∧ url.username = "" ∧ url.password = ""

structure SentRequest.Lawful (s : WebSessions) (r : SentRequest) : Prop where
  url : r.url.IsCommunity
  granted : Granted s r.account r.grant
  extraCookies : ∀ c ∈ r.extraCookies,
    Given s r.account r.grant.cached.session.sessionId c ∧ r.startedAt < c.expiresAt

namespace WebSessions

def sentBy (s : WebSessions) (id : ℕ) : ℕ := (s.sent.filter fun r => r.call = id).length

/-- What the records of `s` say still holds in `t`. -/
structure Grows (s t : WebSessions) : Prop where
  accepted : s.accepted ⊆ t.accepted
  endings : ∀ e ∈ t.endings, e ∈ s.endings ∨ s.stamp ≤ e.stamp
  given : s.given ⊆ t.given
  stamp : s.stamp ≤ t.stamp
  now : s.now ≤ t.now

variable {s t u : WebSessions} {account : Uuid} {id jar : ℕ} {call : CommunityCall}
  {cached : CachedSession} {grant : Grant}

theorem Grows.trans (h : Grows s t) (h' : Grows t u) : Grows s u where
  accepted := List.Subset.trans h.accepted h'.accepted
  endings e he := by
    rcases h'.endings e he with he | hstamp
    · exact h.endings e he
    · exact .inr (h.stamp.trans hstamp)
  given := List.Subset.trans h.given h'.given
  stamp := h.stamp.trans h'.stamp
  now := h.now.trans h'.now

end WebSessions

open WebSessions

variable {s t u : WebSessions} {account : Uuid} {id jar : ℕ} {call : CommunityCall}
  {cached : CachedSession} {grant : Grant} {sessionId : List Char} {c : MarketCookie}

theorem Accepted.grows (h : Accepted s account cached) (hst : Grows s t) :
    Accepted t account cached :=
  ⟨hst.accepted h.record, h.text, h.createdAt.trans hst.now, h.stamp.trans_le hst.stamp⟩

theorem Granted.grows (h : Granted s account grant) (hst : Grows s t) :
    Granted t account grant where
  accepted := h.accepted.grows hst
  connection := h.connection
  fresh := h.fresh
  unended e he hends := by
    rcases hst.endings e he with he | hstamp
    · exact h.unended e he hends
    · exact .inr (h.stamp.trans hstamp)
  stamp := h.stamp.trans hst.stamp

theorem Given.grows (h : Given s account sessionId c) (hst : Grows s t) :
    Given t account sessionId c := by
  obtain ⟨g, hg, hrest⟩ := h.record
  exact ⟨h.name, h.text, g, hst.given hg, hrest⟩

theorem SentRequest.Lawful.grows {r : SentRequest} (h : r.Lawful s) (hst : Grows s t) :
    r.Lawful t where
  url := h.url
  granted := h.granted.grows hst
  extraCookies c hc := ⟨(h.extraCookies c hc).1.grows hst, (h.extraCookies c hc).2⟩

/-! ## What holds in every state -/

/-- A cached session stands: what ends it came before it. -/
structure Standing (s : WebSessions) (account : Uuid) (cached : CachedSession) : Prop where
  accepted : Accepted s account cached
  unended : ∀ e ∈ s.endings, e.Ends account cached → e.stamp < cached.stamp

/-- A call that waits is answered when the timer of its broker is due, at the latest. -/
def Awaited (s : WebSessions) (account : Uuid) (since : ℕ) : Prop :=
  ∃ deadline, (s.broker account).pending = some deadline ∧ deadline ≤ since + sessionTimeout

/-- A jar of the call, whose cookies last at least from the start of the call on. -/
structure Jarred (s : WebSessions) (account : Uuid) (sessionId : List Char) (jar startedAt : ℕ) :
    Prop where
  entry : ∃ entry, s.jars.lookup jar = some entry ∧ entry.account = account ∧
    entry.sessionId = sessionId ∧ ∀ c ∈ entry.cookies, startedAt < c.expiresAt
  startedAt : startedAt ≤ s.now

structure Underway (s : WebSessions) (id : ℕ) (call : CommunityCall) (grant : Grant)
    (jar startedAt : ℕ) (current : Url) (hop : ℕ) : Prop where
  granted : Granted s call.account grant
  carries : Jarred s call.account grant.cached.session.sessionId jar startedAt
  url : current.IsCommunity
  sentBy : s.sentBy id = hop + 1
  bounded : hop ≤ maxRedirects
  post : call.method = .post → hop = 0
  sent : ∃ r ∈ s.sent, r.call = id ∧ r.account = call.account ∧ r.grant = grant
  method : ∀ r ∈ s.sent, r.call = id → r.method = call.method

def CallPhase.Lawful (s : WebSessions) (id : ℕ) (call : CommunityCall) : CallPhase → Prop
  | .locating => s.sentBy id = 0
  | .awaiting since => s.sentBy id = 0 ∧ Awaited s call.account since
  | .granted grant => s.sentBy id = 0 ∧ Granted s call.account grant
  | .fetching grant jar startedAt current hop => Underway s id call grant jar startedAt current hop

structure WebSessions.Lawful (s : WebSessions) : Prop where
  cached : ∀ account cached, (s.broker account).cached = some cached → Standing s account cached
  pending : ∀ account deadline, (s.broker account).pending = some deadline →
    deadline ≤ s.now + sessionTimeout
  endings : ∀ e ∈ s.endings, e.stamp < s.stamp
  jars : ∀ jar entry, s.jars.lookup jar = some entry → jar < s.drawn ∧
    ∀ c ∈ entry.cookies, Given s entry.account entry.sessionId c
  market : ∀ account jar, s.marketCookies.lookup account = some jar → jar < s.drawn ∧
    ∀ entry, s.jars.lookup jar = some entry → entry.account = account
  calls : ∀ id call, s.calls.waiting.lookup id = some call → id < s.calls.drawn ∧
    call.target.IsCommunity ∧ call.phase.Lawful s id call
  drawn : ∀ r ∈ s.sent, r.call < s.calls.drawn
  sent : ∀ r ∈ s.sent, r.Lawful s
  given : ∀ g ∈ s.given, ∃ r ∈ s.sent, r.call = g.call ∧ r.account = g.account ∧
    r.grant.cached.session.sessionId = g.sessionId
  limits : ∀ id, s.sentBy id ≤ maxRedirects + 1
  posts : ∀ r ∈ s.sent, r.method = .post → s.sentBy r.call = 1

/-! ## Steps that send nothing -/

/-- A step that leaves the requests that were sent and the jars alone. -/
structure Calm (s t : WebSessions) : Prop extends Grows s t where
  sent : t.sent = s.sent
  given_eq : t.given = s.given
  jars : t.jars = s.jars
  market : t.marketCookies = s.marketCookies
  drawn : t.drawn = s.drawn


theorem Calm.trans (h : Calm s t) (h' : Calm t u) : Calm s u :=
  ⟨h.toGrows.trans h'.toGrows, h'.sent.trans h.sent, h'.given_eq.trans h.given_eq,
    h'.jars.trans h.jars, h'.market.trans h.market, h'.drawn.trans h.drawn⟩

theorem Calm.sentBy (h : Calm s t) (id : ℕ) : t.sentBy id = s.sentBy id := by
  unfold WebSessions.sentBy
  rw [h.sent]

theorem Jarred.calm {startedAt : ℕ} (h : Jarred s account sessionId jar startedAt)
    (hc : Calm s t) : Jarred t account sessionId jar startedAt where
  entry := by
    rw [hc.jars]
    exact h.entry
  startedAt := h.startedAt.trans hc.now

theorem Standing.grows (h : Standing s account cached) (hst : Grows s t)
    (hends : ∀ e ∈ t.endings, e.Ends account cached → e ∈ s.endings) :
    Standing t account cached :=
  ⟨h.accepted.grows hst, fun e he hend => h.unended e (hends e he hend) hend⟩

/-- A session that stands is handed out. -/
theorem Standing.granted (h : Standing s account cached)
    (hfresh : s.now < cached.createdAt + sessionTtl) :
    Granted s account ⟨cached, some cached.session.steamId, s.now, s.stamp⟩ where
  accepted := h.accepted
  connection := rfl
  fresh := hfresh
  unended e he hends := .inl (h.unended e he hends)
  stamp := le_rfl

theorem CallPhase.Lawful.calm {phase : CallPhase} (h : phase.Lawful s id call) (hc : Calm s t)
    (hawaited : ∀ since, phase = .awaiting since →
      Awaited s call.account since → Awaited t call.account since) :
    phase.Lawful t id call := by
  cases phase with
  | locating => exact (hc.sentBy id).trans h
  | awaiting since => exact ⟨(hc.sentBy id).trans h.1, hawaited since rfl h.2⟩
  | granted grant => exact ⟨(hc.sentBy id).trans h.1, h.2.grows hc.toGrows⟩
  | fetching grant jar startedAt current hop =>
    exact {
      granted := h.granted.grows hc.toGrows
      carries := h.carries.calm hc
      url := h.url
      sentBy := (hc.sentBy id).trans h.sentBy
      bounded := h.bounded
      post := h.post
      sent := by
        rw [hc.sent]
        exact h.sent
      method := by
        rw [hc.sent]
        exact h.method }

namespace WebSessions

theorem Lawful.calm (h : s.Lawful) (hc : Calm s t)
    (hcached : ∀ account cached, (t.broker account).cached = some cached →
      Standing t account cached)
    (hpending : ∀ account deadline, (t.broker account).pending = some deadline →
      deadline ≤ t.now + sessionTimeout)
    (hendings : ∀ e ∈ t.endings, e.stamp < t.stamp)
    (hdrawn : s.calls.drawn ≤ t.calls.drawn)
    (hcalls : ∀ id call, t.calls.waiting.lookup id = some call → id < t.calls.drawn ∧
      call.target.IsCommunity ∧ call.phase.Lawful t id call) : t.Lawful where
  cached := hcached
  pending := hpending
  endings := hendings
  jars jar entry hentry := by
    rw [hc.jars] at hentry
    obtain ⟨hlt, hgiven⟩ := h.jars jar entry hentry
    rw [hc.drawn]
    exact ⟨hlt, fun c hmem => (hgiven c hmem).grows hc.toGrows⟩
  market := by
    rw [hc.jars, hc.market, hc.drawn]
    exact h.market
  calls := hcalls
  drawn r hr := by
    rw [hc.sent] at hr
    exact (h.drawn r hr).trans_le hdrawn
  sent r hr := by
    rw [hc.sent] at hr
    exact (h.sent r hr).grows hc.toGrows
  given g hg := by
    rw [hc.given_eq] at hg
    rw [hc.sent]
    exact h.given g hg
  limits id := by
    rw [hc.sentBy]
    exact h.limits id
  posts r hr hpost := by
    rw [hc.sent] at hr
    rw [hc.sentBy]
    exact h.posts r hr hpost

@[simp] theorem broker_setBroker (s : WebSessions) (account account' : Uuid)
    (broker : SessionBroker) : (s.setBroker account broker).broker account' =
      if account' = account then broker else s.broker account' := by
  unfold WebSessions.broker setBroker
  dsimp only
  rw [Table.lookup_insert_eq]
  split_ifs <;> rfl

theorem calm_setBroker (s : WebSessions) (account : Uuid) (broker : SessionBroker) :
    Calm s (s.setBroker account broker) := ⟨⟨fun _ h => h, fun _ h => .inl h, fun _ h => h, le_rfl,
    le_rfl⟩, rfl, rfl, rfl, rfl, rfl⟩

theorem calm_calls (s : WebSessions) (calls : Calls CommunityCall) : Calm s { s with calls } :=
  ⟨⟨fun _ h => h, fun _ h => .inl h, fun _ h => h, le_rfl, le_rfl⟩, rfl, rfl, rfl, rfl, rfl⟩

theorem Lawful.withCalls (h : s.Lawful) (calls : Calls CommunityCall)
    (hdrawn : s.calls.drawn ≤ calls.drawn)
    (hcalls : ∀ id call, calls.waiting.lookup id = some call → id < calls.drawn ∧
      call.target.IsCommunity ∧ call.phase.Lawful s id call) :
    ({ s with calls } : WebSessions).Lawful := by
  have hc := calm_calls s calls
  refine h.calm hc (fun account cached hcached => ?_) h.pending h.endings hdrawn
    fun id call hcall => ?_
  · exact (h.cached account cached hcached).grows hc.toGrows fun _ he _ => he
  · obtain ⟨hid, htarget, hphase⟩ := hcalls id call hcall
    exact ⟨hid, htarget, hphase.calm hc fun _ _ h => h⟩

/-- A call ends. -/
theorem Lawful.finish (h : s.Lawful) (id : ℕ) :
    ({ s with calls := s.calls.finish id } : WebSessions).Lawful := by
  refine h.withCalls (s.calls.finish id) le_rfl fun id' call hcall => ?_
  rw [Calls.lookup_finish] at hcall
  split_ifs at hcall
  exact h.calls id' call hcall

/-- A call goes on to wait for something else. -/
theorem Lawful.await (h : s.Lawful) (hid : id < s.calls.drawn) (hcall : call.target.IsCommunity)
    (hphase : call.phase.Lawful s id call) :
    ({ s with calls := s.calls.await id call } : WebSessions).Lawful := by
  refine h.withCalls (s.calls.await id call) le_rfl fun id' call' hcall' => ?_
  rw [Calls.lookup_await] at hcall'
  split_ifs at hcall' with heq
  · obtain rfl := Option.some.inj hcall'
    subst heq
    exact ⟨hid, hcall, hphase⟩
  · exact h.calls id' call' hcall'

theorem Lawful.tick (h : s.Lawful) (elapsed : ℕ) :
    ({ s with now := s.now + elapsed } : WebSessions).Lawful := by
  have hc : Calm s { s with now := s.now + elapsed } :=
    ⟨⟨fun _ h => h, fun _ h => .inl h, fun _ h => h, le_rfl, Nat.le_add_right _ _⟩, rfl, rfl, rfl,
      rfl, rfl⟩
  refine h.calm hc (fun account cached hcached => ?_) (fun account deadline hdeadline => ?_)
    h.endings le_rfl fun id call hcall => ?_
  · exact (h.cached account cached hcached).grows hc.toGrows fun _ he _ => he
  · exact (h.pending account deadline hdeadline).trans (Nat.add_le_add_right hc.now _)
  · obtain ⟨hid, htarget, hphase⟩ := h.calls id call hcall
    exact ⟨hid, htarget, hphase.calm hc fun _ _ h => h⟩

theorem Lawful.connection (h : s.Lawful) (account : Uuid) (steamId : Option String)
    (connected : Bool) :
    (s.setBroker account { s.broker account with steamId, connected }).Lawful := by
  have hc := calm_setBroker s account { s.broker account with steamId, connected }
  have hsame : ∀ account', ((s.setBroker account { s.broker account with
      steamId, connected }).broker account').cached = (s.broker account').cached ∧
      ((s.setBroker account { s.broker account with
        steamId, connected }).broker account').pending = (s.broker account').pending := by
    intro account'
    rw [broker_setBroker]
    split_ifs with heq
    · subst heq
      exact ⟨rfl, rfl⟩
    · exact ⟨rfl, rfl⟩
  refine h.calm hc (fun account' cached hcached => ?_) (fun account' deadline hdeadline => ?_)
    h.endings le_rfl fun id call hcall => ?_
  · rw [(hsame account').1] at hcached
    exact (h.cached account' cached hcached).grows hc.toGrows fun _ he _ => he
  · rw [(hsame account').2] at hdeadline
    exact h.pending account' deadline hdeadline
  · obtain ⟨hid, htarget, hphase⟩ := h.calls id call hcall
    refine ⟨hid, htarget, hphase.calm hc fun since _ hawaited => ?_⟩
    unfold Awaited
    rw [(hsame call.account).2]
    exact hawaited

/-! ## The broker -/

theorem waits_iff : call.waits account = true ↔
    call.account = account ∧ ∃ since, call.phase = .awaiting since := by
  unfold CommunityCall.waits
  cases call.phase <;> simp

theorem lookup_settle_none
    (h : (s.settle account none).calls.waiting.lookup id = some call) :
    s.calls.waiting.lookup id = some call ∧ call.waits account = false := by
  obtain ⟨hcall, hwaits⟩ := Table.lookup_of_retain h
  exact ⟨hcall, (Bool.not_eq_true' _).mp hwaits⟩

theorem lookup_settle_some
    (h : (s.settle account (some cached)).calls.waiting.lookup id = some call) :
    ∃ earlier, s.calls.waiting.lookup id = some earlier ∧
      (earlier.waits account = false ∧ call = earlier ∨
        earlier.waits account = true ∧ call = { earlier with
          phase := .granted ⟨cached, (s.broker account).connection, s.now, s.stamp⟩ }) := by
  obtain ⟨earlier, hearlier, hcall⟩ := Option.map_eq_some_iff.mp
    ((Table.lookup_update _ s.calls.waiting id).symm.trans h)
  refine ⟨earlier, hearlier, ?_⟩
  split_ifs at hcall with hwaits
  · exact .inr ⟨hwaits, hcall.symm⟩
  · exact .inl ⟨Bool.of_not_eq_true hwaits, hcall.symm⟩

/-- A call of the account waits only while its broker has a timer. -/
theorem Lawful.pending_of_waits (h : s.Lawful) (hcall : s.calls.waiting.lookup id = some call)
    (hwaits : call.waits account = true) : (s.broker account).pending.isSome = true := by
  obtain ⟨rfl, since, hphase⟩ := waits_iff.mp hwaits
  obtain ⟨-, -, hlawful⟩ := h.calls id call hcall
  rw [hphase] at hlawful
  obtain ⟨-, deadline, hpending, -⟩ := hlawful
  rw [hpending]
  rfl

theorem mem_endings_cons {ending : SessionEnding} (hstamp : ending.stamp = s.stamp) :
    ∀ e ∈ ending :: s.endings, e ∈ s.endings ∨ s.stamp ≤ e.stamp := by
  intro e he
  rcases List.mem_cons.mp he with rfl | he
  · exact .inr hstamp.ge
  · exact .inl he

theorem Lawful.endings_cons (h : s.Lawful) {ending : SessionEnding}
    (hstamp : ending.stamp = s.stamp) (hendings : t.endings = ending :: s.endings)
    (hnext : t.stamp = s.stamp + 1) : ∀ e ∈ t.endings, e.stamp < t.stamp := by
  rw [hendings, hnext]
  intro e he
  rcases List.mem_cons.mp he with rfl | he
  · exact hstamp.le.trans_lt (Nat.lt_succ_self _)
  · exact (h.endings e he).trans (Nat.lt_succ_self _)

theorem calm_invalidate (s : WebSessions) (account : Uuid) : Calm s (s.invalidate account) := by
  unfold WebSessions.invalidate
  dsimp only
  split_ifs <;>
    exact ⟨⟨fun _ h => h, mem_endings_cons rfl, fun _ h => h, Nat.le_succ _, le_rfl⟩,
      rfl, rfl, rfl, rfl, rfl⟩

theorem broker_invalidate (s : WebSessions) (account account' : Uuid) :
    (s.invalidate account).broker account' = if account' = account then
      { s.broker account with cached := none, pending := none } else s.broker account' := by
  rw [← broker_setBroker]
  unfold WebSessions.invalidate
  dsimp only
  split_ifs <;> rfl

theorem Lawful.lookup_invalidate (h : s.Lawful)
    (hcall : (s.invalidate account).calls.waiting.lookup id = some call) :
    s.calls.waiting.lookup id = some call ∧ call.waits account = false := by
  unfold WebSessions.invalidate at hcall
  dsimp only at hcall
  split_ifs at hcall with hpending
  · exact lookup_settle_none hcall
  · exact ⟨hcall, Bool.of_not_eq_true fun hwaits => hpending (h.pending_of_waits hcall hwaits)⟩

theorem endings_invalidate (s : WebSessions) (account : Uuid) :
    (s.invalidate account).endings = ⟨account, none, s.stamp⟩ :: s.endings ∧
      (s.invalidate account).stamp = s.stamp + 1 ∧
      (s.invalidate account).calls.drawn = s.calls.drawn := by
  unfold WebSessions.invalidate
  dsimp only
  split_ifs <;> exact ⟨rfl, rfl, rfl⟩

theorem now_invalidate (s : WebSessions) (account : Uuid) :
    (s.invalidate account).now = s.now := by
  unfold WebSessions.invalidate
  dsimp only
  split_ifs <;> rfl

theorem Lawful.invalidate (h : s.Lawful) (account : Uuid) : (s.invalidate account).Lawful := by
  have hc := calm_invalidate s account
  obtain ⟨hendings, hstamp, hdrawn⟩ := endings_invalidate s account
  refine h.calm hc (fun account' cached hcached => ?_) (fun account' deadline hdeadline => ?_)
    (h.endings_cons rfl hendings hstamp) hdrawn.ge fun id call hcall => ?_
  · rw [broker_invalidate] at hcached
    split_ifs at hcached with heq
    refine (h.cached account' cached hcached).grows hc.toGrows fun e he hends => ?_
    rw [hendings] at he
    rcases List.mem_cons.mp he with rfl | he
    · exact absurd hends.1.symm heq
    · exact he
  · rw [broker_invalidate] at hdeadline
    rw [now_invalidate]
    split_ifs at hdeadline
    exact h.pending account' deadline hdeadline
  · obtain ⟨hearlier, hwaits⟩ := h.lookup_invalidate hcall
    obtain ⟨hid, htarget, hphase⟩ := h.calls id call hearlier
    refine ⟨hdrawn.symm ▸ hid, htarget, hphase.calm hc fun since hawaiting hawaited => ?_⟩
    have hne : call.account ≠ account := fun heq =>
      Bool.eq_false_iff.mp hwaits (waits_iff.mpr ⟨heq, since, hawaiting⟩)
    unfold Awaited
    rw [broker_invalidate, if_neg hne]
    exact hawaited

theorem calm_discard (s : WebSessions) (account : Uuid) (sessionId : List Char) :
    Calm s (s.discard account sessionId) := by
  unfold WebSessions.discard
  dsimp only
  split_ifs <;>
    exact ⟨⟨fun _ h => h, mem_endings_cons rfl, fun _ h => h, Nat.le_succ _, le_rfl⟩,
      rfl, rfl, rfl, rfl, rfl⟩

theorem endings_discard (s : WebSessions) (account : Uuid) (sessionId : List Char) :
    (s.discard account sessionId).endings = ⟨account, some sessionId, s.stamp⟩ :: s.endings ∧
      (s.discard account sessionId).stamp = s.stamp + 1 ∧
      (s.discard account sessionId).calls = s.calls := by
  unfold WebSessions.discard
  dsimp only
  split_ifs <;> exact ⟨rfl, rfl, rfl⟩

/-- A session that stays cached is another one. -/
theorem broker_discard (s : WebSessions) (account account' : Uuid) (sessionId : List Char) :
    ((s.discard account sessionId).broker account').pending = (s.broker account').pending ∧
      ∀ cached, ((s.discard account sessionId).broker account').cached = some cached →
        (s.broker account').cached = some cached ∧
          (account' = account → cached.session.sessionId ≠ sessionId) := by
  unfold WebSessions.discard
  dsimp only
  split_ifs with hmatch
  · rw [broker_setBroker]
    split_ifs with heq
    · subst heq
      exact ⟨rfl, fun _ h => (nomatch h)⟩
    · exact ⟨rfl, fun _ h => ⟨h, fun h => absurd h heq⟩⟩
  · refine ⟨rfl, fun cached hcached => ⟨hcached, ?_⟩⟩
    rintro rfl hsame
    have hcached : (s.broker account').cached = some cached := hcached
    rw [hcached] at hmatch
    exact hmatch (by simpa using hsame)

theorem Lawful.discard (h : s.Lawful) (account : Uuid) (sessionId : List Char) :
    (s.discard account sessionId).Lawful := by
  have hc := calm_discard s account sessionId
  obtain ⟨hendings, hstamp, hcalls⟩ := endings_discard s account sessionId
  refine h.calm hc (fun account' cached hcached => ?_) (fun account' deadline hdeadline => ?_)
    (h.endings_cons rfl hendings hstamp) (by rw [hcalls]) fun id call hcall => ?_
  · obtain ⟨hcached, hother⟩ := (broker_discard s account account' sessionId).2 cached hcached
    refine (h.cached account' cached hcached).grows hc.toGrows fun e he hends => ?_
    rw [hendings] at he
    rcases List.mem_cons.mp he with rfl | he
    · obtain ⟨haccount, hsession | hsession⟩ := hends
      · cases hsession
      · exact absurd (Option.some.inj hsession).symm (hother haccount.symm)
    · exact he
  · rw [(broker_discard s account account' sessionId).1] at hdeadline
    exact (h.pending account' deadline hdeadline).trans (Nat.add_le_add_right hc.now _)
  · rw [hcalls] at hcall ⊢
    obtain ⟨hid, htarget, hphase⟩ := h.calls id call hcall
    refine ⟨hid, htarget, hphase.calm hc fun since _ hawaited => ?_⟩
    unfold Awaited
    rw [(broker_discard s account call.account sessionId).1]
    exact hawaited

structure Accepts (s t : WebSessions) (account : Uuid) (cached : CachedSession) : Prop
    extends Calm s t where
  broker : ∀ account', t.broker account' = if account' = account then
    { s.broker account with cached := some cached, pending := none } else s.broker account'
  connection : (s.broker account).connection = some cached.session.steamId
  record : t.accepted = ⟨account, some cached.session.steamId, cached⟩ :: s.accepted
  text : isAcceptable cached.session.sessionId cached.session.cookies = true
  createdAt : cached.createdAt = s.now
  stamp_eq : cached.stamp = s.stamp
  next : t.stamp = s.stamp + 1
  now_eq : t.now = s.now
  endings_eq : t.endings = s.endings
  drawn_eq : t.calls.drawn = s.calls.drawn
  calls : ∀ id call, t.calls.waiting.lookup id = some call →
    s.calls.waiting.lookup id = some call ∧
      ((s.broker account).pending.isSome = true → call.waits account = false) ∨
    ∃ earlier, s.calls.waiting.lookup id = some earlier ∧ earlier.waits account = true ∧
      call = { earlier with
        phase := .granted ⟨cached, some cached.session.steamId, t.now, t.stamp⟩ }

theorem accept_cases (s : WebSessions) (account : Uuid) (sessionId : List Char)
    (cookies : List (List Char)) : s.accept account sessionId cookies = s ∨
      ∃ cached, Accepts s (s.accept account sessionId cookies) account cached := by
  unfold WebSessions.accept
  dsimp only
  cases hconnection : (s.broker account).connection with
  | none => exact .inl rfl
  | some steamId =>
    dsimp only
    by_cases htext : isAcceptable sessionId (cookies.map pairOf) = true
    · rw [if_pos htext]
      refine .inr ⟨⟨⟨steamId, sessionId, cookies.map pairOf⟩, s.now, s.stamp⟩, ?_⟩
      have hrecord : s.accepted ⊆ ⟨account, some steamId,
          ⟨⟨steamId, sessionId, cookies.map pairOf⟩, s.now, s.stamp⟩⟩ :: s.accepted :=
        List.subset_cons_self _ _
      by_cases hpending : (s.broker account).pending.isSome = true
      · rw [if_pos hpending]
        refine ⟨⟨⟨hrecord, fun _ h => .inl h, fun _ h => h, Nat.le_succ _, le_rfl⟩, rfl, rfl, rfl,
          rfl, rfl⟩, fun account' => broker_setBroker s account account' _, hconnection, rfl,
          htext, rfl, rfl, rfl, rfl, rfl, rfl, fun id call hcall => ?_⟩
        obtain ⟨earlier, hearlier, ⟨hwaits, rfl⟩ | ⟨hwaits, rfl⟩⟩ := lookup_settle_some hcall
        · exact .inl ⟨hearlier, fun _ => hwaits⟩
        · have hsame : ((s.setBroker account { s.broker account with
              cached := some ⟨⟨steamId, sessionId, cookies.map pairOf⟩, s.now, s.stamp⟩
              pending := none }).broker account).connection = some steamId := by
            rw [broker_setBroker, if_pos rfl]
            exact hconnection
          refine .inr ⟨earlier, hearlier, hwaits, ?_⟩
          exact congrArg (fun connection : Option String => ({ earlier with
            phase := .granted ⟨⟨⟨steamId, sessionId, cookies.map pairOf⟩, s.now, s.stamp⟩,
              connection, s.now, s.stamp + 1⟩ } : CommunityCall)) hsame
      · rw [if_neg hpending]
        exact ⟨⟨⟨hrecord, fun _ h => .inl h, fun _ h => h, Nat.le_succ _, le_rfl⟩, rfl, rfl, rfl,
          rfl, rfl⟩, fun account' => broker_setBroker s account account' _, hconnection, rfl,
          htext, rfl, rfl, rfl, rfl, rfl, rfl,
          fun id call hcall => .inl ⟨hcall, fun h => absurd h hpending⟩⟩
    · rw [if_neg htext]
      exact .inl rfl

theorem Accepts.standing (h : Accepts s t account cached) (hs : s.Lawful) :
    Standing t account cached where
  accepted :=
    { record := by
        rw [h.record]
        exact List.mem_cons_self
      text := h.text
      createdAt := by
        rw [h.createdAt, h.now_eq]
      stamp := by
        rw [h.stamp_eq, h.next]
        exact Nat.lt_succ_self _ }
  unended e he _ := by
    rw [h.endings_eq] at he
    rw [h.stamp_eq]
    exact hs.endings e he

theorem Lawful.accept (h : s.Lawful) (account : Uuid) (sessionId : List Char)
    (cookies : List (List Char)) : (s.accept account sessionId cookies).Lawful := by
  rcases accept_cases s account sessionId cookies with hsame | ⟨cached, hc⟩
  · rw [hsame]
    exact h
  have hstanding := hc.standing h
  refine h.calm hc.toCalm (fun account' cached' hcached => ?_)
    (fun account' deadline hdeadline => ?_) (fun e he => ?_) hc.drawn_eq.ge fun id call hcall => ?_
  · rw [hc.broker] at hcached
    split_ifs at hcached with heq
    · obtain rfl := Option.some.inj hcached
      rw [heq]
      exact hstanding
    · refine (h.cached account' cached' hcached).grows hc.toGrows fun e he _ => ?_
      rw [hc.endings_eq] at he
      exact he
  · rw [hc.broker] at hdeadline
    rw [hc.now_eq]
    split_ifs at hdeadline
    exact h.pending account' deadline hdeadline
  · rw [hc.endings_eq] at he
    rw [hc.next]
    exact (h.endings e he).trans (Nat.lt_succ_self _)
  · rw [hc.drawn_eq]
    rcases hc.calls id call hcall with ⟨hearlier, hwaits⟩ | ⟨earlier, hearlier, hwaits, rfl⟩
    · obtain ⟨hid, htarget, hphase⟩ := h.calls id call hearlier
      refine ⟨hid, htarget, hphase.calm hc.toCalm fun since hawaiting hawaited => ?_⟩
      have hne : call.account ≠ account := by
        intro heq
        have hwait := waits_iff.mpr ⟨heq, since, hawaiting⟩
        rw [hwaits (h.pending_of_waits hearlier hwait)] at hwait
        cases hwait
      unfold Awaited
      rw [hc.broker, if_neg hne]
      exact hawaited
    · obtain ⟨hid, htarget, hphase⟩ := h.calls id earlier hearlier
      obtain ⟨rfl, since, hawaiting⟩ := waits_iff.mp hwaits
      rw [hawaiting] at hphase
      refine ⟨hid, htarget, (hc.sentBy id).trans hphase.1, hstanding.granted ?_⟩
      rw [hc.now_eq, hc.createdAt]
      exact Nat.lt_add_of_pos_right (by decide)

/-- A call waits for a session that it has asked for. -/
theorem Lawful.arm (h : s.Lawful) (hid : id < s.calls.drawn) (hcall : call.target.IsCommunity)
    (hunsent : s.sentBy id = 0) (hidle : (s.broker call.account).pending = none) :
    (({ s with calls := s.calls.await id { call with phase := .awaiting s.now } } :
      WebSessions).setBroker call.account { s.broker call.account with
        pending := some (s.now + sessionTimeout) }).Lawful := by
  have hc := (calm_calls s (s.calls.await id { call with phase := .awaiting s.now })).trans
    (calm_setBroker _ call.account { s.broker call.account with
      pending := some (s.now + sessionTimeout) })
  refine h.calm hc (fun account cached hcached => ?_) (fun account deadline hdeadline => ?_)
    h.endings le_rfl fun id' call' hcall' => ?_
  · rw [broker_setBroker] at hcached
    split_ifs at hcached with heq
    · rw [heq]
      exact (h.cached _ cached hcached).grows hc.toGrows fun _ he _ => he
    · exact (h.cached account cached hcached).grows hc.toGrows fun _ he _ => he
  · rw [broker_setBroker] at hdeadline
    split_ifs at hdeadline
    · exact (Option.some.inj hdeadline).ge
    · exact h.pending account deadline hdeadline
  · have hcall' : (s.calls.await id { call with phase := .awaiting s.now }).waiting.lookup id' =
      some call' := hcall'
    rw [Calls.lookup_await] at hcall'
    split_ifs at hcall' with heq
    · obtain rfl := Option.some.inj hcall'
      subst heq
      refine ⟨hid, hcall, (hc.sentBy _).trans hunsent, s.now + sessionTimeout, ?_, le_rfl⟩
      rw [broker_setBroker, if_pos rfl]
    · obtain ⟨hid', htarget', hphase'⟩ := h.calls id' call' hcall'
      refine ⟨hid', htarget', hphase'.calm hc fun since hsince hawaited => ?_⟩
      obtain ⟨deadline, hpending, hle⟩ := hawaited
      unfold Awaited
      rw [broker_setBroker]
      split_ifs with haccount
      · rw [haccount, hidle] at hpending
        cases hpending
      · exact ⟨deadline, hpending, hle⟩

theorem Lawful.get (h : s.Lawful) (hcall : s.calls.waiting.lookup id = some call)
    (hlocating : call.phase = .locating) (throws : Bool) : (s.get id call throws).Lawful := by
  obtain ⟨hid, htarget, hphase⟩ := h.calls id call hcall
  rw [hlocating] at hphase
  have hunsent : s.sentBy id = 0 := hphase
  unfold WebSessions.get
  dsimp only
  cases hconnection : (s.broker call.account).connection with
  | none => exact (h.finish id).invalidate call.account
  | some steamId =>
    dsimp only
    cases husable : s.usable call.account steamId with
    | some cached =>
      obtain ⟨hcached, husable⟩ := Option.filter_eq_some_iff.mp husable
      obtain ⟨rfl, hfresh⟩ := of_decide_eq_true husable
      refine h.await hid htarget ⟨hunsent, (h.cached _ _ hcached).granted ?_⟩
      have hcreated := (h.cached _ _ hcached).accepted.createdAt
      omega
    | none =>
      dsimp only
      split_ifs with hpending hthrows
      · obtain ⟨deadline, hdeadline⟩ := Option.isSome_iff_exists.mp hpending
        exact h.await hid htarget ⟨hunsent, deadline, hdeadline, h.pending _ _ hdeadline⟩
      · exact (h.arm hid htarget hunsent (by simpa using hpending)).invalidate call.account
      · exact h.arm hid htarget hunsent (by simpa using hpending)

/-! ## The jars -/

/-- A step that changes the jars and nothing else: what it adds to them lasts. -/
structure Pours (s t : WebSessions) : Prop extends Grows s t where
  brokers : t.brokers = s.brokers
  calls : t.calls = s.calls
  sent : t.sent = s.sent
  now_eq : t.now = s.now
  stamp_eq : t.stamp = s.stamp
  endings_eq : t.endings = s.endings
  kept : ∀ jar entry, s.jars.lookup jar = some entry → ∃ entry', t.jars.lookup jar = some entry' ∧
    entry'.account = entry.account ∧ entry'.sessionId = entry.sessionId ∧
    ∀ c ∈ entry'.cookies, c ∈ entry.cookies ∨ s.now < c.expiresAt
  jars : ∀ jar entry, t.jars.lookup jar = some entry → jar < t.drawn ∧
    ∀ c ∈ entry.cookies, Given t entry.account entry.sessionId c
  market : ∀ account jar, t.marketCookies.lookup account = some jar → jar < t.drawn ∧
    ∀ entry, t.jars.lookup jar = some entry → entry.account = account
  given_of : ∀ g ∈ t.given, g ∈ s.given ∨ ∃ r ∈ s.sent, r.call = g.call ∧ r.account = g.account ∧
    r.grant.cached.session.sessionId = g.sessionId

theorem Pours.carries {startedAt : ℕ} (hc : Pours s t)
    (h : Jarred s account sessionId jar startedAt) :
    Jarred t account sessionId jar startedAt where
  entry := by
    obtain ⟨entry, hentry, haccount, hsession, hlasts⟩ := h.entry
    obtain ⟨entry', hentry', haccount', hsession', hcookies⟩ := hc.kept jar entry hentry
    refine ⟨entry', hentry', haccount'.trans haccount, hsession'.trans hsession, fun c hmem => ?_⟩
    rcases hcookies c hmem with hmem | hlast
    · exact hlasts c hmem
    · exact h.startedAt.trans_lt hlast
  startedAt := h.startedAt.trans hc.now

theorem Pours.sentBy (hc : Pours s t) (id : ℕ) : t.sentBy id = s.sentBy id := by
  unfold WebSessions.sentBy
  rw [hc.sent]

theorem Pours.broker (hc : Pours s t) (account : Uuid) : t.broker account = s.broker account := by
  unfold WebSessions.broker
  rw [hc.brokers]

theorem Pours.phase {phase : CallPhase} (hc : Pours s t) (h : phase.Lawful s id call) :
    phase.Lawful t id call := by
  cases phase with
  | locating => exact (hc.sentBy id).trans h
  | awaiting since =>
    refine ⟨(hc.sentBy id).trans h.1, ?_⟩
    unfold Awaited
    rw [hc.broker]
    exact h.2
  | granted grant => exact ⟨(hc.sentBy id).trans h.1, h.2.grows hc.toGrows⟩
  | fetching grant jar startedAt current hop =>
    exact {
      granted := h.granted.grows hc.toGrows
      carries := hc.carries h.carries
      url := h.url
      sentBy := (hc.sentBy id).trans h.sentBy
      bounded := h.bounded
      post := h.post
      sent := by
        rw [hc.sent]
        exact h.sent
      method := by
        rw [hc.sent]
        exact h.method }

theorem Lawful.pours (h : s.Lawful) (hc : Pours s t) : t.Lawful where
  cached account cached hcached := by
    rw [hc.broker] at hcached
    refine (h.cached account cached hcached).grows hc.toGrows fun e he _ => ?_
    rw [hc.endings_eq] at he
    exact he
  pending account deadline hdeadline := by
    rw [hc.broker] at hdeadline
    rw [hc.now_eq]
    exact h.pending account deadline hdeadline
  endings := by
    rw [hc.endings_eq, hc.stamp_eq]
    exact h.endings
  jars := hc.jars
  market := hc.market
  calls id call hcall := by
    rw [hc.calls] at hcall ⊢
    obtain ⟨hid, htarget, hphase⟩ := h.calls id call hcall
    exact ⟨hid, htarget, hc.phase hphase⟩
  drawn := by
    rw [hc.sent, hc.calls]
    exact h.drawn
  sent := by
    rw [hc.sent]
    exact fun r hr => (h.sent r hr).grows hc.toGrows
  given g hg := by
    rw [hc.sent]
    rcases hc.given_of g hg with hg | hr
    · exact h.given g hg
    · exact hr
  limits id := by
    rw [hc.sentBy]
    exact h.limits id
  posts := by
    rw [hc.sent]
    intro r hr hpost
    rw [hc.sentBy]
    exact h.posts r hr hpost

theorem Lawful.pours_remember (h : s.Lawful) {startedAt hop : ℕ} {current : Url}
    (hcall : Underway s id call grant jar startedAt current hop) (headers : List (List Char)) :
    Pours s (s.remember id jar headers) := by
  obtain ⟨entry, hentry, haccount, hsession, -⟩ := hcall.carries.entry
  obtain ⟨r, hr, hid, hraccount, rfl⟩ := hcall.sent
  unfold WebSessions.remember
  rw [hentry]
  dsimp only
  have hgiven : ∀ c ∈ rememberMarketCookies s.now entry.cookies headers, c ∉ entry.cookies →
      (⟨id, entry.account, entry.sessionId, c⟩ : GivenCookie) ∈
        ((rememberMarketCookies s.now entry.cookies headers).filter (· ∉ entry.cookies)).map
          (⟨id, entry.account, entry.sessionId, ·⟩) ++ s.given := by
    intro c hmem hnew
    refine List.mem_append_left _ (List.mem_map.mpr ⟨c, List.mem_filter.mpr ⟨hmem, ?_⟩, rfl⟩)
    exact decide_eq_true hnew
  refine
    { accepted := fun _ h => h
      endings := fun _ h => .inl h
      given := List.subset_append_right _ _
      stamp := le_rfl
      now := le_rfl
      brokers := rfl
      calls := rfl
      sent := rfl
      now_eq := rfl
      stamp_eq := rfl
      endings_eq := rfl
      kept := fun jar' entry' hentry' => ?_
      jars := fun jar' entry' hentry' => ?_
      market := fun account jar' hjar => ⟨(h.market account jar' hjar).1, fun entry' hentry' => ?_⟩
      given_of := fun g hg => ?_ }
  · dsimp only
    rw [Table.lookup_insert_eq]
    split_ifs with heq
    · obtain rfl : entry = entry' := by
        rw [heq, hentry] at hentry'
        exact Option.some.inj hentry'
      refine ⟨_, rfl, rfl, rfl, fun c hmem => ?_⟩
      rcases name_of_mem_rememberMarketCookies hmem with hmem | ⟨-, -, hlast⟩
      · exact .inl hmem
      · exact .inr hlast
    · exact ⟨entry', hentry', rfl, rfl, fun _ h => .inl h⟩
  · dsimp only at hentry'
    rw [Table.lookup_insert_eq] at hentry'
    split_ifs at hentry' with heq
    · obtain rfl := Option.some.inj hentry'
      rw [heq]
      refine ⟨(h.jars jar entry hentry).1, fun c hmem => ?_⟩
      by_cases hold : c ∈ entry.cookies
      · obtain ⟨hname, htext, g, hg, hrest⟩ := (h.jars jar entry hentry).2 c hold
        exact ⟨hname, htext, g, List.mem_append_right _ hg, hrest⟩
      · rcases name_of_mem_rememberMarketCookies hmem with hmem' | ⟨hname, htext, -⟩
        · exact absurd hmem' hold
        · exact ⟨hname, htext, _, hgiven c hmem hold, rfl, rfl, rfl⟩
    · obtain ⟨hlt, hall⟩ := h.jars jar' entry' hentry'
      refine ⟨hlt, fun c hmem => ?_⟩
      obtain ⟨hname, htext, g, hg, hrest⟩ := hall c hmem
      exact ⟨hname, htext, g, List.mem_append_right _ hg, hrest⟩
  · dsimp only at hentry'
    rw [Table.lookup_insert_eq] at hentry'
    split_ifs at hentry' with heq
    · obtain rfl := Option.some.inj hentry'
      rw [heq] at hjar
      exact (h.market account jar hjar).2 entry hentry
    · exact (h.market account jar' hjar).2 entry' hentry'
  · rcases List.mem_append.mp hg with hg | hg
    · obtain ⟨c, -, rfl⟩ := List.mem_map.mp hg
      exact .inr ⟨r, hr, hid, hraccount.trans haccount.symm, hsession.symm⟩
    · exact .inl hg

/-- The jar of a request that begins, without the cookies that have expired. -/
theorem Lawful.pours_marketCookiesFor (h : s.Lawful) (account : Uuid) (sessionId : List Char) :
    Pours s (s.marketCookiesFor account sessionId).2 ∧
      Jarred (s.marketCookiesFor account sessionId).2 account sessionId
        (s.marketCookiesFor account sessionId).1 s.now := by
  unfold WebSessions.marketCookiesFor
  dsimp only
  cases hknown : (s.marketCookies.lookup account).filter fun jar =>
      (s.jars.lookup jar).any (·.sessionId = sessionId) with
  | some jar =>
    obtain ⟨hmarket, hmatch⟩ := Option.filter_eq_some_iff.mp hknown
    obtain ⟨entry, hentry, hsession⟩ : ∃ entry, s.jars.lookup jar = some entry ∧
        entry.sessionId = sessionId := by
      simpa [Option.any_eq_true] using hmatch
    have hlookup (jar' : ℕ) : (s.jars.modify jar fun entry =>
        { entry with cookies := entry.cookies.filter (s.now < ·.expiresAt) }).lookup jar' =
          if jar' = jar then some { entry with
            cookies := entry.cookies.filter (s.now < ·.expiresAt) } else s.jars.lookup jar' := by
      rw [Table.lookup_modify, hentry]
      rfl
    have hgrows : Grows s { s with jars := s.jars.modify jar fun entry =>
        { entry with cookies := entry.cookies.filter (s.now < ·.expiresAt) } } :=
      ⟨fun _ h => h, fun _ h => .inl h, fun _ h => h, le_rfl, le_rfl⟩
    have haccount := (h.market account jar hmarket).2 entry hentry
    refine ⟨⟨hgrows, rfl, rfl, rfl, rfl, rfl, rfl, ?_, ?_, ?_, fun g hg => .inl hg⟩,
      ⟨_, (hlookup jar).trans (if_pos rfl), haccount, hsession, ?_⟩, le_rfl⟩
    · intro jar' entry' hentry'
      dsimp only
      rw [hlookup]
      split_ifs with heq
      · obtain rfl : entry = entry' := by
          rw [heq, hentry] at hentry'
          exact Option.some.inj hentry'
        exact ⟨_, rfl, rfl, rfl, fun c hmem => .inl (List.mem_of_mem_filter hmem)⟩
      · exact ⟨entry', hentry', rfl, rfl, fun _ h => .inl h⟩
    · intro jar' entry' hentry'
      dsimp only at hentry'
      rw [hlookup] at hentry'
      split_ifs at hentry' with heq
      · obtain rfl := Option.some.inj hentry'
        rw [heq]
        obtain ⟨hlt, hgiven⟩ := h.jars jar entry hentry
        exact ⟨hlt, fun c hmem => (hgiven c (List.mem_of_mem_filter hmem)).grows hgrows⟩
      · obtain ⟨hlt, hgiven⟩ := h.jars jar' entry' hentry'
        exact ⟨hlt, fun c hmem => (hgiven c hmem).grows hgrows⟩
    · intro account' jar' hjar
      refine ⟨(h.market account' jar' hjar).1, fun entry' hentry' => ?_⟩
      dsimp only at hentry'
      rw [hlookup] at hentry'
      split_ifs at hentry' with heq
      · obtain rfl := Option.some.inj hentry'
        rw [heq] at hjar
        exact (h.market account' jar hjar).2 entry hentry
      · exact (h.market account' jar' hjar).2 entry' hentry'
    · intro c hmem
      exact of_decide_eq_true (List.mem_filter.mp hmem).2
  | none =>
    have hgrows : Grows s { s with
        jars := s.jars.insert s.drawn ⟨account, sessionId, []⟩
        marketCookies := s.marketCookies.insert account s.drawn
        drawn := s.drawn + 1 } :=
      ⟨fun _ h => h, fun _ h => .inl h, fun _ h => h, le_rfl, le_rfl⟩
    refine ⟨⟨hgrows, rfl, rfl, rfl, rfl, rfl, rfl, ?_, ?_, ?_, fun g hg => .inl hg⟩,
      ⟨_, AList.lookup_insert _, rfl, rfl, fun _ h => (nomatch h)⟩, le_rfl⟩
    · intro jar entry hentry
      have hne : jar ≠ s.drawn := (h.jars jar entry hentry).1.ne
      dsimp only
      rw [Table.lookup_insert_eq, if_neg hne]
      exact ⟨entry, hentry, rfl, rfl, fun _ h => .inl h⟩
    · intro jar entry hentry
      dsimp only at hentry
      rw [Table.lookup_insert_eq] at hentry
      split_ifs at hentry with heq
      · obtain rfl := Option.some.inj hentry
        rw [heq]
        exact ⟨Nat.lt_succ_self _, fun _ h => (nomatch h)⟩
      · obtain ⟨hlt, hgiven⟩ := h.jars jar entry hentry
        exact ⟨hlt.trans (Nat.lt_succ_self _), fun c hmem => (hgiven c hmem).grows hgrows⟩
    · intro account' jar hjar
      dsimp only at hjar
      rw [Table.lookup_insert_eq] at hjar
      split_ifs at hjar with heq
      · obtain rfl := Option.some.inj hjar
        refine ⟨Nat.lt_succ_self _, fun entry hentry => ?_⟩
        dsimp only at hentry
        rw [AList.lookup_insert] at hentry
        obtain rfl := Option.some.inj hentry
        exact heq.symm
      · obtain ⟨hlt, haccount⟩ := h.market account' jar hjar
        refine ⟨hlt.trans (Nat.lt_succ_self _), fun entry hentry => haccount entry ?_⟩
        dsimp only at hentry
        rwa [Table.lookup_insert_eq, if_neg hlt.ne] at hentry

/-! ## Requests -/

theorem sentBy_eq_zero (h : ∀ r ∈ s.sent, r.call ≠ id) : s.sentBy id = 0 := by
  unfold WebSessions.sentBy
  rw [List.length_eq_zero_iff, List.filter_eq_nil_iff]
  intro r hr
  simpa using h r hr

theorem call_ne_of_sentBy (h : s.sentBy id = 0) : ∀ r ∈ s.sent, r.call ≠ id := by
  unfold WebSessions.sentBy at h
  rw [List.length_eq_zero_iff, List.filter_eq_nil_iff] at h
  intro r hr
  simpa using h r hr

theorem Lawful.request (h : s.Lawful) {parse : String → Option Url} {path : String}
    {method : Method} (hn : s.request parse account path method = some t) : t.Lawful := by
  obtain ⟨target, -, hn⟩ := Option.bind_eq_some_iff.mp hn
  split_ifs at hn with hchecks
  obtain ⟨-, htarget⟩ := hchecks
  obtain rfl := Option.some.inj hn
  refine h.withCalls _ (Nat.le_succ _) fun id call hcall => ?_
  rw [Calls.lookup_start] at hcall
  split_ifs at hcall with heq
  · obtain rfl := Option.some.inj hcall
    rw [heq]
    refine ⟨Nat.lt_succ_self _, htarget, ?_⟩
    exact sentBy_eq_zero fun r hr => (h.drawn r hr).ne
  · obtain ⟨hid, htarget, hphase⟩ := h.calls id call hcall
    exact ⟨hid.trans (Nat.lt_succ_self _), htarget, hphase⟩

structure Ready (s : WebSessions) (id : ℕ) (call : CommunityCall) (grant : Grant)
    (jar startedAt : ℕ) (current : Url) (hop : ℕ) : Prop where
  drawn : id < s.calls.drawn
  target : call.target.IsCommunity
  granted : Granted s call.account grant
  carries : Jarred s call.account grant.cached.session.sessionId jar startedAt
  url : current.IsCommunity
  sentBy : s.sentBy id = hop
  bounded : hop ≤ maxRedirects
  post : call.method = .post → hop = 0
  method : ∀ r ∈ s.sent, r.call = id → r.method = call.method

theorem grows_fetch (s : WebSessions) (id : ℕ) (call : CommunityCall) (grant : Grant)
    (jar startedAt : ℕ) (current : Url) (hop : ℕ) :
    Grows s (s.fetch id call grant jar startedAt current hop) :=
  ⟨fun _ h => h, fun _ h => .inl h, fun _ h => h, le_rfl, le_rfl⟩

theorem sentBy_fetch {startedAt hop : ℕ} {current : Url} (id' : ℕ) :
    (s.fetch id call grant jar startedAt current hop).sentBy id' =
      if id' = id then s.sentBy id + 1 else s.sentBy id' := by
  unfold WebSessions.sentBy WebSessions.fetch
  dsimp only
  rw [List.filter_cons]
  by_cases heq : id' = id
  · simp [heq]
  · rw [if_neg heq, if_neg (by simpa using fun h => heq h.symm)]

theorem phase_fetch {phase : CallPhase} {id' : ℕ} {call' : CommunityCall} {startedAt hop : ℕ}
    {current : Url} (h : phase.Lawful s id' call') (hne : id' ≠ id) :
    phase.Lawful (s.fetch id call grant jar startedAt current hop) id' call' := by
  have hst := grows_fetch s id call grant jar startedAt current hop
  have hsame : (s.fetch id call grant jar startedAt current hop).sentBy id' = s.sentBy id' :=
    (sentBy_fetch id').trans (if_neg hne)
  cases phase with
  | locating => exact hsame.trans h
  | awaiting since => exact ⟨hsame.trans h.1, h.2⟩
  | granted grant' => exact ⟨hsame.trans h.1, h.2.grows hst⟩
  | fetching grant' jar' startedAt' current' hop' =>
    refine ⟨h.granted.grows hst, ⟨h.carries.entry, h.carries.startedAt⟩, h.url,
      hsame.trans h.sentBy, h.bounded, h.post, ?_, ?_⟩
    · obtain ⟨r, hr, hrest⟩ := h.sent
      exact ⟨r, List.mem_cons_of_mem _ hr, hrest⟩
    · intro r hr hid
      rcases List.mem_cons.mp hr with rfl | hr
      · exact absurd hid.symm hne
      · exact h.method r hr hid

theorem Lawful.fetch (h : s.Lawful) {startedAt hop : ℕ} {current : Url}
    (hready : Ready s id call grant jar startedAt current hop) :
    (s.fetch id call grant jar startedAt current hop).Lawful := by
  have hst := grows_fetch s id call grant jar startedAt current hop
  obtain ⟨entry, hentry, haccount, hsession, hlasts⟩ := hready.carries.entry
  have hcookies : s.cookiesIn jar = entry.cookies := by
    unfold cookiesIn
    rw [hentry]
    rfl
  refine
    { cached := fun account cached hcached => (h.cached account cached hcached).grows hst
        fun _ he _ => he
      pending := h.pending
      endings := h.endings
      jars := fun jar' entry' hentry' => ?_
      market := h.market
      calls := fun id' call' hcall' => ?_
      drawn := ?_
      sent := ?_
      given := fun g hg => ?_
      limits := fun id' => ?_
      posts := ?_ }
  · obtain ⟨hlt, hgiven⟩ := h.jars jar' entry' hentry'
    exact ⟨hlt, fun c hmem => (hgiven c hmem).grows hst⟩
  · have hcall' : (s.calls.await id { call with
        phase := .fetching grant jar startedAt current hop }).waiting.lookup id' =
          some call' := hcall'
    rw [Calls.lookup_await] at hcall'
    split_ifs at hcall' with heq
    · obtain rfl := Option.some.inj hcall'
      subst heq
      refine ⟨hready.drawn, hready.target, hready.granted.grows hst,
        ⟨hready.carries.entry, hready.carries.startedAt⟩, hready.url, ?_, hready.bounded,
        hready.post, ⟨_, List.mem_cons_self, rfl, rfl, rfl⟩, ?_⟩
      · rw [sentBy_fetch, if_pos rfl, hready.sentBy]
      · intro r hr hid
        rcases List.mem_cons.mp hr with rfl | hr
        · rfl
        · exact hready.method r hr hid
    · obtain ⟨hid, htarget, hphase⟩ := h.calls id' call' hcall'
      exact ⟨hid, htarget, phase_fetch hphase heq⟩
  · exact List.forall_mem_cons.mpr ⟨hready.drawn, h.drawn⟩
  · refine List.forall_mem_cons.mpr ⟨⟨hready.url, hready.granted.grows hst, fun c hmem => ?_⟩,
      fun r hr => (h.sent r hr).grows hst⟩
    have hmem : c ∈ s.cookiesIn jar := hmem
    rw [hcookies] at hmem
    have hgiven := (h.jars jar entry hentry).2 c hmem
    rw [haccount, hsession] at hgiven
    exact ⟨hgiven.grows hst, hlasts c hmem⟩
  · obtain ⟨r, hr, hrest⟩ := h.given g hg
    exact ⟨r, List.mem_cons_of_mem _ hr, hrest⟩
  · rw [sentBy_fetch]
    split_ifs
    · rw [hready.sentBy]
      exact Nat.succ_le_succ hready.bounded
    · exact h.limits id'
  · refine List.forall_mem_cons.mpr ⟨fun hpost => ?_, fun r hr hpost => ?_⟩
    · rw [sentBy_fetch, if_pos rfl, hready.sentBy, hready.post hpost]
    · have hne : r.call ≠ id := by
        intro hid
        have hmethod : call.method = .post := (hready.method r hr hid).symm.trans hpost
        have hunsent := hready.sentBy.trans (hready.post hmethod)
        exact call_ne_of_sentBy hunsent r hr hid
      rw [sentBy_fetch, if_neg hne]
      exact h.posts r hr hpost

theorem Lawful.proceed (h : s.Lawful) {continues : Bool}
    (hn : s.proceed id continues = some t) : t.Lawful := by
  obtain ⟨call, hcall, hn⟩ := Option.bind_eq_some_iff.mp hn
  obtain ⟨hid, htarget, hphase⟩ := h.calls id call hcall
  cases hgrant : call.phase with
  | locating =>
    rw [hgrant] at hn
    cases hn
  | awaiting since =>
    rw [hgrant] at hn
    cases hn
  | fetching grant jar startedAt current hop =>
    rw [hgrant] at hn
    cases hn
  | granted grant =>
    rw [hgrant] at hn hphase
    obtain ⟨hunsent, hgranted⟩ := hphase
    dsimp only at hn
    split_ifs at hn with hcontinues
    · obtain rfl := Option.some.inj hn
      obtain ⟨hpours, hcarries⟩ := h.pours_marketCookiesFor call.account
        grant.cached.session.sessionId
      refine (h.pours hpours).fetch
        { drawn := ?_
          target := htarget
          granted := hgranted.grows hpours.toGrows
          carries := ?_
          url := htarget
          sentBy := (hpours.sentBy id).trans hunsent
          bounded := Nat.zero_le _
          post := fun _ => rfl
          method := ?_ }
      · rw [hpours.calls]
        exact hid
      · rw [hpours.now_eq]
        exact hcarries
      · rw [hpours.sent]
        exact fun r hr hsame => absurd hsame (call_ne_of_sentBy hunsent r hr)
    · obtain rfl := Option.some.inj hn
      exact h.finish id

theorem isCommunity_of_redirect {location : Option Url} {current next : Url} {method : Method}
    {hop : ℕ} (hcurrent : current.IsCommunity)
    (h : communityRedirect location current method hop = some next) :
    next.IsCommunity ∧ method = .get ∧ hop < maxRedirects := by
  unfold communityRedirect at h
  cases location with
  | none => cases h
  | some target =>
    dsimp only at h
    split_ifs at h with hmethod horigin hpath
    obtain rfl := Option.some.inj h
    obtain ⟨hget, hbound⟩ := not_or.mp hmethod
    obtain ⟨horigin, huser⟩ := not_or.mp horigin
    obtain ⟨hname, hpassword⟩ := not_or.mp huser
    exact ⟨⟨(not_not.mp horigin).trans hcurrent.1, not_not.mp hname, not_not.mp hpassword⟩,
      not_not.mp hget, Nat.lt_of_not_ge hbound⟩

theorem Lawful.respond (h : s.Lawful) {status : ℕ} {location : Option Url}
    {setCookie : List (List Char)}
    (hn : s.respond id status location setCookie = some t) : t.Lawful := by
  obtain ⟨call, hcall, hn⟩ := Option.bind_eq_some_iff.mp hn
  obtain ⟨hid, htarget, hphase⟩ := h.calls id call hcall
  cases hfetching : call.phase with
  | locating =>
    rw [hfetching] at hn
    cases hn
  | awaiting since =>
    rw [hfetching] at hn
    cases hn
  | granted grant =>
    rw [hfetching] at hn
    cases hn
  | fetching grant jar startedAt current hop =>
    rw [hfetching] at hn hphase
    have hunderway : Underway s id call grant jar startedAt current hop := hphase
    dsimp only at hn
    split_ifs at hn with hredirect
    · have hpours := h.pours_remember hunderway setCookie
      have hlawful := h.pours hpours
      cases hnext : communityRedirect location current call.method hop with
      | none =>
        rw [hnext] at hn
        obtain rfl := Option.some.inj hn
        exact (hlawful.finish id).discard _ _
      | some next =>
        rw [hnext] at hn
        obtain rfl := Option.some.inj hn
        obtain ⟨hurl, hget, hbound⟩ := isCommunity_of_redirect hunderway.url hnext
        refine hlawful.fetch
          { drawn := ?_
            target := htarget
            granted := hunderway.granted.grows hpours.toGrows
            carries := hpours.carries hunderway.carries
            url := hurl
            sentBy := (hpours.sentBy id).trans hunderway.sentBy
            bounded := hbound
            post := fun hpost => nomatch hget.symm.trans hpost
            method := ?_ }
        · rw [hpours.calls]
          exact hid
        · rw [hpours.sent]
          exact hunderway.method
    · obtain rfl := Option.some.inj hn
      exact h.finish id

theorem Lawful.step {parse : String → Option Url} {a : WebAction} (h : s.Lawful)
    (hn : (webMachine parse).next s a = some t) : t.Lawful := by
  cases a with
  | connection account steamId connected =>
    obtain rfl := Option.some.inj hn
    exact h.connection account steamId connected
  | webSession account sessionId cookies =>
    obtain rfl := Option.some.inj hn
    exact h.accept account sessionId cookies
  | timeout account =>
    unfold webMachine at hn
    dsimp only at hn
    split_ifs at hn
    obtain rfl := Option.some.inj hn
    exact h.invalidate account
  | invalidate account =>
    obtain rfl := Option.some.inj hn
    exact h.invalidate account
  | request account path method => exact h.request hn
  | located id found throws =>
    obtain ⟨call, hcall, hn⟩ := Option.bind_eq_some_iff.mp hn
    split_ifs at hn with hlocating hfound
    · obtain rfl := Option.some.inj hn
      exact h.get hcall hlocating throws
    · obtain rfl := Option.some.inj hn
      exact h.finish id
  | proceed id continues => exact h.proceed hn
  | respond id status location setCookie => exact h.respond hn
  | failed id =>
    obtain ⟨call, hcall, hn⟩ := Option.bind_eq_some_iff.mp hn
    split_ifs at hn
    obtain rfl := Option.some.inj hn
    exact h.finish id
  | tick elapsed =>
    obtain rfl := Option.some.inj hn
    exact h.tick elapsed

theorem lawful_of_reachable {parse : String → Option Url} (h : (webMachine parse).Reachable s) :
    s.Lawful := by
  refine h.invariant ?_ fun _ _ _ h _ hn => h.step hn
  rintro s ⟨hbrokers, hmarket, hjars, hcalls, haccepted, hendings, hgiven, hsent⟩
  have hbroker (account : Uuid) : s.broker account = .fresh := by
    unfold WebSessions.broker
    rw [hbrokers]
    rfl
  have hunsent (id : ℕ) : s.sentBy id = 0 := by
    unfold WebSessions.sentBy
    rw [hsent]
    rfl
  refine
    { cached := fun account cached hcached => ?_
      pending := fun account deadline hdeadline => ?_
      endings := ?_
      jars := fun jar entry hentry => ?_
      market := fun account jar hjar => ?_
      calls := fun id call hcall => ?_
      drawn := ?_
      sent := ?_
      given := ?_
      limits := fun id => ?_
      posts := ?_ }
  · rw [hbroker] at hcached
    cases hcached
  · rw [hbroker] at hdeadline
    cases hdeadline
  · rw [hendings]
    exact fun _ h => (nomatch h)
  · rw [hjars] at hentry
    cases hentry
  · rw [hmarket] at hjar
    cases hjar
  · rw [hcalls] at hcall
    cases hcall
  · rw [hsent]
    exact fun _ h => (nomatch h)
  · rw [hsent]
    exact fun _ h => (nomatch h)
  · rw [hgiven]
    exact fun _ h => (nomatch h)
  · rw [hunsent]
    exact Nat.zero_le _
  · rw [hsent]
    exact fun _ h => (nomatch h)

end WebSessions

/-! ## Headers -/

theorem mem_of_mem_intersperse {α : Type} {sep x : α} {l : List α} (h : x ∈ l.intersperse sep) :
    x = sep ∨ x ∈ l := by
  induction l with
  | nil => cases h
  | cons y l ih =>
    cases l with
    | nil => exact .inr h
    | cons z l =>
      rcases List.mem_cons.mp h with rfl | h
      · exact .inr List.mem_cons_self
      rcases List.mem_cons.mp h with rfl | h
      · exact .inl rfl
      · exact (ih h).imp id (List.mem_cons_of_mem y)

/-- No line of a header can be added through a cookie. -/
theorem SentRequest.Lawful.cookie {r : SentRequest} (h : r.Lawful s) :
    ∀ c ∈ r.cookie, isLineBreak c = false := by
  intro c hc
  obtain ⟨text, htext, hc⟩ := List.mem_flatten.mp hc
  rcases mem_of_mem_intersperse htext with rfl | htext
  · have hsep : ∀ c ∈ [';', ' '], isLineBreak c = false :=
      List.forall_mem_cons.mpr ⟨rfl, List.forall_mem_singleton.mpr rfl⟩
    exact hsep c hc
  have hclean : text.any isLineBreak = false := by
    rcases List.mem_append.mp htext with htext | htext
    · have hall := h.granted.accepted.text
      unfold isAcceptable at hall
      simp only [Bool.and_eq_true, Bool.not_eq_true'] at hall
      exact Bool.eq_false_iff.mpr (List.any_eq_false.mp hall.1.1.2 text htext)
    · obtain ⟨cookie, hcookie, rfl⟩ := List.mem_map.mp htext
      exact (h.extraCookies cookie hcookie).1.text
  exact Bool.eq_false_iff.mpr (List.any_eq_false.mp hclean c hc)

theorem isAcceptable_sessionid {sessionId : List Char} {pairs : List (List Char)}
    (h : isAcceptable sessionId pairs = true) : "sessionid=".toList ++ sessionId ∈ pairs := by
  unfold isAcceptable at h
  exact List.contains_iff_mem.mp ((Bool.and_eq_true _ _).mp h).2

/-- Every request goes to Steam, with a session that an event had brought less than half an hour
before it was handed out, while the account was connected as the same user, and that nothing had
ended in between; beside the cookies of the session it carries only market cookies that an answer
to a request with the same session has set and that had not expired at its start. A call follows
three redirects at most, and a change none. Whoever waits for a session has a timer. -/
structure WebLaws (s : WebSessions) : Prop where
  destination : ∀ r ∈ s.sent,
    r.url.origin = communityOrigin ∧ r.url.username = "" ∧ r.url.password = ""
  session : ∀ r ∈ s.sent, ∃ a ∈ s.accepted, a.account = r.account ∧ a.cached = r.grant.cached ∧
    a.connection = some a.cached.session.steamId ∧ r.grant.connection = a.connection ∧
    r.grant.time < a.cached.createdAt + sessionTtl ∧
    ∀ e ∈ s.endings, e.account = r.account →
      (e.sessionId = none ∨ e.sessionId = some a.cached.session.sessionId) →
        e.stamp < a.cached.stamp ∨ r.grant.stamp ≤ e.stamp
  extraCookies : ∀ r ∈ s.sent, ∀ c ∈ r.extraCookies, c.name ∈ marketCookieNames ∧
    r.startedAt < c.expiresAt ∧ ∃ g ∈ s.given, g.cookie = c ∧ ∃ r' ∈ s.sent, r'.call = g.call ∧
      r'.account = r.account ∧
      r'.grant.cached.session.sessionId = r.grant.cached.session.sessionId
  header : ∀ r ∈ s.sent, (∀ c ∈ r.cookie, c ≠ '\r' ∧ c ≠ '\n') ∧
    "sessionid=".toList ++ r.grant.cached.session.sessionId ∈ r.grant.cached.session.cookies
  hops : ∀ id, (s.sent.filter fun r => r.call = id).length ≤ maxRedirects + 1
  posts : ∀ r ∈ s.sent, r.method = .post → (s.sent.filter fun r' => r'.call = r.call).length = 1
  answered : ∀ id call since, s.calls.waiting.lookup id = some call →
    call.phase = .awaiting since → ∃ deadline, (s.broker call.account).pending = some deadline ∧
      deadline ≤ since + sessionTimeout

theorem webLaws_of_reachable (parse : String → Option Url) (s : WebSessions)
    (h : (webMachine parse).Reachable s) : WebLaws s := by
  have hs := lawful_of_reachable h
  refine
    { destination := fun r hr => (hs.sent r hr).url
      session := fun r hr => ?_
      extraCookies := fun r hr c hc => ?_
      header := fun r hr => ⟨fun c hc => ?_, ?_⟩
      hops := hs.limits
      posts := hs.posts
      answered := fun id call since hcall hphase => ?_ }
  · have hg := (hs.sent r hr).granted
    exact ⟨_, hg.accepted.record, rfl, rfl, rfl, hg.connection, hg.fresh,
      fun e he haccount hends => hg.unended e he ⟨haccount, hends⟩⟩
  · obtain ⟨hgiven, hlasts⟩ := (hs.sent r hr).extraCookies c hc
    obtain ⟨g, hg, haccount, hsession, hcookie⟩ := hgiven.record
    obtain ⟨r', hr', hcall, haccount', hsession'⟩ := hs.given g hg
    exact ⟨hgiven.name, hlasts, g, hg, hcookie, r', hr', hcall, haccount'.trans haccount,
      hsession'.trans hsession⟩
  · have hbreak := (hs.sent r hr).cookie c hc
    unfold isLineBreak at hbreak
    simpa using hbreak
  · exact isAcceptable_sessionid (hs.sent r hr).granted.accepted.text
  · obtain ⟨-, -, hlawful⟩ := hs.calls id call hcall
    rw [hphase] at hlawful
    exact hlawful.2

/-- A read is sent to sign in again and brings a cookie, a sale carries it, and a session does not
come in time. -/
def signedInAgain : WebSessions :=
  ((webMachine fun path => some ⟨communityOrigin, "", "", path⟩).exec
    ⟨∅, ∅, ∅, 0, .empty, 0, 0, [], [], [], []⟩
    [.connection 0 (some "76561198000000000") true, .request 0 "/market/" .get,
      .located 0 true false,
      .webSession 0 "s1".toList ["sessionid=s1; Path=/".toList, "steamLoginSecure=t1".toList],
      .proceed 0 true, .respond 0 302 none ["webTradeEligibility=ok; Max-Age=60".toList],
      .request 0 "/market/sellitem/" .post, .located 1 true false,
      .webSession 0 "s1".toList ["sessionid=s1; Path=/".toList, "steamLoginSecure=t2".toList],
      .proceed 1 true, .respond 1 200 none [], .invalidate 0, .request 0 "/market/" .get,
      .located 2 true false, .tick sessionTimeout, .timeout 0]).getD
    ⟨∅, ∅, ∅, 0, .empty, 0, 0, [], [], [], []⟩

theorem webLaws_signedInAgain : WebLaws signedInAgain :=
  webLaws_of_reachable (fun path => some ⟨communityOrigin, "", "", path⟩) signedInAgain
    (Transition.Machine.reachable_exec ⟨rfl, rfl, rfl, rfl, rfl, rfl, rfl, rfl⟩ (by decide +kernel))

end SteamBee.Steam
