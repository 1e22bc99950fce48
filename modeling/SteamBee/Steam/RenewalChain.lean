import SteamBee.Steam.Credentials

/-! The stored credential of an account is the end of the chain of renewals that starts at the
credential that was stored last by a login, and no other chain leads to it. -/
namespace SteamBee.Steam

/-! ## The chain in the log -/

def lastStored (accountId : Uuid) : List CredentialEvent → Option Token
  | [] => none
  | .stored id token :: log => if id = accountId then some token else lastStored accountId log
  | _ :: log => lastStored accountId log

def RenewedCredential.Belongs (credential : RenewedCredential) (identity : Option String) : Prop :=
  isSteamId credential.steamId = true ∧ identity = some credential.steamId

/-- A client of the account has renewed the one token to the other, for the account's identity. -/
def Renews (log : List CredentialEvent) (accountId : Uuid) (previous token : Token) : Prop :=
  ∃ worker credential identity, .renewed worker accountId credential ∈ log ∧
    .taken worker credential identity ∈ log ∧ credential.Belongs identity ∧
    credential.previousRefreshToken = previous ∧ credential.refreshToken = token

def CredentialEvent.token : CredentialEvent → Option Token
  | .stored _ token => some token
  | .renewed _ _ credential => some credential.refreshToken
  | .taken _ _ _ => none

/-- No token came into the world twice. -/
def IssuedOnce (log : List CredentialEvent) : Prop :=
  log.Pairwise fun event event' => ∀ token, event.token = some token → event'.token ≠ some token

section Log
variable {log log' : List CredentialEvent} {event event' : CredentialEvent} {id id' : Uuid}
  {first other token previous : Token}

theorem IssuedOnce.eq (h : IssuedOnce log) (hmem : event ∈ log) (hmem' : event' ∈ log)
    (htoken : event.token = some token) (htoken' : event'.token = some token) : event = event' := by
  by_contra hne
  have hsymm : Std.Symm fun event event' : CredentialEvent =>
      ∀ token, event.token = some token → event'.token ≠ some token :=
    ⟨fun _ _ hdiffer token hleft hright => hdiffer token hright hleft⟩
  exact h.forall hmem hmem' hne token htoken htoken'

theorem Renews.mono (h : Renews log id previous token) (hsub : log ⊆ log') :
    Renews log' id previous token := by
  obtain ⟨worker, credential, identity, hrenewed, htaken, hrest⟩ := h
  exact ⟨worker, credential, identity, hsub hrenewed, hsub htaken, hrest⟩

/-- Two chains that lead to one token start at one login. -/
theorem IssuedOnce.chain_eq (h : IssuedOnce log) (hstored : .stored id first ∈ log)
    (hstored' : .stored id' other ∈ log) (hchain : Relation.ReflTransGen (Renews log id) first token)
    (hchain' : Relation.ReflTransGen (Renews log id') other token) : id' = id ∧ other = first := by
  induction hchain with
  | refl =>
    rcases Relation.ReflTransGen.cases_tail hchain' with heq | ⟨previous, -, hlast⟩
    · subst heq
      cases h.eq hstored hstored' rfl rfl
      exact ⟨rfl, rfl⟩
    · obtain ⟨worker, credential, identity, hrenewed, -, -, -, hnew⟩ := hlast
      cases h.eq hstored hrenewed rfl (congrArg some hnew)
  | tail _ hlast ih =>
    obtain ⟨worker, credential, identity, hrenewed, -, -, hprevious, hnew⟩ := hlast
    rcases Relation.ReflTransGen.cases_tail hchain' with heq | ⟨previous, hbefore, hlast'⟩
    · subst heq
      cases h.eq hstored' hrenewed rfl (congrArg some hnew)
    · obtain ⟨worker', credential', identity', hrenewed', -, -, hprevious', hnew'⟩ := hlast'
      cases h.eq hrenewed hrenewed' (congrArg some hnew) (congrArg some hnew')
      rw [← hprevious, hprevious'] at ih
      exact ih hbefore

end Log

/-! ## The invariant -/

namespace CredentialStore
variable {σ : Type} {p : Secrets σ} {s t : CredentialStore σ} {id : Uuid} {w : WorkerId}
  {worker : CredentialWorker σ} {login : PersistToken σ} {row row' : StoredAccount σ}
  {credential : RenewedCredential} {token : Token} {event : CredentialEvent}

def Unsettled (s : CredentialStore σ) (token : Token) : Prop :=
  (∃ id login, s.logins.lookup id = some login ∧ login.refreshToken = token) ∨
    ∃ entry ∈ s.queue, entry.2.refreshToken = token

def Settled (s : CredentialStore σ) (token : Token) : Prop := token < s.issued ∧ ¬ s.Unsettled token

/-- If the token may still be stored, it waits in the queue of the worker. -/
structure Followed (s : CredentialStore σ) (w : WorkerId) (token : Token) : Prop where
  issued : token < s.issued
  logins : ∀ id login, s.logins.lookup id = some login → login.refreshToken ≠ token
  queue : ∀ entry ∈ s.queue, entry.2.refreshToken = token → entry.1 = w

def SameRow (row row' : StoredAccount σ) : Prop :=
  row.accountName = row'.accountName ∧ row.createdAt = row'.createdAt

structure WorkerKept (s : CredentialStore σ) (w : WorkerId) (worker : CredentialWorker σ) : Prop where
  drawn : worker.accountId < s.drawn
  inserted : s.logins.lookup worker.accountId = none
  account : ∀ row, s.accounts.lookup worker.accountId = some row → SameRow row worker.account
  fresh : ∀ row row', s.accounts.lookup worker.accountId = some row → worker.fresh = some row' →
    SameRow row row'
  found : ∀ token, worker.found = some token → s.Settled token
  client : ∀ token, worker.client = some token → s.Followed w token
  renewing : ∀ token ∈ worker.renewing, s.Followed w token

structure LoginKept (p : Secrets σ) (s : CredentialStore σ) (id : Uuid) (login : PersistToken σ) :
    Prop where
  drawn : id < s.drawn
  issued : login.refreshToken < s.issued
  opens : p.decryptSecret login.encrypted = some login.refreshToken
  account : s.accounts.lookup id = none
  alone : ∀ id' login', s.logins.lookup id' = some login' →
    login'.refreshToken = login.refreshToken → id' = id
  queue : ∀ entry ∈ s.queue, entry.2.refreshToken ≠ login.refreshToken ∧
    entry.2.previousRefreshToken ≠ login.refreshToken
  log : ∀ event ∈ s.log, event.token ≠ some login.refreshToken

structure QueueKept (s : CredentialStore σ) : Prop where
  order : s.queue.Pairwise fun entry later =>
    entry.2.refreshToken < later.2.refreshToken ∧
      (entry.2.refreshToken = later.2.previousRefreshToken → entry.1 = later.1)
  issued : ∀ entry ∈ s.queue, entry.2.refreshToken < s.issued
  newer : ∀ entry ∈ s.queue, entry.2.previousRefreshToken < entry.2.refreshToken
  log : ∀ entry ∈ s.queue, ∃ worker, s.workers.lookup entry.1 = some worker ∧
    .renewed entry.1 worker.accountId entry.2 ∈ s.log

/-- The row holds a token that is settled, at the end of its chain. -/
structure RowKept (p : Secrets σ) (s : CredentialStore σ) (id : Uuid) (row : StoredAccount σ)
    (secret : σ) (token first : Token) : Prop where
  drawn : id < s.drawn
  holds : row.secret = some secret
  opens : p.decryptSecret secret = some token
  settled : s.Settled token
  stored : lastStored id s.log = some first
  chain : Relation.ReflTransGen (Renews s.log id) first token

def Dead (p : Secrets σ) (s : CredentialStore σ) (id : Uuid) (token : Token) : Prop :=
  s.Settled token ∧ ∀ row secret, s.accounts.lookup id = some row → row.secret = some secret →
    p.decryptSecret secret ≠ some token

structure LogKept (p : Secrets σ) (s : CredentialStore σ) : Prop where
  once : IssuedOnce s.log
  issued : ∀ event ∈ s.log, ∀ token, event.token = some token → token < s.issued
  renewed : ∀ w id credential, .renewed w id credential ∈ s.log → (w, credential) ∈ s.queue ∨
    (∃ identity, .taken w credential identity ∈ s.log ∧ ¬ credential.Belongs identity) ∨
    s.Dead p id credential.previousRefreshToken

structure Kept (p : Secrets σ) (s : CredentialStore σ) : Prop where
  workers : ∀ w worker, s.workers.lookup w = some worker → w < s.drawn ∧ s.WorkerKept w worker
  logins : ∀ id login, s.logins.lookup id = some login → s.LoginKept p id login
  queue : s.QueueKept
  rows : ∀ id row, s.accounts.lookup id = some row →
    ∃ secret token first, s.RowKept p id row secret token first
  log : s.LogKept p

/-! ## What a step may do -/

structure Later (s t : CredentialStore σ) : Prop where
  issued : s.issued ≤ t.issued
  drawn : s.drawn ≤ t.drawn
  logins : ∀ id login, t.logins.lookup id = some login →
    s.logins.lookup id = some login ∨ s.issued ≤ login.refreshToken ∧ s.drawn ≤ id
  queue : ∀ entry ∈ t.queue, entry ∈ s.queue ∨ s.issued ≤ entry.2.refreshToken

theorem Settled.later (h : s.Settled token) (hl : s.Later t) : t.Settled token := by
  obtain ⟨hlt, hnot⟩ := h
  refine ⟨hlt.trans_le hl.issued, ?_⟩
  rintro (⟨id, login, hlogin, rfl⟩ | ⟨entry, hentry, rfl⟩)
  · rcases hl.logins id login hlogin with hold | ⟨hnew, -⟩
    · exact hnot (.inl ⟨id, login, hold, rfl⟩)
    · exact absurd hlt (Nat.not_lt.mpr hnew)
  · rcases hl.queue entry hentry with hold | hnew
    · exact hnot (.inr ⟨entry, hold, rfl⟩)
    · exact absurd hlt (Nat.not_lt.mpr hnew)

theorem Followed.later (h : s.Followed w token) (hl : s.Later t) : t.Followed w token := by
  obtain ⟨hlt, hlogins, hqueue⟩ := h
  constructor
  case issued => exact hlt.trans_le hl.issued
  case logins =>
    intro id login hlogin heq
    rcases hl.logins id login hlogin with hold | ⟨hnew, -⟩
    · exact hlogins id login hold heq
    · exact absurd (heq ▸ hlt) (Nat.not_lt.mpr hnew)
  case queue =>
    intro entry hentry heq
    rcases hl.queue entry hentry with hold | hnew
    · exact hqueue entry hold heq
    · exact absurd (heq ▸ hlt) (Nat.not_lt.mpr hnew)

theorem Settled.followed (h : s.Settled token) (w : WorkerId) : s.Followed w token := by
  obtain ⟨hlt, hnot⟩ := h
  constructor
  case issued => exact hlt
  case logins => exact fun id login hlogin heq => hnot (.inl ⟨id, login, hlogin, heq⟩)
  case queue => exact fun entry hentry heq => absurd (.inr ⟨entry, hentry, heq⟩) hnot

theorem WorkerKept.later (h : s.WorkerKept w worker) (hl : s.Later t)
    (hrows : ∀ row, t.accounts.lookup worker.accountId = some row →
      ∃ row', s.accounts.lookup worker.accountId = some row' ∧ SameRow row row') :
    t.WorkerKept w worker := by
  constructor
  case drawn => exact h.drawn.trans_le hl.drawn
  case inserted =>
    cases hlogin : t.logins.lookup worker.accountId with
    | none => rfl
    | some login =>
      rcases hl.logins _ login hlogin with hold | ⟨-, hnew⟩
      · rw [h.inserted] at hold
        cases hold
      · exact absurd h.drawn (Nat.not_lt.mpr hnew)
  case account =>
    intro row hrow
    obtain ⟨row', hrow', hname, hcreated⟩ := hrows row hrow
    obtain ⟨hname', hcreated'⟩ := h.account row' hrow'
    exact ⟨hname.trans hname', hcreated.trans hcreated'⟩
  case fresh =>
    intro row fresh hrow hfresh
    obtain ⟨row', hrow', hname, hcreated⟩ := hrows row hrow
    obtain ⟨hname', hcreated'⟩ := h.fresh row' fresh hrow' hfresh
    exact ⟨hname.trans hname', hcreated.trans hcreated'⟩
  case found => exact fun token hfound => (h.found token hfound).later hl
  case client => exact fun token hclient => (h.client token hclient).later hl
  case renewing => exact fun token hmem => (h.renewing token hmem).later hl

theorem Dead.later (h : s.Dead p id token) (hl : s.Later t)
    (hrows : ∀ row secret, t.accounts.lookup id = some row → row.secret = some secret →
      (∃ row', s.accounts.lookup id = some row' ∧ row'.secret = some secret) ∨
        ∃ token, p.decryptSecret secret = some token ∧ s.Unsettled token) : t.Dead p id token := by
  refine ⟨h.1.later hl, fun row secret hrow hsecret hopens => ?_⟩
  rcases hrows row secret hrow hsecret with ⟨row', hrow', hsecret'⟩ | ⟨other, hother, hunsettled⟩
  · exact h.2 row' secret hrow' hsecret' hopens
  · rw [hother] at hopens
    obtain rfl := Option.some.inj hopens
    exact h.1.2 hunsettled

theorem RowKept.later {secret : σ} {first : Token} (h : s.RowKept p id row secret token first)
    (hl : s.Later t) (hstored : lastStored id t.log = lastStored id s.log) (hsub : s.log ⊆ t.log)
    (hsame : row'.secret = row.secret) : t.RowKept p id row' secret token first := by
  constructor
  case drawn => exact h.drawn.trans_le hl.drawn
  case holds => rw [hsame]; exact h.holds
  case opens => exact h.opens
  case settled => exact h.settled.later hl
  case stored => rw [hstored]; exact h.stored
  case chain => exact h.chain.lift (fun token => token) fun _ _ hrenews => hrenews.mono hsub

/-! ## Steps that leave the credentials alone -/

structure Quiet (s t : CredentialStore σ) : Prop where
  queue : t.queue = s.queue
  logins : t.logins = s.logins
  issued : t.issued = s.issued
  log : t.log = s.log
  drawn : s.drawn ≤ t.drawn
  rows : ∀ id row, t.accounts.lookup id = some row →
    ∃ row', s.accounts.lookup id = some row' ∧ SameRow row row' ∧ row.secret = row'.secret
  workers : ∀ w worker, t.workers.lookup w = some worker → w < t.drawn ∧ s.WorkerKept w worker
  ids : ∀ w worker, s.workers.lookup w = some worker →
    ∃ worker', t.workers.lookup w = some worker' ∧ worker'.accountId = worker.accountId

theorem Quiet.later (h : s.Quiet t) : s.Later t := by
  constructor
  case issued => exact h.issued.ge
  case drawn => exact h.drawn
  case logins => exact fun id login hlogin => .inl (h.logins ▸ hlogin)
  case queue => exact fun entry hentry => .inl (h.queue ▸ hentry)

theorem Kept.quiet (h : s.Kept p) (hq : s.Quiet t) : t.Kept p := by
  have hl := hq.later
  constructor
  case workers =>
    intro w worker hworker
    obtain ⟨hlt, hkept⟩ := hq.workers w worker hworker
    refine ⟨hlt, hkept.later hl fun row hrow => ?_⟩
    obtain ⟨row', hrow', hsame, -⟩ := hq.rows _ row hrow
    exact ⟨row', hrow', hsame⟩
  case logins =>
    intro id login hlogin
    rw [hq.logins] at hlogin
    have hkept := h.logins id login hlogin
    constructor
    case drawn => exact hkept.drawn.trans_le hq.drawn
    case issued => rw [hq.issued]; exact hkept.issued
    case opens => exact hkept.opens
    case account =>
      cases hrow : t.accounts.lookup id with
      | none => rfl
      | some row =>
        obtain ⟨row', hrow', -⟩ := hq.rows id row hrow
        rw [hkept.account] at hrow'
        cases hrow'
    case alone => rw [hq.logins]; exact hkept.alone
    case queue => rw [hq.queue]; exact hkept.queue
    case log => rw [hq.log]; exact hkept.log
  case queue =>
    constructor
    case order => rw [hq.queue]; exact h.queue.order
    case issued => rw [hq.queue, hq.issued]; exact h.queue.issued
    case newer => rw [hq.queue]; exact h.queue.newer
    case log =>
      intro entry hentry
      rw [hq.queue] at hentry
      obtain ⟨worker, hworker, hrenewed⟩ := h.queue.log entry hentry
      obtain ⟨worker', hworker', hid⟩ := hq.ids _ worker hworker
      exact ⟨worker', hworker', by rw [hid, hq.log]; exact hrenewed⟩
  case rows =>
    intro id row hrow
    obtain ⟨row', hrow', -, hsecret⟩ := hq.rows id row hrow
    obtain ⟨secret, token, first, hkept⟩ := h.rows id row' hrow'
    exact ⟨secret, token, first, hkept.later hl (by rw [hq.log]) (by rw [hq.log]; exact .refl _) hsecret⟩
  case log =>
    constructor
    case once => rw [hq.log]; exact h.log.once
    case issued => rw [hq.log, hq.issued]; exact h.log.issued
    case renewed =>
      intro w id credential hrenewed
      rw [hq.log] at hrenewed
      rw [hq.log, hq.queue]
      rcases h.log.renewed w id credential hrenewed with hwaits | htaken | hdead
      · exact .inl hwaits
      · exact .inr (.inl htaken)
      · refine .inr (.inr (hdead.later hl fun row secret hrow hsecret => ?_))
        obtain ⟨row', hrow', -, hsame⟩ := hq.rows id row hrow
        exact .inl ⟨row', hrow', hsame ▸ hsecret⟩

theorem SameRow.refl (row : StoredAccount σ) : SameRow row row := ⟨rfl, rfl⟩

theorem Quiet.setWorker {worker' : CredentialWorker σ} (h : s.Kept p)
    (hworker : s.workers.lookup w = some worker) (hid : worker'.accountId = worker.accountId)
    (hkept : s.WorkerKept w worker') : s.Quiet (s.setWorker w worker') := by
  constructor
  case queue => rfl
  case logins => rfl
  case issued => rfl
  case log => rfl
  case drawn => exact le_rfl
  case rows => exact fun id row hrow => ⟨row, hrow, .refl row, rfl⟩
  case workers =>
    intro other found hfound
    rw [CredentialStore.setWorker, Table.lookup_insert_eq] at hfound
    split_ifs at hfound with heq
    · subst heq
      obtain rfl := Option.some.inj hfound
      exact ⟨(h.workers other worker hworker).1, hkept⟩
    · exact h.workers other found hfound
  case ids =>
    intro other found hfound
    by_cases heq : other = w
    · subst heq
      rw [hworker] at hfound
      obtain rfl := Option.some.inj hfound
      exact ⟨worker', AList.lookup_insert _, hid⟩
    · exact ⟨found, (AList.lookup_insert_ne heq).trans hfound, rfl⟩

theorem Kept.setWorker {worker' : CredentialWorker σ} (h : s.Kept p)
    (hworker : s.workers.lookup w = some worker) (hid : worker'.accountId = worker.accountId)
    (hkept : s.WorkerKept w worker') : (s.setWorker w worker').Kept p :=
  h.quiet (.setWorker h hworker hid hkept)

theorem Kept.readAccount (h : s.Kept p) (hn : s.readAccount w = some t) : t.Kept p := by
  obtain ⟨worker, hworker, hn⟩ := Option.bind_eq_some_iff.mp hn
  obtain ⟨row, hrow, hn⟩ := Option.bind_eq_some_iff.mp hn
  obtain rfl := Option.some.inj hn
  have hkept := (h.workers w worker hworker).2
  refine h.setWorker hworker rfl { hkept with fresh := fun found row' hfound hfresh => ?_ }
  obtain rfl := Option.some.inj hfresh
  rw [hrow] at hfound
  obtain rfl := Option.some.inj hfound
  exact .refl _

theorem Kept.updateAccount (h : s.Kept p) (hn : s.updateAccount w = some t) : t.Kept p := by
  obtain ⟨worker, hworker, hn⟩ := Option.bind_eq_some_iff.mp hn
  obtain ⟨row, hfresh, hn⟩ := Option.bind_eq_some_iff.mp hn
  obtain rfl := Option.some.inj hn
  have hkept := (h.workers w worker hworker).2
  refine h.setWorker hworker rfl { hkept with account := fun found hfound => ?_, fresh := ?_ }
  · exact hkept.fresh found row hfound hfresh
  · exact fun _ _ _ hnone => by cases hnone

theorem getRefreshToken_settled (h : s.Kept p) (htoken : s.getRefreshToken p worker = some token) :
    s.Settled token := by
  obtain ⟨row, hrow, htoken⟩ := Option.bind_eq_some_iff.mp htoken
  split_ifs at htoken
  obtain ⟨secret, hsecret, hopens⟩ := Option.bind_eq_some_iff.mp htoken
  obtain ⟨secret', token', first, hkept⟩ := h.rows _ row hrow
  rw [hkept.holds] at hsecret
  obtain rfl := Option.some.inj hsecret
  rw [hkept.opens] at hopens
  obtain rfl := Option.some.inj hopens
  exact hkept.settled

theorem Kept.startNow (h : s.Kept p) (hn : s.startNow p w = some t) : t.Kept p := by
  obtain ⟨worker, hworker, hn⟩ := Option.bind_eq_some_iff.mp hn
  obtain ⟨token, htoken, hn⟩ := Option.bind_eq_some_iff.mp hn
  obtain rfl := Option.some.inj hn
  have hkept := (h.workers w worker hworker).2
  refine h.setWorker hworker rfl { hkept with found := fun found hfound => ?_ }
  obtain rfl := Option.some.inj hfound
  exact getRefreshToken_settled h htoken

theorem Kept.logOn (h : s.Kept p) (hn : s.logOn w = some t) : t.Kept p := by
  obtain ⟨worker, hworker, hn⟩ := Option.bind_eq_some_iff.mp hn
  obtain ⟨token, hfound, hn⟩ := Option.bind_eq_some_iff.mp hn
  obtain rfl := Option.some.inj hn
  have hkept := (h.workers w worker hworker).2
  refine h.setWorker hworker rfl { hkept with found := ?_, client := fun client hclient => ?_ }
  · exact fun _ hnone => by cases hnone
  · obtain rfl := Option.some.inj hclient
    exact (hkept.found token hfound).followed w

theorem Kept.requestRenewal (h : s.Kept p) (hn : s.requestRenewal w = some t) : t.Kept p := by
  obtain ⟨worker, hworker, hn⟩ := Option.bind_eq_some_iff.mp hn
  obtain ⟨token, hclient, hn⟩ := Option.bind_eq_some_iff.mp hn
  obtain rfl := Option.some.inj hn
  have hkept := (h.workers w worker hworker).2
  refine h.setWorker hworker rfl { hkept with renewing := fun found hfound => ?_ }
  rcases List.mem_cons.mp hfound with rfl | hold
  · exact hkept.client _ hclient
  · exact hkept.renewing found hold

theorem Kept.loggedOn {steamId : String} (h : s.Kept p) (hn : s.loggedOn w steamId = some t) :
    t.Kept p := by
  obtain ⟨worker, hworker, hn⟩ := Option.bind_eq_some_iff.mp hn
  have hkept := (h.workers w worker hworker).2
  split_ifs at hn
  · obtain rfl := Option.some.inj hn
    exact h
  · obtain rfl := Option.some.inj hn
    exact h.setWorker hworker rfl { hkept with account := hkept.account }

theorem Kept.writeSteamId (h : s.Kept p) (hn : s.writeSteamId w = some t) : t.Kept p := by
  obtain ⟨worker, hworker, hn⟩ := Option.bind_eq_some_iff.mp hn
  obtain ⟨steamId, -, hn⟩ := Option.bind_eq_some_iff.mp hn
  obtain rfl := Option.some.inj hn
  have hkept := (h.workers w worker hworker).2
  have hset : s.Quiet (s.setWorker w { worker with steamId := none }) :=
    .setWorker h hworker rfl { hkept with account := hkept.account }
  apply h.quiet
  refine { hset with rows := fun id row hrow => ?_, workers := hset.workers, ids := hset.ids }
  rw [Table.lookup_modify] at hrow
  split_ifs at hrow with heq
  · subst heq
    obtain ⟨row', hrow', rfl⟩ := Option.map_eq_some_iff.mp hrow
    exact ⟨row', hrow', ⟨rfl, rfl⟩, rfl⟩
  · exact ⟨row, hrow, .refl row, rfl⟩

theorem Kept.createWorker (h : s.Kept p) (hn : s.createWorker id = some t) : t.Kept p := by
  obtain ⟨account, haccount, hn⟩ := Option.bind_eq_some_iff.mp hn
  obtain rfl := Option.some.inj hn
  obtain ⟨secret, token, first, hrow⟩ := h.rows id account haccount
  apply h.quiet
  constructor
  case queue => rfl
  case logins => rfl
  case issued => rfl
  case log => rfl
  case drawn => exact Nat.le_succ _
  case rows => exact fun id row hrow => ⟨row, hrow, .refl row, rfl⟩
  case workers =>
    intro w worker hworker
    rw [Table.lookup_insert_eq] at hworker
    split_ifs at hworker with heq
    · subst heq
      obtain rfl := Option.some.inj hworker
      refine ⟨Nat.lt_succ_self _, ?_⟩
      constructor
      case drawn => exact hrow.drawn
      case inserted =>
        cases hlogin : s.logins.lookup id with
        | none => rfl
        | some login =>
          have hnone := (h.logins id login hlogin).account
          rw [haccount] at hnone
          cases hnone
      case account =>
        intro row hrow
        rw [haccount] at hrow
        obtain rfl := Option.some.inj hrow
        exact .refl _
      case fresh => exact fun _ _ _ hnone => by cases hnone
      case found => exact fun _ hnone => by cases hnone
      case client => exact fun _ hnone => by cases hnone
      case renewing => exact fun _ hmem => by cases hmem
    · obtain ⟨hlt, hkept⟩ := h.workers w worker hworker
      exact ⟨Nat.lt_succ_of_lt hlt, hkept⟩
  case ids =>
    intro w worker hworker
    have hne : w ≠ s.drawn := (h.workers w worker hworker).1.ne
    exact ⟨worker, (AList.lookup_insert_ne hne).trans hworker, rfl⟩

theorem Kept.deleteAccount (h : s.Kept p) (id : Uuid) :
    Kept p { s with accounts := s.accounts.erase id } := by
  apply h.quiet
  constructor
  case queue => rfl
  case logins => rfl
  case issued => rfl
  case log => rfl
  case drawn => exact le_rfl
  case rows =>
    intro other row hrow
    rw [Table.lookup_erase_eq] at hrow
    split_ifs at hrow
    exact ⟨row, hrow, .refl row, rfl⟩
  case workers => exact h.workers
  case ids => exact fun w worker hworker => ⟨worker, hworker, rfl⟩

/-! ## Logins -/

theorem Kept.persistAccountToken (h : s.Kept p) (accountName : String) (steamId : Option String)
    (iv : ℕ) : (s.persistAccountToken p accountName steamId iv).Kept p := by
  have hl : s.Later (s.persistAccountToken p accountName steamId iv) := by
    constructor
    case issued => exact Nat.le_succ _
    case drawn => exact Nat.le_succ _
    case logins =>
      intro id login hlogin
      rw [CredentialStore.persistAccountToken, Table.lookup_insert_eq] at hlogin
      split_ifs at hlogin with heq
      · obtain rfl := Option.some.inj hlogin
        exact .inr ⟨le_rfl, heq.ge⟩
      · exact .inl hlogin
    case queue => exact fun entry hentry => .inl hentry
  constructor
  case workers =>
    intro w worker hworker
    obtain ⟨hlt, hkept⟩ := h.workers w worker hworker
    exact ⟨Nat.lt_succ_of_lt hlt, hkept.later hl fun row hrow => ⟨row, hrow, .refl row⟩⟩
  case logins =>
    intro id login hlogin
    rw [CredentialStore.persistAccountToken, Table.lookup_insert_eq] at hlogin
    split_ifs at hlogin with heq
    · subst heq
      obtain rfl := Option.some.inj hlogin
      constructor
      case drawn => exact Nat.lt_succ_self _
      case issued => exact Nat.lt_succ_self _
      case opens => exact p.decrypt_encrypt _ _
      case account =>
        cases hrow : s.accounts.lookup s.drawn with
        | none => exact hrow
        | some row =>
          obtain ⟨secret, token, first, hkept⟩ := h.rows _ row hrow
          exact absurd hkept.drawn (lt_irrefl _)
      case alone =>
        intro id' login' hlogin' hsame
        rw [CredentialStore.persistAccountToken, Table.lookup_insert_eq] at hlogin'
        split_ifs at hlogin' with heq
        · exact heq
        · exact absurd (h.logins id' login' hlogin').issued hsame.not_lt
      case queue =>
        intro entry hentry
        have hissued := h.queue.issued entry hentry
        exact ⟨hissued.ne, ((h.queue.newer entry hentry).trans hissued).ne⟩
      case log => exact fun event hevent htoken => lt_irrefl _ (h.log.issued event hevent _ htoken)
    · have hkept := h.logins id login hlogin
      constructor
      case drawn => exact Nat.lt_succ_of_lt hkept.drawn
      case issued => exact Nat.lt_succ_of_lt hkept.issued
      case opens => exact hkept.opens
      case account => exact hkept.account
      case alone =>
        intro id' login' hlogin' hsame
        rw [CredentialStore.persistAccountToken, Table.lookup_insert_eq] at hlogin'
        split_ifs at hlogin' with heq
        · obtain rfl := Option.some.inj hlogin'
          exact absurd hkept.issued hsame.symm.not_lt
        · exact hkept.alone id' login' hlogin' hsame
      case queue => exact hkept.queue
      case log => exact hkept.log
  case queue =>
    constructor
    case order => exact h.queue.order
    case issued => exact fun entry hentry => Nat.lt_succ_of_lt (h.queue.issued entry hentry)
    case newer => exact h.queue.newer
    case log => exact h.queue.log
  case rows =>
    intro id row hrow
    obtain ⟨secret, token, first, hkept⟩ := h.rows id row hrow
    exact ⟨secret, token, first, hkept.later hl rfl (.refl _) rfl⟩
  case log =>
    constructor
    case once => exact h.log.once
    case issued =>
      exact fun event hevent token htoken =>
        Nat.lt_succ_of_lt (h.log.issued event hevent token htoken)
    case renewed =>
      intro w id credential hrenewed
      rcases h.log.renewed w id credential hrenewed with hwaits | htaken | hdead
      · exact .inl hwaits
      · exact .inr (.inl htaken)
      · exact .inr (.inr (hdead.later hl fun row secret hrow hsecret => .inl ⟨row, hrow, hsecret⟩))

/-- What `insertAccount` writes: a row that is new, or of the same account name. -/
theorem insertAccount_cases (hn : s.insertAccount id = some t) :
    ∃ login account row, s.logins.lookup id = some login ∧ row.secret = some login.encrypted ∧
      t = { s with
        logins := s.logins.erase id
        accounts := s.accounts.insert account row
        log := .stored account login.refreshToken :: s.log } ∧
      (account = id ∨ ∃ row', s.accounts.lookup account = some row' ∧ SameRow row row') := by
  obtain ⟨login, hlogin, hn⟩ := Option.bind_eq_some_iff.mp hn
  dsimp only at hn
  split at hn
  next entry hfind =>
    obtain rfl := Option.some.inj hn
    have hentry := Table.lookup_eq_some_iff.mpr (List.mem_of_find?_eq_some hfind)
    exact ⟨login, entry.1, _, hlogin, rfl, rfl, .inr ⟨entry.2, hentry, rfl, rfl⟩⟩
  next =>
    obtain rfl := Option.some.inj hn
    exact ⟨login, id, _, hlogin, rfl, rfl, .inl rfl⟩

theorem Kept.insertAccount (h : s.Kept p) (hn : s.insertAccount id = some t) : t.Kept p := by
  obtain ⟨login, account, row, hlogin, hsecret, rfl, hwhere⟩ := insertAccount_cases hn
  have hkept := h.logins id login hlogin
  have hl : s.Later { s with
      logins := s.logins.erase id
      accounts := s.accounts.insert account row
      log := .stored account login.refreshToken :: s.log } := by
    constructor
    case issued => exact le_rfl
    case drawn => exact le_rfl
    case logins =>
      intro id' login' hlogin'
      rw [Table.lookup_erase_eq] at hlogin'
      split_ifs at hlogin'
      exact .inl hlogin'
    case queue => exact fun entry hentry => .inl hentry
  have hunsettled : s.Unsettled login.refreshToken := .inl ⟨id, login, hlogin, rfl⟩
  constructor
  case workers =>
    intro w worker hworker
    obtain ⟨hlt, hthis⟩ := h.workers w worker hworker
    refine ⟨hlt, hthis.later hl fun found hfound => ?_⟩
    rw [Table.lookup_insert_eq] at hfound
    split_ifs at hfound with heq
    · obtain rfl := Option.some.inj hfound
      rcases hwhere with rfl | ⟨row', hrow', hsame⟩
      · have hnone := hthis.inserted
        rw [heq, hlogin] at hnone
        cases hnone
      · exact ⟨row', heq ▸ hrow', hsame⟩
    · exact ⟨found, hfound, .refl found⟩
  case logins =>
    intro id' login' hlogin'
    rw [Table.lookup_erase_eq] at hlogin'
    split_ifs at hlogin' with hne
    have hother := h.logins id' login' hlogin'
    constructor
    case drawn => exact hother.drawn
    case issued => exact hother.issued
    case opens => exact hother.opens
    case account =>
      refine (AList.lookup_insert_ne ?_).trans hother.account
      rintro rfl
      rcases hwhere with rfl | ⟨row', hrow', -⟩
      · exact hne rfl
      · rw [hother.account] at hrow'
        cases hrow'
    case alone =>
      intro id'' login'' hlogin'' hsame
      rw [Table.lookup_erase_eq] at hlogin''
      split_ifs at hlogin''
      exact hother.alone id'' login'' hlogin'' hsame
    case queue => exact hother.queue
    case log =>
      intro event hevent
      rcases List.mem_cons.mp hevent with rfl | hold
      · exact fun hsame => hne (hkept.alone id' login' hlogin' (Option.some.inj hsame).symm)
      · exact hother.log event hold
  case queue =>
    constructor
    case order => exact h.queue.order
    case issued => exact h.queue.issued
    case newer => exact h.queue.newer
    case log =>
      intro entry hentry
      obtain ⟨worker, hworker, hrenewed⟩ := h.queue.log entry hentry
      exact ⟨worker, hworker, List.mem_cons_of_mem _ hrenewed⟩
  case rows =>
    intro id' found hfound
    rw [Table.lookup_insert_eq] at hfound
    split_ifs at hfound with heq
    · subst heq
      obtain rfl := Option.some.inj hfound
      refine ⟨login.encrypted, login.refreshToken, login.refreshToken, ?_⟩
      constructor
      case drawn =>
        rcases hwhere with rfl | ⟨row', hrow', -⟩
        · exact hkept.drawn
        · obtain ⟨secret, token, first, hrow⟩ := h.rows _ row' hrow'
          exact hrow.drawn
      case holds => exact hsecret
      case opens => exact hkept.opens
      case settled =>
        refine ⟨hkept.issued, ?_⟩
        rintro (⟨id'', login'', hlogin'', hsame⟩ | ⟨entry, hentry, hsame⟩)
        · rw [Table.lookup_erase_eq] at hlogin''
          split_ifs at hlogin'' with hne
          exact hne (hkept.alone id'' login'' hlogin'' hsame)
        · exact (hkept.queue entry hentry).1 hsame
      case stored => exact if_pos rfl
      case chain => exact .refl
    · obtain ⟨secret, token, first, hrow⟩ := h.rows id' found hfound
      exact ⟨secret, token, first, hrow.later hl (if_neg (Ne.symm heq)) (List.subset_cons_self _ _) rfl⟩
  case log =>
    constructor
    case once =>
      refine List.pairwise_cons.mpr ⟨fun event hevent token htoken => ?_, h.log.once⟩
      rw [← htoken]
      exact hkept.log event hevent
    case issued =>
      intro event hevent token htoken
      rcases List.mem_cons.mp hevent with rfl | hold
      · rw [← Option.some.inj htoken]
        exact hkept.issued
      · exact h.log.issued event hold token htoken
    case renewed =>
      intro w id' credential hrenewed
      have hold : .renewed w id' credential ∈ s.log := by simpa using hrenewed
      rcases h.log.renewed w id' credential hold with hwaits | ⟨identity, htaken, hnot⟩ | hdead
      · exact .inl hwaits
      · exact .inr (.inl ⟨identity, List.mem_cons_of_mem _ htaken, hnot⟩)
      · refine .inr (.inr (hdead.later hl fun found secret hfound hopens => ?_))
        rw [Table.lookup_insert_eq] at hfound
        split_ifs at hfound
        · obtain rfl := Option.some.inj hfound
          rw [hsecret] at hopens
          obtain rfl := Option.some.inj hopens
          exact .inr ⟨_, hkept.opens, hunsettled⟩
        · exact .inl ⟨found, hfound, hopens⟩

end CredentialStore

end SteamBee.Steam
