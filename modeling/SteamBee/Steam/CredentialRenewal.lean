import SteamBee.Steam.RenewalChain

/-! A renewal replaces the stored token if it renews it, in whatever order renewals and logins
come: none is lost, and none of another chain, account or Steam identity is stored. -/
namespace SteamBee.Steam

namespace CredentialStore
variable {σ : Type} {p : Secrets σ} {s t : CredentialStore σ} {id : Uuid} {w : WorkerId}
  {worker : CredentialWorker σ} {row : StoredAccount σ} {credential : RenewedCredential}
  {token : Token}

/-! ## Renewals -/

theorem Kept.renew {previous : Token} {steamId : String} {current : Bool} (h : s.Kept p)
    (hn : s.renew w previous steamId current = some t) : t.Kept p := by
  obtain ⟨worker, hworker, hn⟩ := Option.bind_eq_some_iff.mp hn
  obtain ⟨hmem, hn⟩ := (Option.ite_none_right_eq_some).mp hn
  obtain rfl := Option.some.inj hn
  obtain ⟨hw, hkept⟩ := h.workers w worker hworker
  have hfollowed := hkept.renewing previous hmem
  have hclient (token : Token) (htoken : (if current then some s.issued else worker.client) =
      some token) : token = s.issued ∨ worker.client = some token := by
    cases current with
    | true => exact .inl (Option.some.inj htoken).symm
    | false => exact .inr htoken
  generalize (if current then some s.issued else worker.client) = client at hclient ⊢
  have hl : s.Later ({ s with
      issued := s.issued + 1
      queue := s.queue ++ [(w, (⟨s.issued, previous, steamId⟩ : RenewedCredential))]
      workers := s.workers.insert w { worker with
        renewing := worker.renewing.erase previous
        client }
      }.note (.renewed w worker.accountId ⟨s.issued, previous, steamId⟩)) := by
    constructor
    case issued => exact Nat.le_succ _
    case drawn => exact le_rfl
    case logins => exact fun id login hlogin => .inl hlogin
    case queue =>
      intro entry hentry
      rcases List.mem_append.mp hentry with hold | hnew
      · exact .inl hold
      · rw [List.mem_singleton.mp hnew]
        exact .inr le_rfl
  constructor
  case workers =>
    intro other found hfound
    simp only [note] at hfound
    rw [Table.lookup_insert_eq] at hfound
    split_ifs at hfound with heq
    · subst heq
      obtain rfl := Option.some.inj hfound
      have hthis := hkept.later hl fun row hrow => ⟨row, hrow, .refl row⟩
      refine ⟨hw, { hthis with client := fun token htoken => ?_, renewing := fun token htoken => ?_ }⟩
      · rcases hclient token htoken with rfl | hold
        · constructor
          case issued => exact Nat.lt_succ_self _
          case logins => exact fun id login hlogin => (h.logins id login hlogin).issued.ne
          case queue =>
            intro entry hentry hsame
            rcases List.mem_append.mp hentry with hold | hnew
            · exact absurd hsame (h.queue.issued entry hold).ne
            · rw [List.mem_singleton.mp hnew]
        · exact hthis.client token hold
      · exact hthis.renewing token (List.mem_of_mem_erase htoken)
    · obtain ⟨hlt, hother⟩ := h.workers other found hfound
      exact ⟨hlt, hother.later hl fun row hrow => ⟨row, hrow, .refl row⟩⟩
  case logins =>
    intro id login hlogin
    have hother := h.logins id login hlogin
    constructor
    case drawn => exact hother.drawn
    case issued => exact Nat.lt_succ_of_lt hother.issued
    case opens => exact hother.opens
    case account => exact hother.account
    case alone => exact hother.alone
    case queue =>
      intro entry hentry
      rcases List.mem_append.mp hentry with hold | hnew
      · exact hother.queue entry hold
      · rw [List.mem_singleton.mp hnew]
        exact ⟨hother.issued.ne', (hfollowed.logins id login hlogin).symm⟩
    case log =>
      intro event hevent
      rcases List.mem_cons.mp hevent with rfl | hold
      · exact fun hsame => hother.issued.ne' (Option.some.inj hsame)
      · exact hother.log event hold
  case queue =>
    constructor
    case order =>
      refine List.pairwise_append.mpr ⟨h.queue.order, List.pairwise_singleton _ _, ?_⟩
      intro entry hentry later hlater
      rw [List.mem_singleton.mp hlater]
      exact ⟨h.queue.issued entry hentry, hfollowed.queue entry hentry⟩
    case issued =>
      intro entry hentry
      rcases List.mem_append.mp hentry with hold | hnew
      · exact Nat.lt_succ_of_lt (h.queue.issued entry hold)
      · rw [List.mem_singleton.mp hnew]
        exact Nat.lt_succ_self _
    case newer =>
      intro entry hentry
      rcases List.mem_append.mp hentry with hold | hnew
      · exact h.queue.newer entry hold
      · rw [List.mem_singleton.mp hnew]
        exact hfollowed.issued
    case log =>
      intro entry hentry
      rcases List.mem_append.mp hentry with hold | hnew
      · obtain ⟨found, hfound, hrenewed⟩ := h.queue.log entry hold
        by_cases heq : entry.1 = w
        · rw [heq, hworker] at hfound
          obtain rfl := Option.some.inj hfound
          refine ⟨{ worker with renewing := worker.renewing.erase previous, client }, ?_,
            List.mem_cons_of_mem _ hrenewed⟩
          rw [heq]
          exact AList.lookup_insert _
        · exact ⟨found, (AList.lookup_insert_ne heq).trans hfound,
            List.mem_cons_of_mem _ hrenewed⟩
      · rw [List.mem_singleton.mp hnew]
        exact ⟨_, AList.lookup_insert _, List.mem_cons_self⟩
  case rows =>
    intro id row hrow
    obtain ⟨secret, token, first, hrow⟩ := h.rows id row hrow
    exact ⟨secret, token, first, hrow.later hl rfl (List.subset_cons_self _ _) rfl⟩
  case log =>
    constructor
    case once =>
      refine List.pairwise_cons.mpr ⟨fun event hevent token htoken hsame => ?_, h.log.once⟩
      rw [← Option.some.inj htoken] at hsame
      exact lt_irrefl _ (h.log.issued event hevent _ hsame)
    case issued =>
      intro event hevent token htoken
      rcases List.mem_cons.mp hevent with rfl | hold
      · rw [← Option.some.inj htoken]
        exact Nat.lt_succ_self _
      · exact Nat.lt_succ_of_lt (h.log.issued event hold token htoken)
    case renewed =>
      intro other id credential hrenewed
      rcases List.mem_cons.mp hrenewed with heq | hold
      · cases heq
        exact .inl (List.mem_append_right _ (List.mem_singleton_self _))
      · rcases h.log.renewed other id credential hold with hwaits | ⟨identity, htaken, hnot⟩ | hdead
        · exact .inl (List.mem_append_left _ hwaits)
        · exact .inr (.inl ⟨identity, List.mem_cons_of_mem _ htaken, hnot⟩)
        · exact .inr (.inr (hdead.later hl fun row secret hrow hsecret => .inl ⟨row, hrow, hsecret⟩))

/-- The guards of `persistRefreshToken` against the row of the worker's account: it replaces the
token if it is the predecessor and the renewal belongs to the account, and else does nothing. -/
theorem persistRefreshToken_cases {secret : σ} (iv : ℕ)
    (hrow : s.accounts.lookup worker.accountId = some row) (hsecret : row.secret = some secret)
    (hopens : p.decryptSecret secret = some token) (hsame : SameRow row worker.account)
    (hnew : credential.previousRefreshToken < credential.refreshToken) :
    token = credential.previousRefreshToken ∧
      credential.Belongs (s.identity p worker.accountId credential.previousRefreshToken) ∧
      s.persistRefreshToken p w worker credential iv = { s with
        accounts := s.accounts.insert worker.accountId
          { row with secret := some (p.encryptSecret credential.refreshToken iv) }
        workers := s.workers.insert w { worker with account :=
          { worker.account with secret := some (p.encryptSecret credential.refreshToken iv) } } } ∨
    (token ≠ credential.previousRefreshToken ∨
      ¬ credential.Belongs (s.identity p worker.accountId credential.previousRefreshToken)) ∧
      s.persistRefreshToken p w worker credential iv = s := by
  have hidentity : s.identity p worker.accountId credential.previousRefreshToken =
      row.steamId.or (p.subject credential.previousRefreshToken) := by
    rw [identity, hrow, Option.bind_some]
  rw [hidentity]
  unfold persistRefreshToken RenewedCredential.Belongs
  simp only [hrow, hsecret, hopens]
  rw [if_neg (by simp [hsame.1, hsame.2])]
  split_ifs with hformat hidentity htoken
  · exact .inr ⟨.inr (by simp [hformat]), rfl⟩
  · refine .inr ⟨.inr ?_, rfl⟩
    rintro ⟨-, heq⟩
    cases hsteam : row.steamId with
    | none => simp_all
    | some steamId => simp_all
  · refine .inr ⟨.inl ?_, rfl⟩
    rcases htoken with hne | rfl
    · exact hne
    · exact hnew.ne'
  · refine .inl ⟨?_, ⟨by simpa using hformat, ?_⟩, rfl⟩
    · exact not_not.mp fun hne => htoken (.inl hne)
    · cases hsteam : row.steamId with
      | none => simp_all
      | some steamId => simp_all

/-- The renewal that is worked off next: nothing that may be stored precedes it or is its own. -/
structure Head (s : CredentialStore σ) (w : WorkerId) (credential : RenewedCredential) : Prop where
  mem : (w, credential) ∈ s.queue
  previous : s.Settled credential.previousRefreshToken
  others : ∀ entry ∈ s.queue, entry.2.refreshToken = credential.refreshToken →
    entry = (w, credential)
  logins : ∀ id login, s.logins.lookup id = some login →
    login.refreshToken ≠ credential.refreshToken

theorem Kept.head {entry : WorkerId × RenewedCredential} (h : s.Kept p)
    (hfind : (s.queue.find? fun entry => entry.1 == w) = some entry) :
    entry.1 = w ∧ s.Head w entry.2 := by
  obtain ⟨hw, before, after, hqueue, hbefore⟩ := List.find?_eq_some_iff_append.mp hfind
  have hw : entry.1 = w := by simpa using hw
  subst hw
  have hmem : entry ∈ s.queue := by simp [hqueue]
  have horder := h.queue.order
  rw [hqueue] at horder
  obtain ⟨-, hafter, hleft⟩ := List.pairwise_append.mp horder
  have hafter := (List.pairwise_cons.mp hafter).1
  have hnewer := h.queue.newer entry hmem
  refine ⟨rfl, ?_⟩
  constructor
  case mem => exact hmem
  case previous =>
    refine ⟨hnewer.trans (h.queue.issued entry hmem), ?_⟩
    rintro (⟨id, login, hlogin, hsame⟩ | ⟨other, hother, hsame⟩)
    · exact ((h.logins id login hlogin).queue entry hmem).2 hsame.symm
    · rw [hqueue] at hother
      rcases List.mem_append.mp hother with hother | hother
      · have hworker := (hleft other hother entry List.mem_cons_self).2 hsame
        simpa [hworker] using hbefore other hother
      · rcases List.mem_cons.mp hother with rfl | hother
        · exact hnewer.ne' hsame
        · exact (hnewer.trans (hafter other hother).1).ne' hsame
  case others =>
    intro other hother hsame
    rw [hqueue] at hother
    rcases List.mem_append.mp hother with hother | hother
    · exact absurd hsame (hleft other hother entry List.mem_cons_self).1.ne
    · rcases List.mem_cons.mp hother with rfl | hother
      · rfl
      · exact absurd hsame (hafter other hother).1.ne'
  case logins =>
    exact fun id login hlogin => ((h.logins id login hlogin).queue entry hmem).1.symm

/-- What working off a renewal may do to the rows and the workers. -/
theorem Kept.take {accounts : Table Uuid (StoredAccount σ)}
    {workers : Table WorkerId (CredentialWorker σ)} {identity : Option String} (h : s.Kept p)
    (hworker : s.workers.lookup w = some worker) (hhead : s.Head w credential)
    (hworkers : ∀ w worker, workers.lookup w = some worker → w < s.drawn ∧ s.WorkerKept w worker)
    (hids : ∀ w worker, s.workers.lookup w = some worker →
      ∃ worker', workers.lookup w = some worker' ∧ worker'.accountId = worker.accountId)
    (hrows : ∀ id row, accounts.lookup id = some row → ∃ row', s.accounts.lookup id = some row' ∧
      SameRow row row' ∧ (row.secret = row'.secret ∨ id = worker.accountId ∧
        credential.Belongs identity ∧ ∃ secret secret', row.secret = some secret ∧
          p.decryptSecret secret = some credential.refreshToken ∧ row'.secret = some secret' ∧
          p.decryptSecret secret' = some credential.previousRefreshToken))
    (hleft : credential.Belongs identity → ∀ row secret,
      accounts.lookup worker.accountId = some row → row.secret = some secret →
        p.decryptSecret secret ≠ some credential.previousRefreshToken) :
    Kept p { s with
      queue := s.queue.erase (w, credential)
      log := .taken w credential identity :: s.log
      accounts
      workers } := by
  have hnodup : s.queue.Nodup := by
    refine h.queue.order.imp fun {entry later} hlt heq => ?_
    subst heq
    exact lt_irrefl _ hlt.1
  have herase {entry : WorkerId × RenewedCredential}
      (hentry : entry ∈ s.queue.erase (w, credential)) :
      entry ∈ s.queue ∧ entry.2.refreshToken ≠ credential.refreshToken := by
    obtain ⟨hne, hmem⟩ := hnodup.mem_erase_iff.mp hentry
    exact ⟨hmem, fun hsame => hne (hhead.others entry hmem hsame)⟩
  have hl : s.Later { s with
      queue := s.queue.erase (w, credential)
      log := .taken w credential identity :: s.log
      accounts
      workers } := by
    constructor
    case issued => exact le_rfl
    case drawn => exact le_rfl
    case logins => exact fun id login hlogin => .inl hlogin
    case queue => exact fun entry hentry => .inl (herase hentry).1
  have hunsettled : s.Unsettled credential.refreshToken := .inr ⟨_, hhead.mem, rfl⟩
  constructor
  case workers =>
    intro other found hfound
    obtain ⟨hlt, hkept⟩ := hworkers other found hfound
    refine ⟨hlt, hkept.later hl fun row hrow => ?_⟩
    obtain ⟨row', hrow', hsame, -⟩ := hrows _ row hrow
    exact ⟨row', hrow', hsame⟩
  case logins =>
    intro id login hlogin
    have hkept := h.logins id login hlogin
    constructor
    case drawn => exact hkept.drawn
    case issued => exact hkept.issued
    case opens => exact hkept.opens
    case account =>
      cases hrow : accounts.lookup id with
      | none => rfl
      | some row =>
        obtain ⟨row', hrow', -⟩ := hrows id row hrow
        rw [hkept.account] at hrow'
        cases hrow'
    case alone => exact hkept.alone
    case queue => exact fun entry hentry => hkept.queue entry (herase hentry).1
    case log =>
      intro event hevent
      rcases List.mem_cons.mp hevent with rfl | hold
      · exact fun hnone => by cases hnone
      · exact hkept.log event hold
  case queue =>
    constructor
    case order => exact h.queue.order.sublist List.erase_sublist
    case issued => exact fun entry hentry => h.queue.issued entry (herase hentry).1
    case newer => exact fun entry hentry => h.queue.newer entry (herase hentry).1
    case log =>
      intro entry hentry
      obtain ⟨found, hfound, hrenewed⟩ := h.queue.log entry (herase hentry).1
      obtain ⟨found', hfound', hid⟩ := hids _ found hfound
      exact ⟨found', hfound', hid ▸ List.mem_cons_of_mem _ hrenewed⟩
  case rows =>
    intro id row hrow
    obtain ⟨row', hrow', -, hsecret⟩ := hrows id row hrow
    obtain ⟨secret, token, first, hkept⟩ := h.rows id row' hrow'
    rcases hsecret with hsame | ⟨rfl, hbelongs, new, old, hnew, hopens, hold, hprevious⟩
    · exact ⟨secret, token, first, hkept.later hl rfl (List.subset_cons_self _ _) hsame⟩
    · -- the predecessor was the end of the chain
      rw [hkept.holds] at hold
      obtain rfl := Option.some.inj hold
      rw [hkept.opens] at hprevious
      obtain rfl := Option.some.inj hprevious
      have hlater := hkept.later hl rfl (List.subset_cons_self _ _) rfl
      obtain ⟨found, hfound, hrenewed⟩ := h.queue.log _ hhead.mem
      rw [hworker] at hfound
      obtain rfl := Option.some.inj hfound
      refine ⟨new, credential.refreshToken, first, ?_⟩
      constructor
      case drawn => exact hlater.drawn
      case holds => exact hnew
      case opens => exact hopens
      case settled =>
        refine ⟨h.queue.issued _ hhead.mem, ?_⟩
        rintro (⟨id, login, hlogin, hsame⟩ | ⟨entry, hentry, hsame⟩)
        · exact hhead.logins id login hlogin hsame
        · exact (herase hentry).2 hsame
      case stored => exact hlater.stored
      case chain =>
        exact hlater.chain.tail ⟨w, credential, identity, List.mem_cons_of_mem _ hrenewed,
          List.mem_cons_self, hbelongs, rfl, rfl⟩
  case log =>
    constructor
    case once =>
      exact List.pairwise_cons.mpr ⟨fun event _ token hnone => (by cases hnone), h.log.once⟩
    case issued =>
      intro event hevent token htoken
      rcases List.mem_cons.mp hevent with rfl | hold
      · cases htoken
      · exact h.log.issued event hold token htoken
    case renewed =>
      intro other id credential' hrenewed
      have hold : .renewed other id credential' ∈ s.log := by simpa using hrenewed
      rcases h.log.renewed other id credential' hold with hwaits | ⟨identity', htaken, hnot⟩ | hdead
      · by_cases hthis : (other, credential') = (w, credential)
        · obtain ⟨rfl, rfl⟩ := Prod.mk.inj hthis
          by_cases hbelongs : credential'.Belongs identity
          · obtain ⟨found, hfound, hrenewed'⟩ := h.queue.log _ hhead.mem
            rw [hworker] at hfound
            obtain rfl := Option.some.inj hfound
            cases h.log.once.eq hold hrenewed' rfl rfl
            exact .inr (.inr ⟨hhead.previous.later hl, hleft hbelongs⟩)
          · exact .inr (.inl ⟨identity, List.mem_cons_self, hbelongs⟩)
        · exact .inl (hnodup.mem_erase_iff.mpr ⟨hthis, hwaits⟩)
      · exact .inr (.inl ⟨identity', List.mem_cons_of_mem _ htaken, hnot⟩)
      · refine .inr (.inr (hdead.later hl fun row secret hrow hsecret => ?_))
        obtain ⟨row', hrow', -, hsame | ⟨-, -, new, -, hnew, hopens, -⟩⟩ := hrows id row hrow
        · exact .inl ⟨row', hrow', hsame ▸ hsecret⟩
        · rw [hnew] at hsecret
          obtain rfl := Option.some.inj hsecret
          exact .inr ⟨_, hopens, hunsettled⟩

theorem Kept.takeRenewal {iv : ℕ} (h : s.Kept p) (hn : s.takeRenewal p w iv = some t) :
    t.Kept p := by
  obtain ⟨worker, hworker, hn⟩ := Option.bind_eq_some_iff.mp hn
  obtain ⟨⟨w', credential⟩, hfind, hn⟩ := Option.bind_eq_some_iff.mp hn
  obtain rfl := Option.some.inj hn
  obtain ⟨rfl, hhead⟩ := h.head hfind
  obtain ⟨hw, hkept⟩ := h.workers w' worker hworker
  cases hrow : s.accounts.lookup worker.accountId with
  | none =>
    have hsame : { s with queue := s.queue.erase (w', credential) }.persistRefreshToken p w' worker
        credential iv = { s with queue := s.queue.erase (w', credential) } := by
      simp [persistRefreshToken, hrow]
    rw [hsame]
    refine h.take hworker hhead h.workers (fun _ worker hworker => ⟨worker, hworker, rfl⟩)
      (fun id row hrow => ⟨row, hrow, .refl row, .inl rfl⟩) ?_
    intro _ row secret hfound
    rw [hrow] at hfound
    cases hfound
  | some row =>
    obtain ⟨secret, token, first, hholds⟩ := h.rows _ row hrow
    have hnewer := h.queue.newer _ hhead.mem
    rcases persistRefreshToken_cases (s := { s with queue := s.queue.erase (w', credential) })
      (w := w') iv hrow hholds.holds hholds.opens (hkept.account row hrow) hnewer with
      ⟨rfl, hbelongs, heq⟩ | ⟨hnot, heq⟩
    · rw [heq]
      refine h.take hworker hhead ?_ ?_ ?_ ?_
      · intro other found hfound
        rw [Table.lookup_insert_eq] at hfound
        split_ifs at hfound with hother
        · subst hother
          obtain rfl := Option.some.inj hfound
          exact ⟨hw, { hkept with account := hkept.account }⟩
        · exact h.workers other found hfound
      · intro other found hfound
        by_cases hother : other = w'
        · subst hother
          rw [hworker] at hfound
          obtain rfl := Option.some.inj hfound
          exact ⟨_, AList.lookup_insert _, rfl⟩
        · exact ⟨found, (AList.lookup_insert_ne hother).trans hfound, rfl⟩
      · intro id found hfound
        rw [Table.lookup_insert_eq] at hfound
        split_ifs at hfound with hid
        · subst hid
          obtain rfl := Option.some.inj hfound
          exact ⟨row, hrow, ⟨rfl, rfl⟩, .inr ⟨rfl, hbelongs, _, secret, rfl, p.decrypt_encrypt _ _,
            hholds.holds, hholds.opens⟩⟩
        · exact ⟨found, hfound, .refl found, .inl rfl⟩
      · intro _ found secret' hfound hsecret hopens
        rw [AList.lookup_insert] at hfound
        obtain rfl := Option.some.inj hfound
        obtain rfl := Option.some.inj hsecret
        rw [p.decrypt_encrypt] at hopens
        exact hnewer.ne' (Option.some.inj hopens)
    · rw [heq]
      refine h.take hworker hhead h.workers (fun _ worker hworker => ⟨worker, hworker, rfl⟩)
        (fun id row hrow => ⟨row, hrow, .refl row, .inl rfl⟩) ?_
      intro hbelongs found secret' hfound hsecret hopens
      rw [hrow] at hfound
      obtain rfl := Option.some.inj hfound
      rw [hholds.holds] at hsecret
      obtain rfl := Option.some.inj hsecret
      rw [hholds.opens] at hopens
      rcases hnot with hne | hnot
      · exact hne (Option.some.inj hopens)
      · exact hnot hbelongs

theorem Kept.next {a : CredentialAction} (h : s.Kept p)
    (hn : (credentialMachine p).next s a = some t) : t.Kept p := by
  cases a with
  | login accountName steamId iv =>
    obtain rfl := Option.some.inj hn
    exact h.persistAccountToken accountName steamId iv
  | insertAccount id => exact h.insertAccount hn
  | createWorker accountId => exact h.createWorker hn
  | readAccount worker => exact h.readAccount hn
  | updateAccount worker => exact h.updateAccount hn
  | startNow worker => exact h.startNow hn
  | logOn worker => exact h.logOn hn
  | requestRenewal worker => exact h.requestRenewal hn
  | renew worker previousRefreshToken steamId current => exact h.renew hn
  | takeRenewal worker iv => exact h.takeRenewal hn
  | loggedOn worker steamId => exact h.loggedOn hn
  | writeSteamId worker => exact h.writeSteamId hn
  | deleteAccount id =>
    obtain rfl := Option.some.inj hn
    exact h.deleteAccount id
  | tick elapsed =>
    obtain rfl := Option.some.inj hn
    exact h.quiet ⟨rfl, rfl, rfl, rfl, le_rfl, fun id row hrow => ⟨row, hrow, .refl row, rfl⟩,
      h.workers, fun w worker hworker => ⟨worker, hworker, rfl⟩⟩

theorem kept_empty (now : ℕ) : (CredentialStore.empty σ now).Kept p := by
  constructor
  case workers => exact fun w worker hworker => by cases hworker
  case logins => exact fun id login hlogin => by cases hlogin
  case queue => constructor <;> simp [CredentialStore.empty]
  case rows => exact fun id row hrow => by cases hrow
  case log => constructor <;> simp [CredentialStore.empty, IssuedOnce]

theorem kept_of_reachable (h : (credentialMachine p).Reachable s) : s.Kept p := by
  apply h.invariant
  · rintro s ⟨now, rfl⟩
    exact kept_empty now
  · intro s t a hs _ hn
    exact hs.next hn

end CredentialStore

/-! ## The laws -/

section Laws
variable {σ : Type} {p : Secrets σ} {s : CredentialStore σ}

def CredentialStore.Holds (p : Secrets σ) (s : CredentialStore σ) (id : Uuid) (token : Token) :
    Prop :=
  ∃ row secret, s.accounts.lookup id = some row ∧ row.secret = some secret ∧
    p.decryptSecret secret = some token

/-- The stored token is on the chain of the last login, and on no other. It is the end of it: of
its renewals by clients of the account, those for the account's identity are still to be worked
off. -/
structure CredentialLaws (p : Secrets σ) (s : CredentialStore σ) : Prop where
  holds : ∀ id row, s.accounts.lookup id = some row → ∃ token, s.Holds p id token
  chain : ∀ id token, s.Holds p id token → ∃ first, lastStored id s.log = some first ∧
    Relation.ReflTransGen (Renews s.log id) first token ∧
    ∀ id' other, .stored id' other ∈ s.log →
      Relation.ReflTransGen (Renews s.log id') other token → id' = id ∧ other = first
  newest : ∀ id token w credential, s.Holds p id token → .renewed w id credential ∈ s.log →
    credential.previousRefreshToken = token → (w, credential) ∈ s.queue ∨
      ∃ identity, .taken w credential identity ∈ s.log ∧ ¬ credential.Belongs identity

theorem mem_of_lastStored {id : Uuid} {first : Token} {log : List CredentialEvent}
    (h : lastStored id log = some first) : .stored id first ∈ log := by
  induction log with
  | nil => cases h
  | cons event log ih =>
    cases event with
    | stored id' token =>
      rw [lastStored] at h
      split_ifs at h with heq
      · obtain rfl := Option.some.inj h
        rw [heq]
        exact List.mem_cons_self
      · exact List.mem_cons_of_mem _ (ih h)
    | renewed | taken => exact List.mem_cons_of_mem _ (ih h)

theorem credentialLaws_of_reachable (h : (credentialMachine p).Reachable s) :
    CredentialLaws p s := by
  have hkept := CredentialStore.kept_of_reachable h
  constructor
  case holds =>
    intro id row hrow
    obtain ⟨secret, token, first, hholds⟩ := hkept.rows id row hrow
    exact ⟨token, row, secret, hrow, hholds.holds, hholds.opens⟩
  case chain =>
    rintro id token ⟨row, secret, hrow, hsecret, hopens⟩
    obtain ⟨secret', token', first, hholds⟩ := hkept.rows id row hrow
    rw [hholds.holds] at hsecret
    obtain rfl := Option.some.inj hsecret
    rw [hholds.opens] at hopens
    obtain rfl := Option.some.inj hopens
    refine ⟨first, hholds.stored, hholds.chain, fun id' other hstored hchain => ?_⟩
    exact hkept.log.once.chain_eq (mem_of_lastStored hholds.stored) hstored hholds.chain hchain
  case newest =>
    rintro id token w credential ⟨row, secret, hrow, hsecret, hopens⟩ hrenewed rfl
    rcases hkept.log.renewed w id credential hrenewed with hwaits | htaken | hdead
    · exact .inl hwaits
    · exact .inr htaken
    · exact absurd hopens (hdead.2 row secret hrow hsecret)

end Laws

/-- Secrets that keep the iv beside the token, of the one Steam id. -/
def plainSecrets : Secrets (Token × ℕ) where
  encryptSecret token iv := (token, iv)
  decryptSecret secret := some secret.1
  decrypt_encrypt _ _ := rfl
  subject _ := some "76561198000000001"

/-- Two clients renew the first credential while a second one is stored; then one of them logs on
with that and renews it. -/
def renewedBee : CredentialStore (Token × ℕ) :=
  ((credentialMachine plainSecrets).exec (.empty _ 0) [
    .login "bee" (some steamId) 0, .insertAccount 0, .createWorker 0, .createWorker 0,
    .startNow 1, .startNow 2, .logOn 1, .logOn 2, .requestRenewal 1, .requestRenewal 2,
    .login "bee" none 1, .renew 1 0 steamId true, .insertAccount 3, .renew 2 0 steamId true,
    .takeRenewal 2 2, .takeRenewal 1 3, .startNow 2, .logOn 2, .requestRenewal 2,
    .renew 2 1 steamId false, .takeRenewal 2 4]).getD (.empty _ 0)
where
  steamId : String := "76561198000000001"

theorem credentialLaws_renewedBee :
    CredentialLaws plainSecrets renewedBee ∧ lastStored 0 renewedBee.log = some 1 ∧
      (renewedBee.accounts.lookup 0).bind (fun row => row.secret) = some (4, 4) := by
  have hstarts : (credentialMachine plainSecrets).Starts (.empty _ 0) := ⟨0, rfl⟩
  have hreachable : (credentialMachine plainSecrets).Reachable renewedBee :=
    Transition.Machine.reachable_exec hstarts (by decide +kernel)
  exact ⟨credentialLaws_of_reachable hreachable, by decide +kernel, by decide +kernel⟩

end SteamBee.Steam
