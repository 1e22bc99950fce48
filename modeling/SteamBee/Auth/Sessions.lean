import SteamBee.Auth.Service

/-! A password change ends the sessions of the old password, unless a login that
verified the old hash stores its session after the last statement of the change. -/
namespace SteamBee.Auth

namespace Reply

def replaces (credential : ℕ) : Reply → Bool
  | .passwordChanged _ generation _ => credential < generation
  | _ => false

def isQuiet : Reply → Prop
  | .passwordChanged _ _ _ => False
  | _ => True

end Reply

namespace AuthService
variable {p : Crypto} {s t : AuthService} {id : ℕ}

/-- The row is not older than any change that returned, its caller's session apart. -/
def Outlives (replies : List Reply) (sessionId : SessionId) (row : AdminSession) : Prop :=
  ∀ current generation revoked, .passwordChanged current generation revoked ∈ replies →
    sessionId ≠ current → generation ≤ row.credential

/-- No session of a password that was changed is left, but the one that changed it. -/
def OldEnded (s : AuthService) : Prop :=
  ∀ sessionId row, s.sessions.lookup sessionId = some row → Outlives s.replies sessionId row

def settledReply : Call → Option Reply
  | .settled reply => some reply
  | _ => none

/-- The replies of the calls whose last statement took effect, returned or not. -/
def outcomes (s : AuthService) : List Reply :=
  (s.calls.waiting.entries.filterMap fun e => settledReply e.2) ++ s.replies

def OldEndedAtLast (s : AuthService) : Prop :=
  ∀ sessionId row, s.sessions.lookup sessionId = some row → Outlives s.outcomes sessionId row

/-- No login stores its session once a change that replaced the hash it verified has run
its last statement. -/
def inTime (s : AuthService) : Action → Bool
  | .resume id _ =>
    match s.calls.waiting.lookup id with
    | some (.createSessionInsert _ row) => s.outcomes.all fun r => !r.replaces row.credential
    | _ => true
  | _ => true

theorem settledReply_eq_some_iff {call : Call} {reply : Reply} :
    settledReply call = some reply ↔ call = .settled reply := by
  cases call <;> simp [settledReply]

theorem mem_outcomes_iff {reply : Reply} : reply ∈ s.outcomes ↔
    (∃ k, s.calls.waiting.lookup k = some (.settled reply)) ∨ reply ∈ s.replies := by
  unfold outcomes
  rw [List.mem_append, List.mem_filterMap]
  refine or_congr_left ⟨?_, ?_⟩
  · rintro ⟨⟨k, call⟩, hmem, hcall⟩
    obtain rfl := settledReply_eq_some_iff.mp hcall
    exact ⟨k, Table.lookup_eq_some_iff.mpr hmem⟩
  · rintro ⟨k, hk⟩
    exact ⟨_, Table.lookup_eq_some_iff.mp hk, rfl⟩

theorem OldEndedAtLast.oldEnded (h : s.OldEndedAtLast) : s.OldEnded := by
  intro sessionId row hrow current generation revoked hmem hne
  exact h sessionId row hrow current generation revoked (mem_outcomes_iff.mpr (.inr hmem)) hne

theorem mem_outcomes_await {call : Call} {reply : Reply}
    (h : reply ∈ (s.await id call).outcomes) : call = .settled reply ∨ reply ∈ s.outcomes := by
  rcases mem_outcomes_iff.mp h with ⟨k, hk⟩ | hmem
  · rcases Transition.Calls.eq_or_lookup_of_await hk with hcall | hk
    · exact .inl hcall.symm
    · exact .inr (mem_outcomes_iff.mpr (.inl ⟨k, hk⟩))
  · exact .inr (mem_outcomes_iff.mpr (.inr hmem))

theorem mem_outcomes_begins {call : Call} {reply : Reply}
    (h : reply ∈ (s.begins call).outcomes) : call = .settled reply ∨ reply ∈ s.outcomes := by
  rcases mem_outcomes_iff.mp h with ⟨k, hk⟩ | hmem
  · rcases Transition.Calls.eq_or_lookup_of_start hk with hcall | hk
    · exact .inl hcall.symm
    · exact .inr (mem_outcomes_iff.mpr (.inl ⟨k, hk⟩))
  · exact .inr (mem_outcomes_iff.mpr (.inr hmem))

/-- Statements that keep the rows, or some of them, or what they verified, and settle no
change. -/
theorem OldEndedAtLast.keeps (h : s.OldEndedAtLast)
    (houtcomes : ∀ reply ∈ t.outcomes, reply.isQuiet ∨ reply ∈ s.outcomes)
    (hrows : ∀ sessionId row, t.sessions.lookup sessionId = some row →
      ∃ row', s.sessions.lookup sessionId = some row' ∧ row'.credential = row.credential) :
    t.OldEndedAtLast := by
  intro sessionId row hrow current generation revoked hmem hne
  obtain ⟨row', hrow', hcred⟩ := hrows sessionId row hrow
  rw [← hcred]
  rcases houtcomes _ hmem with hq | hmem
  · exact hq.elim
  · exact h sessionId row' hrow' current generation revoked hmem hne

/-- The other fields do not matter. -/
theorem OldEndedAtLast.same (h : s.OldEndedAtLast) (houtcomes : t.outcomes = s.outcomes)
    (hrows : t.sessions = s.sessions) : t.OldEndedAtLast :=
  h.keeps (fun _ hmem => .inr (houtcomes ▸ hmem)) fun _ row hrow => ⟨row, hrows ▸ hrow, rfl⟩

theorem OldEndedAtLast.await (h : s.OldEndedAtLast) {call : Call}
    (hcall : settledReply call = none) : (s.await id call).OldEndedAtLast := by
  refine h.keeps (fun reply hmem => ?_) fun _ row hrow => ⟨row, hrow, rfl⟩
  rcases mem_outcomes_await hmem with rfl | hmem
  · cases hcall
  · exact .inr hmem

theorem OldEndedAtLast.begins (h : s.OldEndedAtLast) {call : Call}
    (hcall : settledReply call = none) : (s.begins call).OldEndedAtLast := by
  refine h.keeps (fun reply hmem => ?_) fun _ row hrow => ⟨row, hrow, rfl⟩
  rcases mem_outcomes_begins hmem with rfl | hmem
  · cases hcall
  · exact .inr hmem

theorem OldEndedAtLast.settles (h : s.OldEndedAtLast) {reply : Reply} (hq : reply.isQuiet) :
    (s.settles id reply).OldEndedAtLast := by
  refine h.keeps (fun reply' hmem => ?_) fun _ row hrow => ⟨row, hrow, rfl⟩
  rcases mem_outcomes_await hmem with heq | hmem
  · obtain rfl := Call.settled.inj heq
    exact .inl hq
  · exact .inr hmem

theorem OldEndedAtLast.answers (h : s.OldEndedAtLast) {reply : Reply} (hq : reply.isQuiet) :
    (s.answers reply).OldEndedAtLast := by
  refine h.keeps (fun reply' hmem => ?_) fun _ row hrow => ⟨row, hrow, rfl⟩
  rcases mem_outcomes_iff.mp hmem with hwaits | hmem
  · exact .inr (mem_outcomes_iff.mpr (.inl hwaits))
  · rcases List.mem_cons.mp hmem with rfl | hmem
    · exact .inl hq
    · exact .inr (mem_outcomes_iff.mpr (.inr hmem))

/-- A call returns what it settled. -/
theorem OldEndedAtLast.returns (h : s.OldEndedAtLast) {reply : Reply}
    (hcall : s.calls.waiting.lookup id = some (.settled reply)) :
    (s.returns id reply).OldEndedAtLast := by
  refine h.keeps (fun reply' hmem => .inr ?_) fun _ row hrow => ⟨row, hrow, rfl⟩
  rcases mem_outcomes_iff.mp hmem with ⟨k, hk⟩ | hmem
  · exact mem_outcomes_iff.mpr (.inl ⟨k, Transition.Calls.lookup_of_finish hk⟩)
  · rcases List.mem_cons.mp hmem with rfl | hmem
    · exact mem_outcomes_iff.mpr (.inl ⟨id, hcall⟩)
    · exact mem_outcomes_iff.mpr (.inr hmem)

theorem OldEndedAtLast.deleteWhere (h : s.OldEndedAtLast) (q : SessionId → AdminSession → Bool) :
    (s.deleteWhere q).OldEndedAtLast :=
  h.keeps (fun _ hmem => .inr hmem) fun _ row hrow => ⟨row, (Table.lookup_of_retain hrow).1, rfl⟩

theorem OldEndedAtLast.cleanedUp (h : s.OldEndedAtLast) (now expired : ℕ)
    (caller : Option Token) : (s.cleanedUp id now expired caller).OldEndedAtLast := by
  cases caller with
  | none => exact h.settles trivial
  | some token => exact h.await rfl

/-- The last statement of a change leaves only the session of its caller. -/
theorem OldEndedAtLast.othersDeleted (h : s.OldEndedAtLast) {current : SessionId} {others : ℕ}
    (caller : Option ℕ)
    (hrows : ∀ sessionId row, s.sessions.lookup sessionId = some row → sessionId = current) :
    (s.othersDeleted id current others caller).OldEndedAtLast := by
  cases caller with
  | none => exact h.settles trivial
  | some generation =>
    intro sessionId row hrow current' generation' revoked hmem hne
    rcases mem_outcomes_await hmem with heq | hmem
    · injection Call.settled.inj heq with hcurrent
      exact absurd ((hrows sessionId row hrow).trans hcurrent) hne
    · exact h sessionId row hrow current' generation' revoked hmem hne

theorem eq_of_countWhere_isOther {current : SessionId} (h : s.countWhere (isOther current) = 0)
    {sessionId : SessionId} {row : AdminSession} (hrow : s.sessions.lookup sessionId = some row) :
    sessionId = current := by
  have hmem := Table.lookup_eq_some_iff.mp hrow
  have hnot := List.countP_eq_zero.mp h _ hmem
  simpa [isOther] using hnot

theorem eq_of_deleteWhere_isOther {current : SessionId} {sessionId : SessionId}
    {row : AdminSession}
    (hrow : (s.deleteWhere (isOther current)).sessions.lookup sessionId = some row) :
    sessionId = current := by
  have hkept := (Table.lookup_of_retain hrow).2
  simpa [isOther] using hkept

theorem OldEndedAtLast.insertSession (h : s.OldEndedAtLast) (result : SessionResult)
    (row : AdminSession) (hin : s.outcomes.all fun r => !r.replaces row.credential) :
    (s.insertSession id result row).OldEndedAtLast := by
  unfold AuthService.insertSession
  split
  next => exact h.settles trivial
  next =>
    refine OldEndedAtLast.settles ?_ trivial
    intro sessionId row' hrow current generation revoked hmem hne
    have hmem : .passwordChanged current generation revoked ∈ s.outcomes := hmem
    have hrow : (s.sessions.insert result.sessionId row).lookup sessionId = some row' := hrow
    rw [Table.lookup_insert_eq] at hrow
    split_ifs at hrow
    · obtain rfl := Option.some.inj hrow
      have hlt := List.all_eq_true.mp hin _ hmem
      simpa [Reply.replaces] using hlt
    · exact h sessionId row' hrow current generation revoked hmem hne

theorem OldEndedAtLast.resume (h : s.OldEndedAtLast) {salt : ℕ}
    (hin : s.inTime (.resume id salt) = true)
    (ht : s.resume p id salt = some t) : t.OldEndedAtLast := by
  unfold AuthService.resume at ht
  split at ht
  next => cases ht
  next password _ =>
    split at ht
    · obtain rfl := Option.some.inj ht; exact h.settles trivial
    · obtain rfl := Option.some.inj ht; exact h.await rfl
  next user password _ =>
    split_ifs at ht
    · obtain rfl := Option.some.inj ht
      exact (h.same rfl rfl : OldEndedAtLast { s with drawn := s.drawn + 3 }).await rfl
    · obtain rfl := Option.some.inj ht; exact h.settles trivial
  next result row hcall =>
    obtain rfl := Option.some.inj ht
    exact h.insertSession result row (by simpa [inTime, hcall] using hin)
  next now caller _ =>
    dsimp only at ht
    split_ifs at ht
    · obtain rfl := Option.some.inj ht; exact h.cleanedUp _ _ _
    · obtain rfl := Option.some.inj ht; exact h.await rfl
  next now expired caller _ =>
    obtain rfl := Option.some.inj ht
    exact (h.deleteWhere _).cleanedUp _ _ _
  next now token _ =>
    split at ht
    · obtain rfl := Option.some.inj ht; exact h.settles trivial
    · split_ifs at ht
      · obtain rfl := Option.some.inj ht; exact h.await rfl
      · obtain rfl := Option.some.inj ht; exact h.settles trivial
  next now sessionId row _ =>
    obtain rfl := Option.some.inj ht
    have hseen : OldEndedAtLast { s with sessions := s.sessions.modify sessionId fun r =>
        { r with lastSeenAt := now } } := by
      refine h.keeps (fun _ hmem => .inr hmem) fun k row' hrow => ?_
      rw [Table.lookup_modify] at hrow
      split_ifs at hrow with hk
      · obtain ⟨old, hold, rfl⟩ := Option.map_eq_some_iff.mp hrow
        exact ⟨old, hk ▸ hold, rfl⟩
      · exact ⟨row', hrow, rfl⟩
    exact hseen.settles trivial
  next tokenHash _ => obtain rfl := Option.some.inj ht; exact h.await rfl
  next tokenHash _ =>
    obtain rfl := Option.some.inj ht
    exact (h.deleteWhere _).settles trivial
  next sessionId _ =>
    split at ht
    · obtain rfl := Option.some.inj ht; exact h.settles trivial
    · obtain rfl := Option.some.inj ht; exact h.await rfl
  next sessionId _ =>
    obtain rfl := Option.some.inj ht
    exact (h.deleteWhere _).settles trivial
  next current caller _ =>
    dsimp only at ht
    split_ifs at ht with hnone
    · obtain rfl := Option.some.inj ht
      exact h.othersDeleted caller fun _ _ hrow => eq_of_countWhere_isOther hnone hrow
    · obtain rfl := Option.some.inj ht; exact h.await rfl
  next current others caller _ =>
    obtain rfl := Option.some.inj ht
    exact (h.deleteWhere _).othersDeleted caller fun _ _ hrow => eq_of_deleteWhere_isOther hrow
  next currentPassword newPassword current _ =>
    split at ht
    · obtain rfl := Option.some.inj ht; exact h.settles trivial
    · obtain rfl := Option.some.inj ht; exact h.await rfl
  next user currentPassword newPassword current _ =>
    split_ifs at ht
    · obtain rfl := Option.some.inj ht; exact h.await rfl
    · obtain rfl := Option.some.inj ht; exact h.settles trivial
  next newPassword current _ => obtain rfl := Option.some.inj ht; exact h.await rfl
  next passwordHash updatedAt current _ =>
    obtain rfl := Option.some.inj ht
    have hupdated (user : Option AdminUser) : OldEndedAtLast { s with user := user } :=
      h.same rfl rfl
    exact (hupdated _).await rfl
  next reply hcall =>
    obtain rfl := Option.some.inj ht
    exact h.returns hcall

theorem OldEndedAtLast.fail (h : s.OldEndedAtLast) (ht : s.fail id = some t) :
    t.OldEndedAtLast := by
  unfold AuthService.fail at ht
  split at ht
  · cases ht
  · cases ht
  · obtain rfl := Option.some.inj ht
    exact h.settles trivial

theorem OldEndedAtLast.next (h : s.OldEndedAtLast) {a : Action} (hin : s.inTime a = true)
    (ht : (authMachine p).next s a = some t) : t.OldEndedAtLast := by
  cases a with
  | createSession => obtain rfl := Option.some.inj ht; exact h.begins rfl
  | validateSession token =>
    cases token with
    | none => obtain rfl := Option.some.inj ht; exact h.answers trivial
    | some => obtain rfl := Option.some.inj ht; exact h.begins rfl
  | deleteSession token =>
    cases token with
    | none => obtain rfl := Option.some.inj ht; exact h.answers trivial
    | some => obtain rfl := Option.some.inj ht; exact h.begins rfl
  | cleanupExpiredSessions => obtain rfl := Option.some.inj ht; exact h.begins rfl
  | deleteAdminSessionById sessionId current =>
    simp only [authMachine] at ht
    split_ifs at ht
    · obtain rfl := Option.some.inj ht; exact h.answers trivial
    · obtain rfl := Option.some.inj ht; exact h.begins rfl
  | deleteOtherAdminSessions => obtain rfl := Option.some.inj ht; exact h.begins rfl
  | changeAdminPassword => obtain rfl := Option.some.inj ht; exact h.begins rfl
  | resume => exact h.resume hin ht
  | fail => exact h.fail ht
  | tick =>
    obtain rfl := Option.some.inj ht
    exact h.same rfl rfl

theorem oldEndedAtLast_of_reachableWhen
    (h : (authMachine p).ReachableWhen (fun s a => s.inTime a = true) s) : s.OldEndedAtLast := by
  refine h.invariant ?_ fun s a t hs hin ht => hs.next hin ht
  rintro s ⟨hs, -, -⟩ sessionId row hrow
  rw [hs] at hrow
  cases hrow

/-- When no login is late, a change of the password ends the sessions of the old one. -/
theorem old_sessions_end
    (h : (authMachine p).ReachableWhen (fun s a => s.inTime a = true) s) : s.OldEnded :=
  (oldEndedAtLast_of_reachableWhen h).oldEnded

def plainCrypto : Crypto := ⟨fun password _ => password, fun h password => h == password, toString⟩

def admin : AuthService := ⟨0, some ⟨"old", 0, 0⟩, ∅, .empty, 0, []⟩

/-- A login verifies the old password, a change returns, and the login goes on. -/
def lateLogin : List Action :=
  [.createSession "old", .resume 0 0, .resume 0 0, .changeAdminPassword "old" "new" 7, .resume 1 0,
    .resume 1 0, .resume 1 0, .resume 1 0, .resume 1 0, .resume 1 0, .resume 0 0]

theorem late_login_survives :
    ¬∀ s, (authMachine plainCrypto).Reachable s → s.OldEnded := by
  intro h
  have hold := h (((authMachine plainCrypto).exec admin lateLogin).getD admin)
    (Transition.Machine.reachable_exec ⟨rfl, rfl, rfl⟩ (by decide)) 0
    ⟨"1", 2, 604800000, 0, 0, 0⟩ (by decide) 7 1 0 (by decide) (by decide)
  exact absurd hold (by decide)

def changedByFirst : List Action :=
  [.createSession "old", .resume 0 0, .resume 0 0, .resume 0 0, .resume 0 0, .createSession "old",
    .resume 1 0, .resume 1 0, .resume 1 0, .resume 1 0, .changeAdminPassword "old" "new" 0,
    .resume 2 0, .resume 2 0, .resume 2 0, .resume 2 0, .resume 2 0, .resume 2 0, .resume 2 0]

def changedRun : AuthService :=
  ((authMachine plainCrypto).execWhen inTime admin changedByFirst).getD admin

theorem old_sessions_end_changedRun :
    changedRun.replies.head? = some (.passwordChanged 0 1 1) ∧ changedRun.OldEnded :=
  ⟨by decide, old_sessions_end (Transition.Machine.reachable_execWhen (fun _ _ h => h)
    ⟨rfl, rfl, rfl⟩ (by decide))⟩

end AuthService
end SteamBee.Auth
