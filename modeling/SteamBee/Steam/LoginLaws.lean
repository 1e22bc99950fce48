import SteamBee.Steam.Login

/-! A QR login ends once and for all: it stores a token at most once, and only when it was
authenticated in time. -/
namespace SteamBee.Steam

/-! ## Completions -/

/-- The token is inserted first, and the account is started last. -/
structure LoginCompletion.Lawful (c : LoginCompletion) : Prop where
  inserts : c.inserts ≤ 1
  starts : c.starts ≤ c.inserts
  inserting : ∀ login, c.step = some (.inserting login) → c.inserts = 0
  inserted : ∀ step, c.step = some step → (∀ login, step ≠ .inserting login) → c.inserts = 1
  started : c.step ≠ none → c.starts = 0

theorem LoginCompletion.lawful_idle : LoginCompletion.idle.Lawful where
  inserts := Nat.zero_le _
  starts := le_rfl
  inserting _ h := nomatch h
  inserted _ h := nomatch h
  started h := absurd rfl h

theorem LoginCompletion.lawful_inserting (login : PersistedLogin) :
    (⟨some (.inserting login), 0, 0⟩ : LoginCompletion).Lawful where
  inserts := Nat.zero_le _
  starts := le_rfl
  inserting _ _ := rfl
  inserted _ h hne := absurd (Option.some.inj h).symm (hne login)
  started _ := rfl

structure LoginCompletion.Steps (c : LoginCompletion) (ended : Option (Option ConnectedAccount)) :
    Prop where
  lawful : c.Lawful
  goesOn : ended = none → c.step.isSome = true
  finished : ended ≠ none → c.step = none
  connected : ∀ account, ended = some (some account) → c.inserts = 1 ∧ c.starts = 1

namespace Logins
variable {s t u : Logins} {decodeJwtExpiry : String → Option ℕ} {id : LoginId}
  {c c' : LoginCompletion} {ok : Bool} {ended : Option (Option ConnectedAccount)}

theorem eq_of_some {e e' : Option (Option ConnectedAccount)}
    (h : some (s, c, e) = some (t, c', e')) : s = t ∧ c = c' ∧ e = e' := by
  simpa using h

/-- What is thrown ends a completion. -/
theorem steps_thrown (h : c.Lawful) :
    LoginCompletion.Steps { c with step := none } (some none) where
  lawful :=
    { inserts := h.inserts
      starts := h.starts
      inserting := fun _ h => nomatch h
      inserted := fun _ h => nomatch h
      started := fun h => absurd rfl h }
  goesOn h := nomatch h
  finished _ := rfl
  connected _ h := nomatch h

/-- A completion that has inserted its token goes on. -/
theorem steps_inserted {step : LoginStep} (hinserts : c.inserts = 1) (hstarts : c.starts = 0)
    (hstep : ∀ login, step ≠ .inserting login) :
    LoginCompletion.Steps { c with step := some step } none where
  lawful :=
    { inserts := hinserts.le
      starts := by simp [hstarts]
      inserting := fun login h => absurd (Option.some.inj h) (hstep login)
      inserted := fun _ _ _ => hinserts
      started := fun _ => hstarts }
  goesOn _ := rfl
  finished h := absurd rfl h
  connected _ h := nomatch h

theorem steps_of_resume (h : c.Lawful)
    (hn : s.resume decodeJwtExpiry c ok = some (t, c', ended)) : c'.Steps ended := by
  obtain ⟨step, hstep, hn⟩ := Option.bind_eq_some_iff.mp hn
  have hstarts : c.starts = 0 := h.started (by rw [hstep]; exact Option.some_ne_none _)
  cases step with
  | inserting login =>
    have hinserts := h.inserting login hstep
    cases ok with
    | true =>
      obtain ⟨rfl, rfl, rfl⟩ := eq_of_some hn
      exact steps_inserted (c := ⟨none, c.inserts + 1, c.starts⟩) (by simp [hinserts]) hstarts
        fun _ => LoginStep.noConfusion
    | false =>
      obtain ⟨rfl, rfl, rfl⟩ := eq_of_some hn
      exact steps_thrown h
  | finding login =>
    have hinserts := h.inserted _ hstep fun _ => LoginStep.noConfusion
    cases ok with
    | true =>
      obtain ⟨rfl, rfl, rfl⟩ := eq_of_some hn
      exact steps_inserted hinserts hstarts fun _ => LoginStep.noConfusion
    | false =>
      obtain ⟨rfl, rfl, rfl⟩ := eq_of_some hn
      exact steps_thrown h
  | recording account =>
    have hinserts := h.inserted _ hstep fun _ => LoginStep.noConfusion
    obtain ⟨rfl, rfl, rfl⟩ := eq_of_some hn
    exact steps_inserted hinserts hstarts fun _ => LoginStep.noConfusion
  | starting account =>
    have hinserts := h.inserted _ hstep fun _ => LoginStep.noConfusion
    cases ok with
    | true =>
      obtain ⟨rfl, rfl, rfl⟩ := eq_of_some hn
      have hone : c.starts + 1 = 1 := by omega
      have hlawful : (⟨none, c.inserts, c.starts + 1⟩ : LoginCompletion).Lawful :=
        { inserts := hinserts.le
          starts := hone.le.trans hinserts.ge
          inserting := fun _ h => nomatch h
          inserted := fun _ h => nomatch h
          started := fun h => absurd rfl h }
      exact ⟨hlawful, fun h => (nomatch h), fun _ => rfl, fun _ _ => ⟨hinserts, hone⟩⟩
    | false =>
      obtain ⟨rfl, rfl, rfl⟩ := eq_of_some hn
      exact steps_thrown h

/-- A completion writes the accounts and nothing else. -/
theorem same_of_resume (hn : s.resume decodeJwtExpiry c ok = some (t, c', ended)) :
    t.records = s.records ∧ t.flows = s.flows ∧ t.now = s.now ∧ t.answers = s.answers ∧
      t.drawn = s.drawn := by
  obtain ⟨step, -, hn⟩ := Option.bind_eq_some_iff.mp hn
  cases step with
  | inserting login | finding login | starting account =>
    cases ok with
    | true =>
      obtain ⟨rfl, rfl, rfl⟩ := eq_of_some hn
      exact ⟨rfl, rfl, rfl, rfl, rfl⟩
    | false =>
      obtain ⟨rfl, rfl, rfl⟩ := eq_of_some hn
      exact ⟨rfl, rfl, rfl, rfl, rfl⟩
  | recording account =>
    obtain ⟨rfl, rfl, rfl⟩ := eq_of_some hn
    exact ⟨rfl, rfl, rfl, rfl, rfl⟩

end Logins

/-! ## Records -/

structure LoginRecord.Core (r : LoginRecord) (now : ℕ) : Prop where
  created : r.createdAt ≤ now
  cancels : r.cancels = if r.cleanedUp then 1 else 0
  inTime : ∀ time, r.authenticatedAt = some time → time < r.createdAt + qrPendingTtl
  completion : r.completion.Lawful
  entered : r.completion.step ≠ none ∨ r.completion.inserts ≠ 0 → r.authenticatedAt ≠ none
  unlisted : r.listed = false → ∃ time, r.terminalAt = some time ∧ time + qrTerminalTtl ≤ now

/-- A login that is authenticated has stored its token and started its account. -/
structure LoginRecord.Lawful (r : LoginRecord) (now : ℕ) : Prop extends r.Core now where
  pending : r.phase = .pending → r.state.isPending = true ∧ r.terminalAt = none ∧
    r.cleanedUp = false ∧ r.authenticatedAt = none ∧ r.completion = .idle
  completing : r.phase = .completing → r.state.isPending = true ∧ r.terminalAt = none ∧
    r.cleanedUp = true ∧ r.completion.step.isSome = true
  terminal : r.phase = .terminal → r.state.isPending = false ∧
    (∃ time, r.terminalAt = some time ∧ time ≤ now) ∧ r.cleanedUp = true ∧ r.completion.step = none
  outcome : ∀ account message, r.state = .authenticated account message →
    r.completion.inserts = 1 ∧ r.completion.starts = 1

namespace LoginRecord
variable {r : LoginRecord} {now : ℕ}

theorem isOpen_eq_true (h : r.isOpen = true) : r.phase = .pending ∧ r.state.isPending = true := by
  simpa [isOpen] using h

theorem Core.later {later : ℕ} (h : r.Core now) (hlater : now ≤ later) : r.Core later where
  created := h.created.trans hlater
  cancels := h.cancels
  inTime := h.inTime
  completion := h.completion
  entered := h.entered
  unlisted hlisted := by
    obtain ⟨time, htime, hle⟩ := h.unlisted hlisted
    exact ⟨time, htime, hle.trans hlater⟩

theorem Lawful.later {later : ℕ} (h : r.Lawful now) (hlater : now ≤ later) : r.Lawful later where
  toCore := h.toCore.later hlater
  pending := h.pending
  completing := h.completing
  terminal hphase := by
    obtain ⟨hstate, ⟨time, htime, hle⟩, hrest⟩ := h.terminal hphase
    exact ⟨hstate, ⟨time, htime, hle.trans hlater⟩, hrest⟩
  outcome := h.outcome

theorem cleanupQrLoginSession_cleanedUp (r : LoginRecord) :
    r.cleanupQrLoginSession.cleanedUp = true := by
  unfold cleanupQrLoginSession
  split_ifs with hcleaned
  · exact hcleaned
  · rfl

theorem setQrLoginTerminal_phase (r : LoginRecord) (state : LoginState) (now : ℕ) :
    (r.setQrLoginTerminal state now).phase = .terminal := by
  unfold setQrLoginTerminal LoginRecord.cleanupQrLoginSession
  split_ifs with hphase
  · exact hphase
  · rfl
  · rfl

theorem Core.cleanupQrLoginSession (h : r.Core now) : r.cleanupQrLoginSession.Core now := by
  unfold LoginRecord.cleanupQrLoginSession
  split_ifs with hcleaned
  · exact h
  · have hcancels := h.cancels
    rw [if_neg hcleaned] at hcancels
    exact ⟨h.created, by simp [hcancels], h.inTime, h.completion, h.entered, h.unlisted⟩

/-- A login ends with a state when its completion has ended. -/
theorem Core.setQrLoginTerminal (h : r.Core now) (hphase : r.phase ≠ .terminal)
    (hterminalAt : r.terminalAt = none) {state : LoginState} (hstate : state.isPending = false)
    (hstep : r.completion.step = none)
    (houtcome : ∀ account message, state = .authenticated account message →
      r.completion.inserts = 1 ∧ r.completion.starts = 1) :
    (r.setQrLoginTerminal state now).Lawful now := by
  have hended : ({ r with
      phase := .terminal, state, terminalAt := some (r.terminalAt.getD now) } : LoginRecord).Core
        now := by
    refine ⟨h.created, h.cancels, h.inTime, h.completion, h.entered, fun hlisted => ?_⟩
    obtain ⟨time, htime, -⟩ := h.unlisted hlisted
    rw [hterminalAt] at htime
    cases htime
  have hcleaned := cleanupQrLoginSession_cleanedUp { r with
      phase := .terminal, state, terminalAt := some (r.terminalAt.getD now) }
  have hcore := hended.cleanupQrLoginSession
  unfold LoginRecord.setQrLoginTerminal
  rw [if_neg hphase]
  have hsame : ∀ r : LoginRecord, r.cleanupQrLoginSession.phase = r.phase ∧
      r.cleanupQrLoginSession.state = r.state ∧
      r.cleanupQrLoginSession.terminalAt = r.terminalAt ∧
      r.cleanupQrLoginSession.completion = r.completion := by
    intro r
    unfold LoginRecord.cleanupQrLoginSession
    split_ifs <;> exact ⟨rfl, rfl, rfl, rfl⟩
  obtain ⟨hphase', hstate', hterminalAt', hcompletion'⟩ := hsame { r with
      phase := .terminal, state, terminalAt := some (r.terminalAt.getD now) }
  refine { hcore with pending := ?_, completing := ?_, terminal := ?_, outcome := ?_ }
  · intro hpending
    rw [hphase'] at hpending
    cases hpending
  · intro hcompleting
    rw [hphase'] at hcompleting
    cases hcompleting
  · intro _
    rw [hstate', hterminalAt', hcompletion']
    exact ⟨hstate, ⟨now, by rw [hterminalAt]; rfl, le_rfl⟩, hcleaned, hstep⟩
  · intro account message hauthenticated
    rw [hstate'] at hauthenticated
    rw [hcompletion']
    exact houtcome account message hauthenticated

/-- A login that is pending fails. -/
theorem Lawful.fails (h : r.Lawful now) (hopen : r.isOpen = true) (message : String) :
    (r.setQrLoginTerminal (.error message) now).Lawful now := by
  obtain ⟨hphase, -⟩ := isOpen_eq_true hopen
  obtain ⟨-, hterminalAt, -, -, hcompletion⟩ := h.pending hphase
  refine h.toCore.setQrLoginTerminal ?_ hterminalAt rfl ?_ fun _ _ herror => nomatch herror
  · rw [hphase]
    exact LoginPhase.noConfusion
  · rw [hcompletion]
    rfl

theorem Lawful.expireQrLogin (h : r.Lawful now) : (r.expireQrLogin now).Lawful now := by
  unfold LoginRecord.expireQrLogin
  split_ifs with hopen
  · exact h.fails hopen _
  · exact h

theorem Lawful.cleanup (h : r.Lawful now) : (r.cleanup now).Lawful now := by
  unfold LoginRecord.cleanup
  split_ifs with hexpired hterminal
  · exact h.expireQrLogin
  · obtain ⟨time, htime, hold⟩ : ∃ time, r.terminalAt = some time ∧ now - time ≥ qrTerminalTtl := by
      simpa [Option.any_eq_true] using hterminal
    have hlate : time + qrTerminalTtl ≤ now := by
      unfold qrTerminalTtl at hold ⊢
      omega
    exact { h with unlisted := fun _ => ⟨time, htime, hlate⟩ }
  · exact h

theorem Lawful.onFailure (h : r.Lawful now) (message : String) :
    (r.onFailure message now).Lawful now := by
  unfold LoginRecord.onFailure
  split_ifs with hclosed
  · exact h
  · exact h.fails (Bool.of_not_eq_false hclosed) message

theorem Lawful.onAuthenticated (h : r.Lawful now) (session : LoginSession) (id : Uuid) :
    (r.onAuthenticated session id now).Lawful now := by
  unfold LoginRecord.onAuthenticated
  split_ifs with hclosed hexpired
  · exact h
  · exact h.expireQrLogin
  obtain ⟨hphase, hstate⟩ := isOpen_eq_true (Bool.of_not_eq_false hclosed)
  obtain ⟨-, hterminalAt, hcleaned, -, hcompletion⟩ := h.pending hphase
  have hcreated := h.created
  have htime : now < r.createdAt + qrPendingTtl := by
    unfold qrPendingTtl at hexpired ⊢
    omega
  have hcancels := h.cancels
  rw [hcleaned, if_neg Bool.false_ne_true] at hcancels
  have hlisted : r.listed = true := by
    refine Bool.of_not_eq_false fun hlisted => ?_
    obtain ⟨time, htime, -⟩ := h.unlisted hlisted
    rw [hterminalAt] at htime
    cases htime
  have hbegun : ({ r with phase := .completing, authenticatedAt := some now
      }.cleanupQrLoginSession : LoginRecord) = { r with
        phase := .completing
        authenticatedAt := some now
        cleanedUp := true
        cancels := 1 } := by
    unfold LoginRecord.cleanupQrLoginSession
    simp [hcleaned, hcancels]
  rw [hbegun]
  have hcore (completion : LoginCompletion) (hc : completion.Lawful) : ({ r with
      phase := .completing
      authenticatedAt := some now
      cleanedUp := true
      cancels := 1
      completion } : LoginRecord).Core now :=
    { created := hcreated
      cancels := rfl
      inTime := fun time hnow => by
        obtain rfl := Option.some.inj hnow
        exact htime
      completion := hc
      entered := fun _ => Option.some_ne_none _
      unlisted := fun hunlisted => nomatch hlisted.symm.trans hunlisted }
  unfold LoginRecord.complete
  cases session.refreshToken with
  | none =>
    have hidle := hcore r.completion h.completion
    refine hidle.setQrLoginTerminal LoginPhase.noConfusion hterminalAt rfl ?_
      fun _ _ herror => nomatch herror
    show r.completion.step = none
    rw [hcompletion]
    rfl
  | some refreshToken =>
    have hinserting := hcore _ (LoginCompletion.lawful_inserting ⟨id,
      session.accountName.getD "unknown", refreshToken, session.steamId, now⟩)
    dsimp only
    rw [hcompletion]
    refine { hinserting with pending := ?_, completing := ?_, terminal := ?_, outcome := ?_ }
    · exact fun hpending => nomatch hpending
    · exact fun _ => ⟨hstate, hterminalAt, rfl, rfl⟩
    · exact fun hterminal => nomatch hterminal
    · intro account message hauthenticated
      have hstate : r.state.isPending = true := hstate
      have hauthenticated : r.state = .authenticated account message := hauthenticated
      rw [hauthenticated] at hstate
      cases hstate

theorem lawful_started (qrChallengeUrl message : String) (now : ℕ) :
    ({ state := .pending (some qrChallengeUrl) (some message)
       phase := .pending
       createdAt := now
       terminalAt := none
       cleanedUp := false
       listed := true
       cancels := 0
       authenticatedAt := none
       completion := .idle } : LoginRecord).Lawful now where
  created := le_rfl
  cancels := rfl
  inTime _ h := nomatch h
  completion := LoginCompletion.lawful_idle
  entered h := by
    rcases h with h | h <;> exact absurd rfl h
  unlisted h := nomatch h
  pending _ := ⟨rfl, rfl, rfl, rfl, rfl⟩
  completing h := nomatch h
  terminal h := nomatch h
  outcome _ _ h := nomatch h

theorem Lawful.cancels_eq (h : r.Lawful now) :
    r.cancels = if r.phase = .pending then 0 else 1 := by
  rw [h.cancels]
  cases hphase : r.phase with
  | pending => simp [(h.pending hphase).2.2.1]
  | completing => simp [(h.completing hphase).2.2.1]
  | terminal => simp [(h.terminal hphase).2.2.1]

theorem cleanup_terminal (r : LoginRecord) (hphase : r.phase = .terminal) (now : ℕ) :
    ∃ listed, some (r.cleanup now) = some { r with listed } := by
  have hclosed : r.isOpen = false := by
    unfold isOpen
    rw [hphase]
    rfl
  unfold LoginRecord.cleanup
  rw [if_neg (by simp [hclosed])]
  split_ifs
  · exact ⟨false, rfl⟩
  · exact ⟨r.listed, rfl⟩

/-- A record that is still listed and pending after the cleanup has not expired. -/
theorem Lawful.answered (h : r.Lawful now) (hpending : (r.cleanup now).state.isPending = true) :
    (r.cleanup now).phase = .completing ∨ now - (r.cleanup now).createdAt < qrPendingTtl := by
  have hcleaned := h.cleanup
  cases hphase : (r.cleanup now).phase with
  | pending =>
    right
    unfold LoginRecord.cleanup at hphase ⊢
    split_ifs at hphase ⊢ with hexpired hterminal
    · unfold LoginRecord.expireQrLogin at hphase
      rw [if_pos hexpired.1, setQrLoginTerminal_phase] at hphase
      cases hphase
    · have hphase : r.phase = .pending := hphase
      rw [(h.pending hphase).2.1] at hterminal
      cases hterminal
    · have hopen : r.isOpen = true := by simp [isOpen, hphase, (h.pending hphase).1]
      exact Nat.lt_of_not_ge fun hge => hexpired ⟨hopen, hge⟩
  | completing => exact .inl rfl
  | terminal =>
    rw [(hcleaned.terminal hphase).1] at hpending
    cases hpending

/-- A completion runs while the record is completing. -/
theorem Lawful.phase_completing (h : r.Lawful now) (hstep : r.completion.step ≠ none) :
    r.phase = .completing := by
  cases hphase : r.phase with
  | pending =>
    rw [(h.pending hphase).2.2.2.2] at hstep
    exact absurd rfl hstep
  | completing => rfl
  | terminal => exact absurd (h.terminal hphase).2.2.2 hstep

/-- After a step of its completion a record goes on, or its login has ended. -/
theorem Lawful.settle (h : r.Lawful now) (hstep : r.completion.step ≠ none)
    {completion : LoginCompletion} {ended : Option (Option ConnectedAccount)}
    (hsteps : completion.Steps ended) (message : String) :
    (r.settle completion ended message now).Lawful now := by
  have hphase := h.phase_completing hstep
  obtain ⟨hstate, hterminalAt, hcleaned, -⟩ := h.completing hphase
  have hcore : ({ r with completion } : LoginRecord).Core now :=
    { h.toCore with
      completion := hsteps.lawful
      entered := fun _ => h.entered (.inl hstep) }
  have hopen : r.phase ≠ .terminal := by
    rw [hphase]
    exact LoginPhase.noConfusion
  cases ended with
  | none =>
    refine { hcore with pending := ?_, completing := ?_, terminal := ?_, outcome := ?_ }
    · exact fun hpending => nomatch hphase.symm.trans hpending
    · exact fun _ => ⟨hstate, hterminalAt, hcleaned, hsteps.goesOn rfl⟩
    · exact fun hterminal => absurd hterminal hopen
    · intro account message hauthenticated
      exact nomatch (congrArg LoginState.isPending hauthenticated).symm.trans hstate
  | some result =>
    have hended : completion.step = none := hsteps.finished (Option.some_ne_none _)
    cases result with
    | none =>
      exact hcore.setQrLoginTerminal hopen hterminalAt rfl hended fun _ _ herror => nomatch herror
    | some account =>
      exact hcore.setQrLoginTerminal hopen hterminalAt rfl hended
        fun _ _ _ => hsteps.connected account rfl

end LoginRecord

/-! ## Credentials -/

structure CredentialFlow.Lawful (flow : CredentialFlow) : Prop where
  completion : flow.completion.Lawful
  unstarted : flow.persisting = false → flow.completion = .idle ∧ flow.result = none
  running : flow.completion.step ≠ none → flow.result = none
  outcome : ∀ account, flow.result = some (some account) →
    flow.completion.inserts = 1 ∧ flow.completion.starts = 1

namespace CredentialFlow
variable {flow : CredentialFlow}

theorem lawful_started : (⟨false, .idle, none⟩ : CredentialFlow).Lawful where
  completion := LoginCompletion.lawful_idle
  unstarted _ := ⟨rfl, rfl⟩
  running _ := rfl
  outcome _ h := nomatch h

theorem Lawful.persist (h : flow.Lawful) (hfirst : flow.persisting = false)
    (session : LoginSession) (id : Uuid) (now : ℕ) : (flow.persist session id now).Lawful := by
  obtain ⟨hcompletion, hresult⟩ := h.unstarted hfirst
  unfold CredentialFlow.persist
  cases session.refreshToken with
  | none =>
    dsimp only
    rw [hcompletion]
    exact ⟨LoginCompletion.lawful_idle, fun h => (nomatch h), fun h => absurd rfl h,
      fun _ h => (nomatch h)⟩
  | some refreshToken =>
    dsimp only
    rw [hcompletion, hresult]
    exact ⟨LoginCompletion.lawful_inserting _, fun h => (nomatch h), fun _ => rfl,
      fun _ h => (nomatch h)⟩

theorem Lawful.resumed (h : flow.Lawful) (hstep : flow.completion.step ≠ none)
    {completion : LoginCompletion} {ended : Option (Option ConnectedAccount)}
    (hsteps : completion.Steps ended) :
    ({ flow with completion, result := ended.or flow.result } : CredentialFlow).Lawful := by
  have hresult := h.running hstep
  have hpersisting : flow.persisting = true := by
    refine Bool.of_not_eq_false fun hunstarted => ?_
    rw [(h.unstarted hunstarted).1] at hstep
    exact hstep rfl
  refine ⟨hsteps.lawful, fun h => (nomatch hpersisting.symm.trans h), fun hrunning => ?_,
    fun account houtcome => ?_⟩
  · cases ended with
    | none => exact hresult
    | some result => exact absurd (hsteps.finished (Option.some_ne_none _)) hrunning
  · rw [hresult, Option.or_none] at houtcome
    exact hsteps.connected account houtcome

end CredentialFlow

/-! ## The logins -/

/-- An answer that is pending tells of a login that has not expired, or that is being completed. -/
def LoginAnswer.Lawful (answer : LoginAnswer) : Prop :=
  answer.state.isPending = true → answer.phase = .completing ∨ answer.age < qrPendingTtl

structure Logins.Lawful (s : Logins) : Prop where
  records : ∀ id record, s.records.lookup id = some record → id < s.drawn ∧ record.Lawful s.now
  flows : ∀ id flow, s.flows.lookup id = some flow → id < s.drawn ∧ flow.Lawful
  answers : ∀ answer ∈ s.answers, answer.Lawful

namespace Logins
variable {s t u : Logins} {decodeJwtExpiry : String → Option ℕ} {id : LoginId}

theorem Lawful.setRecord (h : s.Lawful) (hid : id < s.drawn) {record : LoginRecord}
    (hrecord : record.Lawful s.now) : (s.setRecord id record).Lawful where
  records id' record' h' := by
    change (s.records.insert id record).lookup id' = some record' at h'
    rw [Table.lookup_insert_eq] at h'
    split_ifs at h' with heq
    · obtain rfl := Option.some.inj h'
      rw [heq]
      exact ⟨hid, hrecord⟩
    · exact h.records id' record' h'
  flows := h.flows
  answers := h.answers

theorem Lawful.setFlow (h : s.Lawful) (hid : id < s.drawn) {flow : CredentialFlow}
    (hflow : flow.Lawful) : (s.setFlow id flow).Lawful where
  records := h.records
  flows id' flow' h' := by
    change (s.flows.insert id flow).lookup id' = some flow' at h'
    rw [Table.lookup_insert_eq] at h'
    split_ifs at h' with heq
    · obtain rfl := Option.some.inj h'
      rw [heq]
      exact ⟨hid, hflow⟩
    · exact h.flows id' flow' h'
  answers := h.answers

/-- Numbers that have been drawn and time that has passed change nothing. -/
theorem Lawful.later (h : s.Lawful) (drawn elapsed : ℕ) :
    ({ s with drawn := s.drawn + drawn, now := s.now + elapsed } : Logins).Lawful where
  records id record hrecord := by
    obtain ⟨hid, hlawful⟩ := h.records id record hrecord
    exact ⟨hid.trans_le (Nat.le_add_right _ _), hlawful.later (Nat.le_add_right _ _)⟩
  flows id flow hflow := by
    obtain ⟨hid, hlawful⟩ := h.flows id flow hflow
    exact ⟨hid.trans_le (Nat.le_add_right _ _), hlawful⟩
  answers := h.answers

theorem Lawful.emit (h : s.Lawful) {handler : LoginRecord → LoginRecord}
    (hhandler : ∀ record : LoginRecord, record.Lawful s.now → (handler record).Lawful s.now)
    (hn : s.emit id handler = some t) : t.Lawful := by
  obtain ⟨record, hrecord, hn⟩ := Option.bind_eq_some_iff.mp hn
  obtain ⟨hid, hlawful⟩ := h.records id record hrecord
  split_ifs at hn
  obtain rfl := Option.some.inj hn
  exact h.setRecord hid (hhandler record hlawful)

theorem Lawful.cleanupQrLogins (h : s.Lawful) : s.cleanupQrLogins.Lawful where
  records id record hrecord := by
    change (s.records.update _).lookup id = some record at hrecord
    rw [Table.lookup_update] at hrecord
    obtain ⟨earlier, hearlier, rfl⟩ := Option.map_eq_some_iff.mp hrecord
    obtain ⟨hid, hlawful⟩ := h.records id earlier hearlier
    refine ⟨hid, ?_⟩
    split_ifs
    · exact hlawful.cleanup
    · exact hlawful
  flows := h.flows
  answers := h.answers

theorem Lawful.getQrLogin (h : s.Lawful) (id : LoginId) : (s.getQrLogin id).Lawful := by
  have hcleaned := h.cleanupQrLogins
  unfold Logins.getQrLogin
  dsimp only
  cases hrecord : s.cleanupQrLogins.records.lookup id with
  | none => exact hcleaned
  | some record =>
    dsimp only
    split_ifs with hlisted
    · refine ⟨hcleaned.records, hcleaned.flows, ?_⟩
      refine List.forall_mem_cons.mpr ⟨?_, hcleaned.answers⟩
      intro hpending
      obtain ⟨earlier, hearlier, hrecord⟩ := Option.map_eq_some_iff.mp
        ((Table.lookup_update _ _ id).symm.trans hrecord)
      have hlawful := (h.records id earlier hearlier).2
      split_ifs at hrecord with hbefore
      · obtain rfl := hrecord
        exact hlawful.answered hpending
      · obtain rfl := hrecord
        exact absurd hlisted hbefore
    · exact hcleaned

theorem Lawful.of_resume {completion completion' : LoginCompletion} {ok : Bool}
    {ended : Option (Option ConnectedAccount)} (h : s.Lawful)
    (hn : s.resume decodeJwtExpiry completion ok = some (t, completion', ended)) : t.Lawful := by
  obtain ⟨hrecords, hflows, hnow, hanswers, hdrawn⟩ := same_of_resume hn
  refine ⟨?_, ?_, ?_⟩
  · rw [hrecords, hnow, hdrawn]
    exact h.records
  · rw [hflows, hdrawn]
    exact h.flows
  · rw [hanswers]
    exact h.answers

theorem Lawful.resumeQr (h : s.Lawful) {ok : Bool} {message : String}
    (hn : s.resumeQr decodeJwtExpiry id ok message = some t) : t.Lawful := by
  obtain ⟨record, hrecord, hn⟩ := Option.bind_eq_some_iff.mp hn
  obtain ⟨⟨u, completion, ended⟩, hresume, hn⟩ := Option.bind_eq_some_iff.mp hn
  obtain rfl := Option.some.inj hn
  obtain ⟨hid, hlawful⟩ := h.records id record hrecord
  have hsteps := steps_of_resume hlawful.completion hresume
  obtain ⟨-, -, hnow, -, hdrawn⟩ := same_of_resume hresume
  refine (h.of_resume hresume).setRecord (by rw [hdrawn]; exact hid)
    (LoginRecord.Lawful.settle ?_ ?_ hsteps message)
  · rw [hnow]
    exact hlawful
  · obtain ⟨step, hstep, -⟩ := Option.bind_eq_some_iff.mp hresume
    rw [hstep]
    exact Option.some_ne_none _

theorem Lawful.resumeFlow (h : s.Lawful) {ok : Bool}
    (hn : s.resumeFlow decodeJwtExpiry id ok = some t) : t.Lawful := by
  obtain ⟨flow, hflow, hn⟩ := Option.bind_eq_some_iff.mp hn
  obtain ⟨⟨u, completion, ended⟩, hresume, hn⟩ := Option.bind_eq_some_iff.mp hn
  obtain rfl := Option.some.inj hn
  obtain ⟨hid, hlawful⟩ := h.flows id flow hflow
  obtain ⟨-, -, -, -, hdrawn⟩ := same_of_resume hresume
  refine (h.of_resume hresume).setFlow (by rw [hdrawn]; exact hid)
    (hlawful.resumed ?_ (steps_of_resume hlawful.completion hresume))
  obtain ⟨step, hstep, -⟩ := Option.bind_eq_some_iff.mp hresume
  rw [hstep]
  exact Option.some_ne_none _

theorem Lawful.persistOnce (h : s.Lawful) {session : LoginSession}
    (hn : s.persistOnce id session = some t) : t.Lawful := by
  obtain ⟨flow, hflow, hn⟩ := Option.bind_eq_some_iff.mp hn
  obtain rfl := Option.some.inj hn
  split_ifs with hpersisting
  · exact h
  · obtain ⟨hid, hlawful⟩ := h.flows id flow hflow
    have hpersisted := hlawful.persist (Bool.of_not_eq_true hpersisting) session s.drawn s.now
    exact (h.setFlow hid hpersisted).later 1 0

theorem Lawful.step {a : LoginAction} (h : s.Lawful)
    (hn : (loginMachine decodeJwtExpiry).next s a = some t) : t.Lawful := by
  cases a with
  | startQrLogin qrChallengeUrl =>
    obtain rfl := Option.some.inj hn
    have hdrawn : ({ s with drawn := s.drawn + 1 } : Logins).Lawful := h.later 1 0
    exact hdrawn.setRecord (Nat.lt_succ_self _) (LoginRecord.lawful_started _ _ _)
  | authenticated id session =>
    have hdrawn : ({ s with drawn := s.drawn + 1 } : Logins).Lawful := h.later 1 0
    exact hdrawn.emit (fun _ hrecord => hrecord.onAuthenticated session s.drawn) hn
  | timeout id => exact h.emit (fun _ hrecord => hrecord.onFailure _) hn
  | error id message => exact h.emit (fun _ hrecord => hrecord.onFailure message) hn
  | resumeQr id ok message => exact h.resumeQr hn
  | getQrLogin id =>
    obtain rfl := Option.some.inj hn
    exact h.getQrLogin id
  | cleanupQrLogins =>
    obtain rfl := Option.some.inj hn
    exact h.cleanupQrLogins
  | startFlow =>
    obtain rfl := Option.some.inj hn
    have hdrawn : ({ s with drawn := s.drawn + 1 } : Logins).Lawful := h.later 1 0
    exact hdrawn.setFlow (Nat.lt_succ_self _) CredentialFlow.lawful_started
  | persistOnce id session => exact h.persistOnce hn
  | resumeFlow id ok => exact h.resumeFlow hn
  | deleteAccount accountName =>
    obtain rfl := Option.some.inj hn
    exact ⟨h.records, h.flows, h.answers⟩
  | tick elapsed =>
    obtain rfl := Option.some.inj hn
    exact h.later 0 elapsed

theorem lawful_of_reachable (h : (loginMachine decodeJwtExpiry).Reachable s) : s.Lawful := by
  refine h.invariant ?_ fun _ _ _ h _ hn => h.step hn
  rintro s ⟨hrecords, hflows, hanswers⟩
  refine ⟨?_, ?_, ?_⟩
  · rw [hrecords]
    exact fun _ _ h => (nomatch h)
  · rw [hflows]
    exact fun _ _ h => (nomatch h)
  · rw [hanswers]
    exact fun _ h => (nomatch h)

/-! ## Logins that have ended -/

/-- Nothing changes a login that has ended; its record may only be dropped. -/
structure Final (s t : Logins) : Prop where
  records : ∀ id record, s.records.lookup id = some record → record.phase = .terminal →
    ∃ listed, t.records.lookup id = some { record with listed }
  flows : ∀ id flow, s.flows.lookup id = some flow → flow.result ≠ none →
    t.flows.lookup id = some flow

theorem Final.of_same (hrecords : t.records = s.records) (hflows : t.flows = s.flows) :
    Final s t where
  records id record hrecord _ := ⟨record.listed, by rw [hrecords, hrecord]⟩
  flows id flow hflow _ := by rw [hflows, hflow]

/-- Numbers that are drawn do not matter. -/
theorem Final.drawn (h : Final s t) (drawn drawn' : ℕ) :
    Final { s with drawn := drawn } { t with drawn := drawn' } := ⟨h.records, h.flows⟩

theorem Final.trans (h : Final s t) (h' : Final t u) : Final s u where
  records id record hrecord hphase := by
    obtain ⟨listed, ht⟩ := h.records id record hrecord hphase
    exact h'.records id { record with listed } ht hphase
  flows id flow hflow hended := h'.flows id flow (h.flows id flow hflow hended) hended

/-- A record is replaced that has not ended. -/
theorem final_setRecord {record : LoginRecord}
    (hopen : ∀ earlier, s.records.lookup id = some earlier → earlier.phase ≠ .terminal) :
    Final s (s.setRecord id record) where
  records id' record' hrecord hphase := by
    have hne : id' ≠ id := by
      rintro rfl
      exact hopen record' hrecord hphase
    refine ⟨record'.listed, ?_⟩
    show (s.records.insert id record).lookup id' = some record'
    rw [Table.lookup_insert_eq, if_neg hne, hrecord]
  flows _ _ hflow _ := hflow

/-- A login with credentials goes on that has not ended. -/
theorem final_setFlow {flow : CredentialFlow}
    (hopen : ∀ earlier, s.flows.lookup id = some earlier → earlier.result = none) :
    Final s (s.setFlow id flow) where
  records _ record hrecord _ := ⟨record.listed, hrecord⟩
  flows id' flow' hflow hended := by
    have hne : id' ≠ id := by
      rintro rfl
      exact hended (hopen flow' hflow)
    show (s.flows.insert id flow).lookup id' = some flow'
    rw [Table.lookup_insert_eq, if_neg hne, hflow]

theorem Lawful.final_emit (h : s.Lawful) {handler : LoginRecord → LoginRecord}
    (hn : s.emit id handler = some t) : Final s t := by
  obtain ⟨record, hrecord, hn⟩ := Option.bind_eq_some_iff.mp hn
  split_ifs at hn with hcleaned
  obtain rfl := Option.some.inj hn
  refine final_setRecord fun earlier hearlier hphase => hcleaned ?_
  obtain rfl := Option.some.inj (hrecord.symm.trans hearlier)
  exact ((h.records id record hrecord).2.terminal hphase).2.2.1

theorem final_cleanupQrLogins (s : Logins) : Final s s.cleanupQrLogins where
  records id record hrecord hphase := by
    have hlookup : s.cleanupQrLogins.records.lookup id =
        some (if record.listed then record.cleanup s.now else record) := by
      refine (Table.lookup_update _ _ id).trans ?_
      rw [hrecord]
      rfl
    rw [hlookup]
    split_ifs
    · exact record.cleanup_terminal hphase s.now
    · exact ⟨record.listed, rfl⟩
  flows _ _ hflow _ := hflow

/-- An answer changes nothing beyond what the cleanup before it does. -/
theorem getQrLogin_same (s : Logins) (id : LoginId) :
    (s.getQrLogin id).records = s.cleanupQrLogins.records ∧
      (s.getQrLogin id).flows = s.flows ∧ (s.getQrLogin id).accounts = s.accounts := by
  unfold Logins.getQrLogin
  dsimp only
  cases s.cleanupQrLogins.records.lookup id with
  | none => exact ⟨rfl, rfl, rfl⟩
  | some record =>
    dsimp only
    split_ifs <;> exact ⟨rfl, rfl, rfl⟩

theorem final_getQrLogin (s : Logins) (id : LoginId) : Final s (s.getQrLogin id) := by
  obtain ⟨hrecords, hflows, -⟩ := getQrLogin_same s id
  exact (final_cleanupQrLogins s).trans (.of_same hrecords hflows)

theorem Lawful.final_step {a : LoginAction} (h : s.Lawful)
    (hn : (loginMachine decodeJwtExpiry).next s a = some t) : Final s t := by
  cases a with
  | startQrLogin qrChallengeUrl =>
    obtain rfl := Option.some.inj hn
    refine (final_setRecord fun earlier hearlier => ?_).drawn s.drawn (s.drawn + 1)
    exact absurd (h.records s.drawn earlier hearlier).1 (Nat.lt_irrefl _)
  | authenticated id session =>
    have hdrawn : ({ s with drawn := s.drawn + 1 } : Logins).Lawful := h.later 1 0
    exact (hdrawn.final_emit hn).drawn s.drawn t.drawn
  | timeout id => exact h.final_emit hn
  | error id message => exact h.final_emit hn
  | resumeQr id ok message =>
    obtain ⟨record, hrecord, hn⟩ := Option.bind_eq_some_iff.mp hn
    obtain ⟨⟨u, completion, ended⟩, hresume, hn⟩ := Option.bind_eq_some_iff.mp hn
    obtain rfl := Option.some.inj hn
    obtain ⟨hrecords, hflows, -⟩ := same_of_resume hresume
    refine (Final.of_same hrecords hflows).trans (final_setRecord fun earlier hearlier hphase => ?_)
    rw [hrecords, hrecord] at hearlier
    obtain rfl := Option.some.inj hearlier
    obtain ⟨step, hstep, -⟩ := Option.bind_eq_some_iff.mp hresume
    rw [((h.records id record hrecord).2.terminal hphase).2.2.2] at hstep
    cases hstep
  | getQrLogin id =>
    obtain rfl := Option.some.inj hn
    exact final_getQrLogin s id
  | cleanupQrLogins =>
    obtain rfl := Option.some.inj hn
    exact final_cleanupQrLogins s
  | startFlow =>
    obtain rfl := Option.some.inj hn
    refine (final_setFlow fun earlier hearlier => ?_).drawn s.drawn (s.drawn + 1)
    exact absurd (h.flows s.drawn earlier hearlier).1 (Nat.lt_irrefl _)
  | persistOnce id session =>
    obtain ⟨flow, hflow, hn⟩ := Option.bind_eq_some_iff.mp hn
    obtain rfl := Option.some.inj hn
    split_ifs with hpersisting
    · exact .of_same rfl rfl
    · refine (final_setFlow fun earlier hearlier => ?_).drawn s.drawn (s.drawn + 1)
      obtain rfl := Option.some.inj (hflow.symm.trans hearlier)
      exact ((h.flows id flow hflow).2.unstarted (Bool.of_not_eq_true hpersisting)).2
  | resumeFlow id ok =>
    obtain ⟨flow, hflow, hn⟩ := Option.bind_eq_some_iff.mp hn
    obtain ⟨⟨u, completion, ended⟩, hresume, hn⟩ := Option.bind_eq_some_iff.mp hn
    obtain rfl := Option.some.inj hn
    obtain ⟨hrecords, hflows, -⟩ := same_of_resume hresume
    refine (Final.of_same hrecords hflows).trans (final_setFlow fun earlier hearlier => ?_)
    rw [hflows, hflow] at hearlier
    obtain rfl := Option.some.inj hearlier
    obtain ⟨step, hstep, -⟩ := Option.bind_eq_some_iff.mp hresume
    exact (h.flows id flow hflow).2.running (by rw [hstep]; exact Option.some_ne_none _)
  | deleteAccount accountName =>
    obtain rfl := Option.some.inj hn
    exact .of_same rfl rfl
  | tick elapsed =>
    obtain rfl := Option.some.inj hn
    exact .of_same rfl rfl

theorem Lawful.final_leads (h : s.Lawful)
    (hl : (loginMachine decodeJwtExpiry).Leads (fun _ _ => True) s t) : Final s t := by
  have hboth : t.Lawful ∧ Final s t := by
    refine hl.keeps (I := fun t => t.Lawful ∧ Final s t) ⟨h, .of_same rfl rfl⟩ ?_
    rintro t a u ⟨ht, hfinal⟩ - hn
    exact ⟨ht.step hn, hfinal.trans (ht.final_step hn)⟩
  exact hboth.2

/-! ## Accounts -/

variable {accountName : String}

theorem accounts_of_resume {c c' : LoginCompletion} {ok : Bool}
    {ended : Option (Option ConnectedAccount)}
    (hn : s.resume decodeJwtExpiry c ok = some (t, c', ended)) :
    t.accounts = s.accounts ∨ ∃ login, t = s.insertAccount decodeJwtExpiry login := by
  obtain ⟨step, -, hn⟩ := Option.bind_eq_some_iff.mp hn
  cases step with
  | inserting login =>
    cases ok with
    | true =>
      obtain ⟨rfl, -, -⟩ := eq_of_some hn
      exact .inr ⟨login, rfl⟩
    | false =>
      obtain ⟨rfl, -, -⟩ := eq_of_some hn
      exact .inl rfl
  | finding login | starting account =>
    cases ok with
    | true =>
      obtain ⟨rfl, -, -⟩ := eq_of_some hn
      exact .inl rfl
    | false =>
      obtain ⟨rfl, -, -⟩ := eq_of_some hn
      exact .inl rfl
  | recording account =>
    obtain ⟨rfl, -, -⟩ := eq_of_some hn
    exact .inl rfl

def Holds (accountName : String) (s t : Logins) : Prop :=
  ∀ account, s.accounts.lookup accountName = some account →
    ∃ later, t.accounts.lookup accountName = some later ∧ later.id = account.id ∧
      (account.steamId ≠ none → later.steamId ≠ none)

theorem Holds.of_same (h : t.accounts = s.accounts) : Holds accountName s t := by
  intro account haccount
  exact ⟨account, by rw [h, haccount], rfl, id⟩

theorem Holds.trans (h : Holds accountName s t) (h' : Holds accountName t u) :
    Holds accountName s u := by
  intro account haccount
  obtain ⟨later, hlater, hid, hsteamId⟩ := h account haccount
  obtain ⟨last, hlast, hid', hsteamId'⟩ := h' later hlater
  exact ⟨last, hlast, hid'.trans hid, fun hknown => hsteamId' (hsteamId hknown)⟩

theorem holds_insertAccount (s : Logins) (decodeJwtExpiry : String → Option ℕ)
    (login : PersistedLogin) (accountName : String) :
    Holds accountName s (s.insertAccount decodeJwtExpiry login) := by
  intro account haccount
  unfold insertAccount
  dsimp only
  rw [Table.lookup_insert_eq]
  split_ifs with hname
  · subst hname
    rw [haccount]
    refine ⟨_, rfl, rfl, fun hknown => ?_⟩
    cases hlogin : login.steamId with
    | none => simpa [hlogin] using hknown
    | some steamId => simp
  · exact ⟨account, haccount, rfl, id⟩

theorem holds_of_resume {c c' : LoginCompletion} {ok : Bool}
    {ended : Option (Option ConnectedAccount)}
    (hn : s.resume decodeJwtExpiry c ok = some (t, c', ended)) : Holds accountName s t := by
  rcases accounts_of_resume hn with hsame | ⟨login, rfl⟩
  · exact .of_same hsame
  · exact holds_insertAccount s decodeJwtExpiry login accountName

theorem emit_accounts {handler : LoginRecord → LoginRecord} (hn : s.emit id handler = some t) :
    t.accounts = s.accounts := by
  obtain ⟨record, -, hn⟩ := Option.bind_eq_some_iff.mp hn
  split_ifs at hn
  obtain rfl := Option.some.inj hn
  rfl

/-- The deletion of another account does not matter. -/
theorem holds_step {a : LoginAction} (hkept : a ≠ .deleteAccount accountName)
    (hn : (loginMachine decodeJwtExpiry).next s a = some t) : Holds accountName s t := by
  cases a with
  | authenticated id session =>
    exact .of_same (emit_accounts (s := { s with drawn := s.drawn + 1 }) hn)
  | timeout id => exact .of_same (emit_accounts hn)
  | error id message => exact .of_same (emit_accounts hn)
  | resumeQr id ok message =>
    obtain ⟨record, -, hn⟩ := Option.bind_eq_some_iff.mp hn
    obtain ⟨⟨u, completion, ended⟩, hresume, hn⟩ := Option.bind_eq_some_iff.mp hn
    obtain rfl := Option.some.inj hn
    exact (holds_of_resume hresume).trans (.of_same rfl)
  | getQrLogin id =>
    obtain rfl := Option.some.inj hn
    exact .of_same (getQrLogin_same s id).2.2
  | startQrLogin _ | cleanupQrLogins | startFlow | tick _ =>
    obtain rfl := Option.some.inj hn
    exact .of_same rfl
  | persistOnce id session =>
    obtain ⟨flow, -, hn⟩ := Option.bind_eq_some_iff.mp hn
    obtain rfl := Option.some.inj hn
    split_ifs <;> exact .of_same rfl
  | resumeFlow id ok =>
    obtain ⟨flow, -, hn⟩ := Option.bind_eq_some_iff.mp hn
    obtain ⟨⟨u, completion, ended⟩, hresume, hn⟩ := Option.bind_eq_some_iff.mp hn
    obtain rfl := Option.some.inj hn
    exact (holds_of_resume hresume).trans (.of_same rfl)
  | deleteAccount other =>
    obtain rfl := Option.some.inj hn
    have hne : accountName ≠ other := by
      rintro rfl
      exact hkept rfl
    intro account haccount
    refine ⟨account, ?_, rfl, id⟩
    rw [Table.lookup_erase_eq, if_neg hne, haccount]

theorem holds_leads (hl : (loginMachine decodeJwtExpiry).Leads
    (fun _ a => a ≠ .deleteAccount accountName) s t) : Holds accountName s t :=
  hl.keeps (I := fun t => Holds accountName s t) (.of_same rfl)
    fun _ _ _ h hkept hn => h.trans (holds_step hkept hn)

end Logins

/-- A login has inserted a token at most once, a QR login only when it was authenticated in time;
one that is connected has inserted it and has started its account. A session is cancelled once, when
its login is no longer pending, and a login of either kind that has ended stays as it is. An
account keeps its id, and a Steam id once it has one, as long as it is not itself deleted. -/
structure LoginLaws (decodeJwtExpiry : String → Option ℕ) (s : Logins) : Prop where
  stored : ∀ id record, s.records.lookup id = some record → record.completion.inserts ≤ 1 ∧
    (record.completion.inserts = 1 →
      ∃ time, record.authenticatedAt = some time ∧ time < record.createdAt + qrPendingTtl)
  connected : ∀ id record account message, s.records.lookup id = some record →
    record.state = .authenticated account message →
      record.completion.inserts = 1 ∧ record.completion.starts = 1
  cancelled : ∀ id record, s.records.lookup id = some record →
    record.cancels = if record.phase = .pending then 0 else 1
  credentials : ∀ id flow, s.flows.lookup id = some flow → flow.completion.inserts ≤ 1 ∧
    ∀ account, flow.result = some (some account) →
      flow.completion.inserts = 1 ∧ flow.completion.starts = 1
  answered : ∀ answer ∈ s.answers, answer.state.isPending = true →
    answer.phase = .completing ∨ answer.age < qrPendingTtl
  final : ∀ t, (loginMachine decodeJwtExpiry).Leads (fun _ _ => True) s t →
    (∀ id record, s.records.lookup id = some record → record.phase = .terminal →
      ∃ listed, t.records.lookup id = some { record with listed }) ∧
    ∀ id flow, s.flows.lookup id = some flow → flow.result ≠ none →
      t.flows.lookup id = some flow
  held : ∀ accountName t,
    (loginMachine decodeJwtExpiry).Leads (fun _ a => a ≠ .deleteAccount accountName) s t →
    ∀ account, s.accounts.lookup accountName = some account →
      ∃ later, t.accounts.lookup accountName = some later ∧ later.id = account.id ∧
        (account.steamId ≠ none → later.steamId ≠ none)

theorem loginLaws_of_reachable (decodeJwtExpiry : String → Option ℕ) (s : Logins)
    (h : (loginMachine decodeJwtExpiry).Reachable s) : LoginLaws decodeJwtExpiry s := by
  have hlawful := Logins.lawful_of_reachable h
  refine ⟨fun id record hrecord => ?_, fun id record account message hrecord hstate => ?_,
    fun id record hrecord => ?_, fun id flow hflow => ?_, hlawful.answers,
    fun t hl => ?_, fun accountName t hl => Logins.holds_leads hl⟩
  · obtain ⟨-, hr⟩ := hlawful.records id record hrecord
    refine ⟨hr.completion.inserts, fun hone => ?_⟩
    obtain ⟨time, htime⟩ := Option.ne_none_iff_exists'.mp
      (hr.entered (.inr (by rw [hone]; exact Nat.one_ne_zero)))
    exact ⟨time, htime, hr.inTime time htime⟩
  · exact (hlawful.records id record hrecord).2.outcome account message hstate
  · exact (hlawful.records id record hrecord).2.cancels_eq
  · obtain ⟨-, hf⟩ := hlawful.flows id flow hflow
    exact ⟨hf.completion.inserts, hf.outcome⟩
  · have hfinal := hlawful.final_leads hl
    exact ⟨hfinal.records, hfinal.flows⟩

/-- A code is scanned while another one expires, and its account logs in again with credentials. -/
def loggedInTwice : Logins :=
  ((loginMachine fun _ => none).exec ⟨∅, ∅, ∅, 0, 0, []⟩
    [.startQrLogin "https://s.team/q/1", .startQrLogin "https://s.team/q/2",
      .authenticated 0 ⟨some "bee", some "token", some "76561198000000000"⟩, .resumeQr 0 true "",
      .getQrLogin 0, .resumeQr 0 true "", .resumeQr 0 true "", .resumeQr 0 true "",
      .tick qrPendingTtl, .getQrLogin 0, .getQrLogin 1, .startFlow,
      .persistOnce 3 ⟨some "bee", some "newer", none⟩,
      .persistOnce 3 ⟨some "bee", some "newer", none⟩, .resumeFlow 3 true, .resumeFlow 3 true,
      .resumeFlow 3 true, .resumeFlow 3 true]).getD ⟨∅, ∅, ∅, 0, 0, []⟩

theorem loginLaws_loggedInTwice : LoginLaws (fun _ => none) loggedInTwice :=
  loginLaws_of_reachable (fun _ => none) loggedInTwice
    (Transition.Machine.reachable_exec ⟨rfl, rfl, rfl⟩ (by decide +kernel))

end SteamBee.Steam
