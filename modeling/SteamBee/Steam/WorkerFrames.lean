import SteamBee.Steam.WorkerRule

/-! What the handlers of a worker leave alone: what happens beside a call, and the parts that
the handlers share. -/
namespace SteamBee.Steam
open Schedule (DesiredState)
open Transition (Async Discipline)

variable {s t u : WorkerState}

/-! ## Beside a call -/

/-- What does not change beside a call, or not by itself: a client only logs on while it is
connecting, and it has then been told nothing yet. -/
structure Aside (s t : WorkerState) : Prop where
  desiredState : t.worker.desiredState = s.worker.desiredState
  status : t.worker.status = s.worker.status
  connected : t.worker.connected = s.worker.connected
  manuallyPaused : t.worker.manuallyPaused = s.worker.manuallyPaused
  intentGeneration : t.worker.intentGeneration = s.worker.intentGeneration
  loginAttemptId : t.worker.loginAttemptId = s.worker.loginAttemptId
  quiescing : s.worker.quiescing = true → t.worker.quiescing = true
  phase : t.client.phase = s.client.phase ∨
    s.client.phase = .connecting ∧ t.client.phase = .loggedOn ∨ t.client.phase = .idle
  played : t.client.played = s.client.played ∨
    s.client.phase = .connecting ∧ t.client.played = none
  logOns : t.trace.logOns = s.trace.logOns
  reports : t.trace.reports = s.trace.reports

theorem Aside.refl (s : WorkerState) : Aside s s :=
  ⟨rfl, rfl, rfl, rfl, rfl, rfl, id, .inl rfl, .inl rfl, rfl, rfl⟩

theorem Aside.trans (h : Aside s t) (h' : Aside t u) : Aside s u where
  desiredState := h'.desiredState.trans h.desiredState
  status := h'.status.trans h.status
  connected := h'.connected.trans h.connected
  manuallyPaused := h'.manuallyPaused.trans h.manuallyPaused
  intentGeneration := h'.intentGeneration.trans h.intentGeneration
  loginAttemptId := h'.loginAttemptId.trans h.loginAttemptId
  quiescing hs := h'.quiescing (h.quiescing hs)
  phase := by
    have hst := h.phase
    have htu := h'.phase
    grind
  played := by
    have hst := h.phase
    have hplayed := h.played
    have hplayed' := h'.played
    grind
  logOns := h'.logOns.trans h.logOns
  reports := h'.reports.trans h.reports

instance : Std.Refl Aside := ⟨Aside.refl⟩

instance : IsTrans WorkerState Aside := ⟨fun _ _ _ => Aside.trans⟩

namespace WorkerState

@[simp] theorem clearReconnect_worker (s : WorkerState) :
    s.clearReconnect.worker = { s.worker with reconnectTimer := none } := by
  unfold clearReconnect clearTimeout
  split <;> rfl

@[simp] theorem clearReconnect_client (s : WorkerState) : s.clearReconnect.client = s.client := by
  unfold clearReconnect clearTimeout
  split <;> rfl

@[simp] theorem clearReconnect_trace (s : WorkerState) : s.clearReconnect.trace = s.trace := by
  unfold clearReconnect clearTimeout
  split <;> rfl

@[simp] theorem clearSessionConflictTimer_worker (s : WorkerState) :
    s.clearSessionConflictTimer.worker = { s.worker with sessionConflictTimer := none } := by
  unfold clearSessionConflictTimer clearTimeout
  split <;> rfl

@[simp] theorem clearSessionConflictTimer_client (s : WorkerState) :
    s.clearSessionConflictTimer.client = s.client := by
  unfold clearSessionConflictTimer clearTimeout
  split <;> rfl

@[simp] theorem clearSessionConflictTimer_trace (s : WorkerState) :
    s.clearSessionConflictTimer.trace = s.trace := by
  unfold clearSessionConflictTimer clearTimeout
  split <;> rfl

@[simp] theorem clearRetryTimers_worker (s : WorkerState) : s.clearRetryTimers.worker =
    { s.worker with reconnectTimer := none, sessionConflictTimer := none } := by
  simp [clearRetryTimers]

@[simp] theorem clearRetryTimers_client (s : WorkerState) :
    s.clearRetryTimers.client = s.client := by
  simp [clearRetryTimers]

@[simp] theorem clearRetryTimers_trace (s : WorkerState) : s.clearRetryTimers.trace = s.trace := by
  simp [clearRetryTimers]

end WorkerState

theorem aside_clearFarmingSelection (s : WorkerState) (keepAwaitingFarming : Bool) :
    Aside s (s.clearFarmingSelection keepAwaitingFarming) :=
  ⟨rfl, rfl, rfl, rfl, rfl, rfl, id, .inl rfl, .inl rfl, rfl, rfl⟩

theorem aside_beginShutdown (s : WorkerState) : Aside s s.beginShutdown := by
  unfold WorkerState.beginShutdown
  split_ifs
  · exact .refl s
  · constructor <;> simp [WorkerState.resetSessionConflict, WorkerState.clearFarmingSelection]

theorem Disturbs.aside (h : Disturbs s t) : Aside s t := by
  cases h with
  | surround around => exact ⟨rfl, rfl, rfl, rfl, rfl, rfl, id, .inl rfl, .inl rfl, rfl, rfl⟩
  | clearFarmingSelection keepAwaitingFarming => exact aside_clearFarmingSelection s _
  | beginShutdown => exact aside_beginShutdown s
  | emit event client hclient =>
    constructor
    case phase =>
      cases event <;> simp only [SteamClient.emits] at hclient <;> grind
    case played =>
      cases event <;> simp only [SteamClient.emits] at hclient <;> grind
    case quiescing => exact id
    all_goals rfl
  | expire | reconnect | sessionConflict =>
    exact ⟨rfl, rfl, rfl, rfl, rfl, rfl, id, .inl rfl, .inl rfl, rfl, rfl⟩

/-! ## The parts that the handlers share -/

/-- The intent, the flags, the status and the client are as they were, and nothing is called. -/
structure Inert (s t : WorkerState) : Prop where
  desiredState : t.worker.desiredState = s.worker.desiredState
  connected : t.worker.connected = s.worker.connected
  manuallyPaused : t.worker.manuallyPaused = s.worker.manuallyPaused
  status : t.worker.status = s.worker.status
  client : t.client = s.client
  logOns : t.trace.logOns = s.trace.logOns
  reports : t.trace.reports = s.trace.reports

theorem Inert.refl (s : WorkerState) : Inert s s := ⟨rfl, rfl, rfl, rfl, rfl, rfl, rfl⟩

theorem Inert.trans (h : Inert s t) (h' : Inert t u) : Inert s u where
  desiredState := h'.desiredState.trans h.desiredState
  connected := h'.connected.trans h.connected
  manuallyPaused := h'.manuallyPaused.trans h.manuallyPaused
  status := h'.status.trans h.status
  client := h'.client.trans h.client
  logOns := h'.logOns.trans h.logOns
  reports := h'.reports.trans h.reports

instance : Std.Refl Inert := ⟨Inert.refl⟩

instance : IsTrans WorkerState Inert := ⟨fun _ _ _ => Inert.trans⟩

namespace Inert

theorem clearReconnect (s : WorkerState) : Inert s s.clearReconnect := by
  constructor <;> simp

theorem clearSessionConflictTimer (s : WorkerState) : Inert s s.clearSessionConflictTimer := by
  constructor <;> simp

theorem clearRetryTimers (s : WorkerState) : Inert s s.clearRetryTimers := by
  constructor <;> simp

theorem resetSessionConflict (s : WorkerState) : Inert s s.resetSessionConflict :=
  ⟨rfl, rfl, rfl, rfl, rfl, rfl, rfl⟩

theorem clearFarmingSelection (s : WorkerState) (keepAwaitingFarming : Bool) :
    Inert s (s.clearFarmingSelection keepAwaitingFarming) := ⟨rfl, rfl, rfl, rfl, rfl, rfl, rfl⟩

/-- The retries end. -/
theorem clearRetries (s : WorkerState) : Inert s s.clearRetryTimers.resetSessionConflict :=
  (clearRetryTimers s).trans (resetSessionConflict _)

/-- Farming and the retries end. -/
theorem clearAll (s : WorkerState) :
    Inert s (s.clearFarmingSelection false).clearRetryTimers.resetSessionConflict :=
  (clearFarmingSelection s false).trans (clearRetries _)

theorem beginReconnect (s : WorkerState) : Inert s s.beginReconnect := by
  constructor <;> simp [WorkerState.beginReconnect, WorkerState.resetSessionConflict]

theorem beginSessionConflict (s : WorkerState) (source : ConflictMode) :
    Inert s (s.beginSessionConflict source) := by
  constructor <;> simp [WorkerState.beginSessionConflict]

theorem beginShutdown (s : WorkerState) : Inert s s.beginShutdown := by
  unfold WorkerState.beginShutdown
  split_ifs
  · exact .refl s
  · constructor <;> simp [WorkerState.resetSessionConflict, WorkerState.clearFarmingSelection]

end Inert

theorem inert_awaitOk (point : WorkerAwait) : (awaitOk point).Keeps Inert :=
  .bind (.await point) fun _ => .ite (.pure ()) .throw

theorem inert_tick : tick.Keeps Inert := .bind (.await _) fun _ => .pure ()

theorem inert_enforceLimit (appIds : List AppId) (customTitle : Option String) :
    (enforceLimit appIds customTitle).Keeps Inert := by
  unfold enforceLimit
  split
  · exact .pure ()
  · exact .throw

theorem inert_selectedGamesPayload : selectedGamesPayload.Keeps Inert := by
  refine .bind .get fun s => ?_
  cases s.worker.farmingAppIds with
  | some appIds =>
    exact .bind (inert_enforceLimit _ _) fun _ => .bind inert_tick fun _ => .pure _
  | none =>
    refine .ite (.bind inert_tick fun _ => .pure _) ?_
    refine .bind (inert_awaitOk _) fun _ => .bind .get fun s => ?_
    exact .bind (inert_enforceLimit _ _) fun _ => .pure _

theorem inert_scheduleReconnect (decision : RetryDecision) :
    (scheduleReconnect decision).Keeps Inert := by
  refine .bind (.modify Inert.beginReconnect) fun _ => .bind .get fun scheduled => ?_
  exact .bind (inert_awaitOk _) fun _ => .modify fun s => ⟨rfl, rfl, rfl, rfl, rfl, rfl, rfl⟩

theorem inert_registerSessionConflict (source : ConflictMode) :
    (registerSessionConflict source).Keeps Inert := by
  refine .bind (.modify fun s => Inert.beginSessionConflict s source) fun _ => ?_
  refine .bind .get fun s => .bind (inert_awaitOk _) fun _ => .bind (inert_awaitOk _) fun _ => ?_
  exact .modify fun s => ⟨rfl, rfl, rfl, rfl, rfl, rfl, rfl⟩

/-! ## Handlers under a relation of their parts -/

/-- What holds across each part of a handler that pauses the account at most. -/
structure Framed (G : WorkerState → WorkerState → Prop) : Prop where
  inert : ∀ {s t}, Inert s t → G s t
  status : ∀ s status error, G s (s.withStatus status error)
  manuallyPaused : ∀ s, G s (s.withManuallyPaused true)
  desiredState : ∀ s, G s (s.withDesiredState .paused)

namespace Framed
variable {G : WorkerState → WorkerState → Prop} [Std.Refl G] [IsTrans WorkerState G] {α : Type}

omit [Std.Refl G] [IsTrans WorkerState G] in
theorem of_inert (hG : Framed G) {x : WorkerAsync α} (hx : x.Keeps Inert) : x.Keeps G :=
  hx.mono fun _ _ => hG.inert

theorem setStatus (hG : Framed G) (status : AccountStatus) (error : Option String) :
    (setStatus status error).Keeps G := by
  refine .bind .get fun s => .ite (hG.of_inert inert_tick) ?_
  exact .bind (.modify fun s => hG.status s _ _) fun _ => hG.of_inert (inert_awaitOk _)

theorem setDesiredState (hG : Framed G) : (setDesiredState .paused).Keeps G :=
  .bind (.modify hG.desiredState) fun _ => hG.of_inert (inert_awaitOk _)

theorem loseConnection (hG : Framed G) (decision : RetryDecision) :
    (loseConnection decision).Keeps G := by
  refine .bind .get fun s => .bind (.modify fun s => hG.inert (.clearFarmingSelection s _))
    fun _ => .ite (.modify fun s => hG.inert ⟨rfl, rfl, rfl, rfl, rfl, rfl, rfl⟩) ?_
  exact .ite (.bind (.modify hG.manuallyPaused) fun _ => hG.setDesiredState) (.pure ())

/-! ### With reports -/

theorem applyGames (hG : Framed G)
    (hreport : ∀ (s : WorkerState) payload, G s (s.reportGames payload)) (guarded : Bool) :
    (applyGames guarded).Keeps G := by
  have hstatus (payload : List PlayedEntry) (status : AccountStatus) : (do
      Async.modify fun s => s.reportGames payload
      Steam.setStatus status none : WorkerAsync Unit).Keeps G :=
    .bind (.modify fun s => hreport s payload) fun _ => hG.setStatus _ _
  refine .bind .get fun s => .ite (.pure ()) (.ite ?_ (.ite ?_ ?_))
  · exact .bind (.modify fun s => hreport s []) fun _ => .bind (hG.setStatus _ _) fun _ => .pure ()
  · exact .bind (.modify fun s => hreport s []) fun _ => .bind (hG.setStatus _ _) fun _ => .pure ()
  · refine .bind (hG.of_inert inert_selectedGamesPayload) fun payload => ?_
    exact .bind .get fun s => .ite (.pure ()) (hstatus _ _)

theorem pauseNow (hG : Framed G) (hreport : ∀ s : WorkerState, G s (s.reportGames [])) :
    pauseNow.Keeps G := by
  refine .bind .get fun s => .ite (.pure ()) ?_
  refine .bind (.modify fun s => hG.inert (.clearAll s)) fun _ => ?_
  refine .bind (hG.of_inert (inert_awaitOk _)) fun _ => .bind .get fun s => .ite (.pure ()) ?_
  refine .bind (.modify hG.manuallyPaused) fun _ => .bind hG.setDesiredState fun _ => ?_
  refine .bind .get fun s => .ite (.pure ()) ?_
  exact .bind (.modify hreport) fun _ => hG.setStatus _ _

/-- Games played elsewhere end those of the account. -/
theorem onPlayingState (hG : Framed G) (hreport : ∀ s : WorkerState, G s (s.reportGames [])) :
    (onPlayingState true).Keeps G := by
  have hrest (wasBlocked : Bool) : (do
      Async.modify fun s => s.reportGames []
      Steam.setStatus .pausedOtherSession none
      if wasBlocked = false ∧ (← Async.get).worker.desiredState = .running then
        registerSessionConflict .live
      return : WorkerAsync Unit).Keeps G := by
    refine .bind (.modify hreport) fun _ => .bind (hG.setStatus _ _) fun _ => ?_
    refine .bind .get fun s => .ite ?_ (.pure ())
    exact .bind (hG.of_inert (inert_registerSessionConflict _)) fun _ => .pure ()
  refine .bind (hG.of_inert (inert_awaitOk _)) fun _ => .bind .get fun s => ?_
  refine .bind (.modify fun s => hG.inert ⟨rfl, rfl, rfl, rfl, rfl, rfl, rfl⟩) fun _ => ?_
  refine .bind .get fun t => ?_
  refine .bind (.modify fun s => hG.inert (.clearFarmingSelection s false)) fun _ => ?_
  refine .ite (.bind (.modify hG.manuallyPaused) fun _ => ?_) (hrest _)
  exact .bind hG.setDesiredState fun _ => hrest _

/-! ### With the end of the connection -/

theorem handleTerminalFailure (hG : Framed G)
    (hdown : ∀ s : WorkerState, G s (s.withConnected false)) (decision : RetryDecision)
    (message : String) : (handleTerminalFailure decision message).Keeps G := by
  refine .bind (.modify fun s => ?_) fun _ => .bind (hG.of_inert (inert_awaitOk _)) fun _ => ?_
  · have hdisconnected := hdown s.clearRetryTimers.resetSessionConflict
    have hcleared := IsTrans.trans _ _ _ (hG.inert (Inert.clearRetries s)) hdisconnected
    exact IsTrans.trans _ _ _ hcleared (hG.inert ⟨rfl, rfl, rfl, rfl, rfl, rfl, rfl⟩)
  · exact .bind hG.setDesiredState fun _ => hG.setStatus _ _

theorem handleLoginSessionConflict (hG : Framed G)
    (hdown : ∀ s : WorkerState, G s (s.withConnected false)) :
    handleLoginSessionConflict.Keeps G := by
  refine .bind .get fun s => .ite (.pure ()) (.bind (.modify fun s => ?_) fun _ => ?_)
  · exact IsTrans.trans _ _ _ (hdown s) (hG.inert ⟨rfl, rfl, rfl, rfl, rfl, rfl, rfl⟩)
  · refine .bind (hG.setStatus _ _) fun _ => ?_
    exact hG.of_inert (inert_registerSessionConflict _)

/-- The rest of the handler of a disconnect. -/
theorem afterDisconnect (hG : Framed G)
    (hdown : ∀ s : WorkerState, G s (s.withConnected false)) (decision : RetryDecision)
    (message : Option String) : (do
      let s ← Async.get
      if s.worker.handledConflictLoginAttemptId = some s.worker.loginAttemptId then return
      if decision.errorClass = .sessionReplaced then
        Steam.handleLoginSessionConflict
        return
      if decision.terminal then
        Steam.handleTerminalFailure decision
          (message.getD "Steam disconnected permanently.")
        return
      if (← Async.get).worker.desiredState = .running then
        Steam.setStatus .reconnecting none
        scheduleReconnect decision
      else Steam.setStatus .disconnected none : WorkerAsync Unit).Keeps G := by
  refine .bind .get fun s => .ite (.pure ()) (.ite ?_ (.ite ?_ ?_))
  · exact .bind (hG.handleLoginSessionConflict hdown) fun _ => .pure ()
  · exact .bind (hG.handleTerminalFailure hdown _ _) fun _ => .pure ()
  · refine .bind .get fun s => .ite (.bind (hG.setStatus _ _) fun _ => ?_) (hG.setStatus _ _)
    exact hG.of_inert (inert_scheduleReconnect _)

theorem onDisconnected (hG : Framed G)
    (hdown : ∀ s : WorkerState, G s (s.withConnected false)) (eresult : Option ℤ)
    (message : Option String) : (onDisconnected eresult message).Keeps G := by
  refine .bind (hG.loseConnection _) fun _ => .bind (.modify hdown) fun _ => ?_
  refine .ite (.bind (hG.of_inert (inert_awaitOk _)) fun _ => ?_) ?_
  · exact hG.afterDisconnect hdown _ message
  · exact hG.afterDisconnect hdown _ message

/-- The rest of the handler of an error. -/
theorem afterError (hG : Framed G) (hdown : ∀ s : WorkerState, G s (s.withConnected false))
    (decision : RetryDecision) (message : String) : (do
      let s ← Async.get
      if s.worker.handledConflictLoginAttemptId = some s.worker.loginAttemptId then return
      if decision.errorClass = .sessionReplaced then
        Steam.handleLoginSessionConflict
        return
      if decision.terminal then
        Steam.handleTerminalFailure decision message
        return
      Steam.setStatus .error (some message)
      if (← Async.get).worker.desiredState = .running then scheduleReconnect decision :
        WorkerAsync Unit).Keeps G := by
  refine .bind .get fun s => .ite (.pure ()) (.ite ?_ (.ite ?_ ?_))
  · exact .bind (hG.handleLoginSessionConflict hdown) fun _ => .pure ()
  · exact .bind (hG.handleTerminalFailure hdown _ _) fun _ => .pure ()
  · refine .bind (hG.setStatus _ _) fun _ => .bind .get fun s => .ite ?_ (.pure ())
    exact hG.of_inert (inert_scheduleReconnect _)

theorem onError (hG : Framed G) (hdown : ∀ s : WorkerState, G s (s.withConnected false))
    (error : SteamFailure) (message : String) : (onError error message).Keeps G :=
  .bind (.modify hdown) fun _ => .bind (hG.loseConnection _) fun _ =>
    hG.afterError hdown _ message

theorem markSafetyAttention (hG : Framed G)
    (hdown : ∀ s : WorkerState, G s (s.withConnected false)) (message : String) :
    (markSafetyAttention message).Keeps G := by
  refine .bind (.modify fun s => ?_) fun _ => ?_
  · have hdisconnected := hdown s.clearRetryTimers.resetSessionConflict
    have hcleared := IsTrans.trans _ _ _ (hG.inert (Inert.clearRetries s)) hdisconnected
    exact IsTrans.trans _ _ _ hcleared (hG.manuallyPaused _)
  · refine .bind hG.setDesiredState fun _ => ?_
    exact .bind (hG.of_inert (inert_awaitOk _)) fun _ => hG.setStatus _ _

end Framed

/-! ## Calls of which only the parts are known -/

/-- Each part of the call keeps `G`, whatever is done beside it. -/
def keeping (G : WorkerState → WorkerState → Prop) [Std.Refl G] [IsTrans WorkerState G] :
    Discipline WorkerState WorkerAwait Bool where
  Rely _ _ := True
  Allowed _ _ _ := True
  Guarantee := G
  Inv _ _ := True
  rely_refl _ := trivial
  rely_trans _ _ := trivial
  guarantee_refl := refl
  guarantee_trans h h' := IsTrans.trans _ _ _ h h'
  stable _ := id

theorem always_keeping {G : WorkerState → WorkerState → Prop} [Std.Refl G] [IsTrans WorkerState G]
    {α : Type} {x : WorkerAsync α} (hx : x.Keeps G) (s : WorkerState) :
    (keeping G).Always (fun _ _ => True) (fun _ => True) x s :=
  hx.always (P := fun _ => True) (fun _ _ _ hst => ⟨hst, trivial⟩) (fun _ _ _ _ => trivial)
    (fun _ _ _ => trivial) trivial

end SteamBee.Steam
