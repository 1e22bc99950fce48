import SteamBee.Steam.WorkerFrames

/-! When the worker logs on: the client is idle, as long as no handler makes the flags of the worker
and the client disagree. -/
namespace SteamBee.Steam
open Schedule (DesiredState)
open Transition (Async Discipline)

variable {s t u : WorkerState} {α : Type}

/-! ## What the parts of the handlers leave alone -/

structure Still (s t : WorkerState) : Prop where
  phase : t.client.phase = s.client.phase
  connected : t.worker.connected = s.worker.connected
  status : t.worker.status = s.worker.status
  logOns : t.trace.logOns = s.trace.logOns

structure Steady (s t : WorkerState) : Prop where
  phase : t.client.phase = s.client.phase
  connected : t.worker.connected = s.worker.connected
  logOns : t.trace.logOns = s.trace.logOns

structure Grounds (s t : WorkerState) : Prop where
  phase : t.client.phase = s.client.phase ∨ t.client.phase = .idle
  logOns : t.trace.logOns = s.trace.logOns

instance : Std.Refl Still := ⟨fun _ => ⟨rfl, rfl, rfl, rfl⟩⟩

instance : Std.Refl Steady := ⟨fun _ => ⟨rfl, rfl, rfl⟩⟩

instance : Std.Refl Grounds := ⟨fun _ => ⟨.inl rfl, rfl⟩⟩

instance : IsTrans WorkerState Still where
  trans _ _ _ h h' := ⟨h'.phase.trans h.phase, h'.connected.trans h.connected,
    h'.status.trans h.status, h'.logOns.trans h.logOns⟩

instance : IsTrans WorkerState Steady where
  trans _ _ _ h h' := ⟨h'.phase.trans h.phase, h'.connected.trans h.connected,
    h'.logOns.trans h.logOns⟩

instance : IsTrans WorkerState Grounds where
  trans _ _ _ h h' := by
    refine ⟨?_, h'.logOns.trans h.logOns⟩
    rcases h'.phase with hsame | hidle
    · rw [hsame]
      exact h.phase
    · exact .inr hidle

theorem Inert.still (h : Inert s t) : Still s t :=
  ⟨congrArg SteamClient.phase h.client, h.connected, h.status, h.logOns⟩

theorem Still.steady (h : Still s t) : Steady s t := ⟨h.phase, h.connected, h.logOns⟩

theorem Steady.grounds (h : Steady s t) : Grounds s t := ⟨.inl h.phase, h.logOns⟩

theorem Still.grounds (h : Still s t) : Grounds s t := h.steady.grounds

namespace Still

theorem reportGames (s : WorkerState) (payload : List PlayedEntry) :
    Still s (s.reportGames payload) := ⟨rfl, rfl, rfl, rfl⟩

theorem withDesiredState (s : WorkerState) (desiredState : DesiredState) :
    Still s (s.withDesiredState desiredState) := by
  unfold WorkerState.withDesiredState
  dsimp only
  split_ifs
  · exact ⟨rfl, rfl, rfl, rfl⟩
  · exact ⟨rfl, rfl, rfl, rfl⟩

end Still

theorem still_of_inert {x : WorkerAsync α} (hx : x.Keeps Inert) : x.Keeps Still :=
  hx.mono fun _ _ => Inert.still

theorem still_awaitOk (point : WorkerAwait) : (awaitOk point).Keeps Still :=
  still_of_inert (inert_awaitOk point)

theorem still_setDesiredState (desiredState : DesiredState) :
    (setDesiredState desiredState).Keeps Still :=
  .bind (.modify fun s => .withDesiredState s desiredState) fun _ => still_awaitOk _

theorem framed_steady : Framed Steady where
  inert h := h.still.steady
  status _ _ _ := ⟨rfl, rfl, rfl⟩
  manuallyPaused _ := ⟨rfl, rfl, rfl⟩
  desiredState s := (Still.withDesiredState s .paused).steady

theorem framed_grounds : Framed Grounds where
  inert h := h.still.grounds
  status _ _ _ := ⟨.inl rfl, rfl⟩
  manuallyPaused _ := ⟨.inl rfl, rfl⟩
  desiredState s := (Still.withDesiredState s .paused).grounds

theorem grounds_withConnected (s : WorkerState) : Grounds s (s.withConnected false) :=
  ⟨.inl rfl, rfl⟩

theorem steady_applyGames (guarded : Bool) : (applyGames guarded).Keeps Steady :=
  framed_steady.applyGames (fun s payload => (Still.reportGames s payload).steady) guarded

/-! ## What the flags say of the client -/

def IdleLogOns (s : WorkerState) : Prop := ∀ call ∈ s.trace.logOns, call.phase = .idle

structure Known (s : WorkerState) : Prop where
  agrees : s.client.phase = .idle ∨ s.worker.connected = true ∨ s.worker.status = .connecting
  logOns : IdleLogOns s

structure Attached (s : WorkerState) : Prop where
  agrees : s.client.phase = .idle ∨ s.worker.connected = true
  logOns : IdleLogOns s

structure Detached (s : WorkerState) : Prop where
  idle : s.client.phase = .idle
  logOns : IdleLogOns s

theorem Attached.known (h : Attached s) : Known s := ⟨h.agrees.imp_right .inl, h.logOns⟩

theorem Detached.attached (h : Detached s) : Attached s := ⟨.inl h.idle, h.logOns⟩

theorem Detached.known (h : Detached s) : Known s := h.attached.known

theorem IdleLogOns.same (h : IdleLogOns s) (hsame : t.trace.logOns = s.trace.logOns) :
    IdleLogOns t := by
  unfold IdleLogOns
  rw [hsame]
  exact h

theorem Known.still (h : Known s) (hst : Still s t) : Known t := by
  refine ⟨?_, h.logOns.same hst.logOns⟩
  rw [hst.phase, hst.connected, hst.status]
  exact h.agrees

theorem Attached.steady (h : Attached s) (hst : Steady s t) : Attached t := by
  refine ⟨?_, h.logOns.same hst.logOns⟩
  rw [hst.phase, hst.connected]
  exact h.agrees

theorem Detached.grounds (h : Detached s) (hst : Grounds s t) : Detached t := by
  refine ⟨?_, h.logOns.same hst.logOns⟩
  rcases hst.phase with hsame | hidle
  · rw [hsame]
    exact h.idle
  · exact hidle

/-! ### Beside a call -/

theorem Known.aside (h : Known s) (hst : Aside s t) : Known t := by
  refine ⟨?_, h.logOns.same hst.logOns⟩
  rw [hst.connected, hst.status]
  rcases hst.phase with hsame | ⟨hconnecting, -⟩ | hidle
  · rw [hsame]
    exact h.agrees
  · right
    refine h.agrees.resolve_left fun hidle => ?_
    rw [hidle] at hconnecting
    cases hconnecting
  · exact .inl hidle

theorem Attached.aside (h : Attached s) (hst : Aside s t) : Attached t := by
  refine ⟨?_, h.logOns.same hst.logOns⟩
  rw [hst.connected]
  rcases hst.phase with hsame | ⟨hconnecting, -⟩ | hidle
  · rw [hsame]
    exact h.agrees
  · right
    refine h.agrees.resolve_left fun hidle => ?_
    rw [hidle] at hconnecting
    cases hconnecting
  · exact .inl hidle

theorem Detached.aside (h : Detached s) (hst : Aside s t) : Detached t := by
  refine ⟨?_, h.logOns.same hst.logOns⟩
  rcases hst.phase with hsame | ⟨hconnecting, -⟩ | hidle
  · rw [hsame]
    exact h.idle
  · rw [h.idle] at hconnecting
    cases hconnecting
  · exact hidle

/-! ## The discipline of a call -/

/-- Each part of a call keeps the client known, whatever is done beside it. -/
def knowing : Discipline WorkerState WorkerAwait Bool where
  Rely := Aside
  Allowed _ _ _ := True
  Guarantee s t := Known s → Known t
  Inv _ _ := True
  rely_refl := .refl
  rely_trans := .trans
  guarantee_refl _ := id
  guarantee_trans h h' := h' ∘ h
  stable _ := id

def Knows (x : WorkerAsync α) (s : WorkerState) : Prop :=
  knowing.Always (fun _ => Known) Known x s

theorem always_still {x : WorkerAsync α} (hx : x.Keeps Still) (h : Known s) :
    knowing.Always (fun _ => Known) Known x s :=
  hx.always (fun _ _ hs hst => ⟨fun _ => hs.still hst, hs.still hst⟩)
    (fun _ _ hst hs => hs.aside hst) (fun _ _ _ => trivial) h

theorem always_steady {x : WorkerAsync α} (hx : x.Keeps Steady) (h : Attached s) :
    knowing.Always (fun _ => Attached) Attached x s :=
  hx.always (fun _ _ hs hst => ⟨fun _ => (hs.steady hst).known, hs.steady hst⟩)
    (fun _ _ hst hs => hs.aside hst) (fun _ _ _ => trivial) h

theorem always_grounds {x : WorkerAsync α} (hx : x.Keeps Grounds) (h : Detached s) :
    knowing.Always (fun _ => Detached) Detached x s :=
  hx.always (fun _ _ hs hst => ⟨fun _ => (hs.grounds hst).known, hs.grounds hst⟩)
    (fun _ _ hst hs => hs.aside hst) (fun _ _ _ => trivial) h

theorem knows_steady {x : WorkerAsync α} (hx : x.Keeps Steady) (h : Attached s) : Knows x s :=
  (always_steady hx h).mono (fun _ _ => Attached.known) fun _ => Attached.known

theorem knows_grounds {x : WorkerAsync α} (hx : x.Keeps Grounds) (h : Detached s) : Knows x s :=
  (always_grounds hx h).mono (fun _ _ => Detached.known) fun _ => Detached.known

namespace Knows
variable {β : Type} {x : WorkerAsync α} {f : α → WorkerAsync β}

theorem pure {a : α} (h : Known s) : Knows (Pure.pure a) s :=
  Discipline.Always.pure h

theorem throw (h : Known s) : Knows (Async.throw : WorkerAsync α) s :=
  Discipline.Always.throw h

theorem get_bind {f : WorkerState → WorkerAsync β} (h : Knows (f s) s) :
    Knows (Async.get >>= f) s := .bind (.get h)

theorem still_bind (hx : x.Keeps Still) (h : Known s) (hf : ∀ a t, Known t → Knows (f a) t) :
    Knows (x >>= f) s := .bind ((always_still hx h).mono hf fun _ => id)

/-- A part that changes the state at once. -/
theorem modify_bind {g : WorkerState → WorkerState} {f : Unit → WorkerAsync β} (h : Known (g s))
    (hf : Knows (f ()) (g s)) : Knows (Async.modify g >>= f) s := .bind (.modify (fun _ => h) hf)

end Knows

/-! ## The handlers -/

theorem knows_applyGames (guarded : Bool) (h : Known s) : Knows (applyGames guarded) s := by
  by_cases hconnected : s.worker.connected = true
  · exact knows_steady (steady_applyGames guarded) ⟨.inr hconnected, h.logOns⟩
  · unfold applyGames
    apply Knows.get_bind
    rw [if_pos (.inr (Bool.eq_false_iff.mpr hconnected))]
    exact .pure h

/-- Where the client is idle, the status is afterwards the one that was set. -/
theorem always_setStatus (status : AccountStatus) (error : Option String) (h : Detached s) :
    knowing.Always (fun _ t => Detached t ∧ t.worker.status = status) Detached
      (setStatus status error) s := by
  have hrely : ∀ {s t : WorkerState}, Aside s t → Detached s ∧ s.worker.status = status →
      Detached t ∧ t.worker.status = status :=
    fun haside hs => ⟨hs.1.aside haside, haside.status.trans hs.2⟩
  have hawait (point : WorkerAwait) {t : WorkerState}
      (ht : Detached t ∧ t.worker.status = status) :
      knowing.Always (fun _ t => Detached t ∧ t.worker.status = status)
        (fun t => Detached t ∧ t.worker.status = status) (awaitOk point) t :=
    (still_awaitOk point).always
      (fun _ _ hs hst => ⟨fun _ => (hs.1.grounds hst.grounds).known,
        hs.1.grounds hst.grounds, hst.status.trans hs.2⟩)
      (fun _ _ => hrely) (fun _ _ _ => trivial) ht
  unfold setStatus
  refine .bind (.get ?_)
  split_ifs with hsame
  · refine .bind (.await trivial fun u hu ok _ => ?_)
    exact .pure (hrely hu ⟨h, hsame.1⟩)
  · have hwritten : Detached (s.withStatus status error) := h.grounds ⟨.inl rfl, rfl⟩
    refine .bind (.modify (fun _ => hwritten.known) ?_)
    have hstatus : (s.withStatus status error).worker.status = status := rfl
    exact (hawait .status ⟨hwritten, hstatus⟩).mono (fun _ _ => id) fun _ => And.left

/-- `logOn` is called on an idle client, which is then known to be connecting. -/
theorem knows_logOn (h : Detached s) (hstatus : s.worker.status = .connecting) :
    Knows logOn s := by
  have hlogOns : IdleLogOns s.callLogOn := by
    intro call hcall
    rcases List.mem_cons.mp hcall with rfl | hcall
    · exact h.idle
    · exact h.logOns call hcall
  unfold logOn
  apply Knows.get_bind
  rw [if_pos h.idle]
  refine Knows.modify_bind ⟨.inl h.idle, hlogOns⟩ ?_
  exact .modify (fun _ => ⟨.inr (.inr hstatus), hlogOns⟩) ⟨.inr (.inr hstatus), hlogOns⟩

/-- A start of a worker that is connected is redundant, or has no token, unless the client is
idle. -/
def StartsInTime (s : WorkerState) : Prop :=
  s.worker.connected = true →
    s.worker.isRedundantStart = true ∨ s.around.token ≠ .present ∨ s.client.phase = .idle

theorem knows_startNow (h : Known s) (htime : StartsInTime s) : Knows startNow s := by
  unfold startNow
  apply Knows.get_bind
  split_ifs with hquiescing hredundant
  · exact .pure h
  · exact .pure h
  have hnot : s.worker.isRedundantStart = false := Bool.eq_false_iff.mpr hredundant
  have hattached : Attached s := by
    refine ⟨?_, h.logOns⟩
    rcases h.agrees with hidle | hconnected | hstatus
    · exact .inl hidle
    · exact .inr hconnected
    · simp [SteamWorker.isRedundantStart, hstatus] at hnot
  cases htoken : s.around.token with
  | unreadable => exact .throw h
  | missing => exact knows_steady (framed_steady.setStatus _ _) hattached
  | present =>
    have hdetached : Detached s := by
      refine ⟨?_, h.logOns⟩
      rcases hattached.agrees with hidle | hconnected
      · exact hidle
      · exact ((htime hconnected).resolve_left hredundant).resolve_left (not_not.mpr htoken)
    have hbegun : Detached ((s.withManuallyPaused false).withStartInFlight true) :=
      hdetached.grounds ⟨.inl rfl, rfl⟩
    refine Knows.modify_bind hbegun.known (.bind ?_)
    refine (always_grounds ((still_setDesiredState .running).mono fun _ _ => Still.grounds)
      hbegun).mono ?_ fun _ => Detached.known
    intro _ t ht
    refine .bind ((always_setStatus .connecting none ht).mono ?_ fun _ => Detached.known)
    intro _ u hu
    refine .bind (.attempt ?_)
    have hlogIn : Knows (do
        if (← Async.get).worker.quiescing then return
        Async.modify fun s => s.beginLogin
        logOn) u := by
      apply Knows.get_bind
      split_ifs
      · exact .pure hu.1.known
      · have hlogin : Detached u.beginLogin := hu.1.grounds ⟨.inl rfl, rfl⟩
        exact Knows.modify_bind hlogin.known (knows_logOn hlogin hu.2)
    have hend (result : Option Unit) (v : WorkerState) (hv : Known v) :
        Knows (do
          Async.modify fun s => s.withStartInFlight false
          if result.isNone then Async.throw) v := by
      refine Knows.modify_bind (hv.still ⟨rfl, rfl, rfl, rfl⟩) ?_
      split_ifs
      · exact .throw (hv.still ⟨rfl, rfl, rfl, rfl⟩)
      · exact .pure (hv.still ⟨rfl, rfl, rfl, rfl⟩)
    exact hlogIn.mono (fun a v => hend (some a) v) fun v => hend none v

/-- A call that has logged off only sets a status. -/
theorem knows_logOff {g : WorkerState → WorkerState} {f : Unit → WorkerAsync α}
    (h : IdleLogOns s) (hg : (g s).client.phase = .idle ∧ (g s).trace.logOns = s.trace.logOns)
    (hf : (f ()).Keeps Grounds) : Knows (Async.modify g >>= f) s := by
  have hdetached : Detached (g s) := ⟨hg.1, h.same hg.2⟩
  exact .modify_bind hdetached.known (knows_grounds hf hdetached)

theorem knows_stopNow (h : Known s) : Knows stopNow s := by
  refine .still_bind (.modify fun s => (Inert.clearAll s).still) h fun _ t ht => ?_
  refine .still_bind (still_awaitOk _) ht fun _ t ht => ?_
  refine .still_bind (still_awaitOk _) ht fun _ t ht => ?_
  refine .still_bind (still_setDesiredState .stopped) ht fun _ t ht => ?_
  exact knows_logOff ht.logOns ⟨rfl, rfl⟩ (framed_grounds.setStatus _ _)

theorem knows_shutdownNow (h : Known s) : Knows shutdownNow s := by
  have hrest (paused : Option Unit) (t : WorkerState) (ht : Known t) : Knows (do
      Async.modify fun s => (s.clearRetryTimers.resetSessionConflict.reportGames []).logOff
      awaitOk .logOff
      tick
      Async.modify fun s => s.withConnected false
      setStatus .disconnected none
      if paused.isNone then Async.throw) t := by
    refine knows_logOff ht.logOns ⟨rfl, ?_⟩ ?_
    · simp [WorkerState.logOff, WorkerState.reportGames, WorkerState.resetSessionConflict]
    · refine .bind ((still_awaitOk _).mono fun _ _ => Still.grounds) fun _ => ?_
      refine .bind ((still_of_inert inert_tick).mono fun _ _ => Still.grounds) fun _ => ?_
      refine .bind (.modify fun s => ⟨.inl rfl, rfl⟩) fun _ => ?_
      exact .bind (framed_grounds.setStatus _ _) fun _ => .ite .throw (.pure ())
  unfold shutdownNow
  apply Knows.get_bind
  dsimp only
  split_ifs
  · exact .still_bind (still_setDesiredState .paused).attempt h hrest
  · exact .still_bind (.pure _) h hrest

/-- A pause changes the status of a worker that is connected, or whose client is idle. -/
theorem knows_pauseNow (h : Known s) (hattached : s.around.shouldGoOn = true → Attached s) :
    Knows pauseNow s := by
  by_cases hshould : s.around.shouldGoOn = true
  · exact knows_steady (framed_steady.pauseNow fun s => (Still.reportGames s []).steady)
      (hattached hshould)
  · unfold pauseNow
    apply Knows.get_bind
    rw [if_pos (Bool.eq_false_iff.mpr hshould)]
    exact .pure h

theorem knows_forceDisconnectForSafety (message : String) (h : Known s) :
    Knows (forceDisconnectForSafety message) s := by
  have hcleared (s : WorkerState) : Still s
      ((s.clearFarmingSelection false).clearRetryTimers.resetSessionConflict.withManuallyPaused
        true) :=
    IsTrans.trans _ _ _ (Inert.clearAll s).still ⟨rfl, rfl, rfl, rfl⟩
  unfold forceDisconnectForSafety
  apply Knows.get_bind
  split_ifs
  · exact .pure h
  · refine .still_bind (.modify hcleared) h fun _ t ht => ?_
    refine .still_bind (still_awaitOk _).attempt ht fun _ t ht => ?_
    refine .still_bind (still_setDesiredState _).attempt ht fun _ t ht => .get_bind ?_
    split_ifs
    · exact .pure ht
    · refine knows_logOff ht.logOns ⟨rfl, rfl⟩ ?_
      exact .bind (framed_grounds.setStatus _ _).attempt fun _ => .ite .throw (.pure ())

theorem knows_markSafetyAttention (message : String) (h : Detached s) :
    Knows (markSafetyAttention message) s :=
  knows_grounds (framed_grounds.markSafetyAttention grounds_withConnected message) h

/-- A resume only starts a worker that is not connected. -/
theorem knows_startOrApply (h : Known s) :
    Knows (do if (← Async.get).worker.connected = false then startNow else applyGames false) s := by
  apply Knows.get_bind
  split_ifs with hconnected
  · apply knows_startNow h
    intro htrue
    rw [hconnected] at htrue
    cases htrue
  · exact knows_applyGames false h

theorem knows_resumeNow (h : Known s) : Knows resumeNow s := by
  refine .still_bind (.modify fun s => ⟨rfl, rfl, rfl, rfl⟩) h fun _ t ht => ?_
  exact .still_bind (still_setDesiredState .running) ht fun _ t ht => knows_startOrApply ht

theorem knows_resumeForFarming (h : Known s) : Knows resumeForFarming s := by
  refine .still_bind (.modify fun s => ⟨rfl, rfl, rfl, rfl⟩) h fun _ t ht => ?_
  exact .still_bind (still_setDesiredState .running) ht fun _ t ht => knows_startOrApply ht

theorem knows_updateAccountNow (account : WorkerRow) (h : Known s) :
    Knows (updateAccountNow account) s := by
  have hrest (t : WorkerState) (ht : Known t) : Knows (do
      Async.modify fun s => s.withRow account
      if (← Async.get).worker.quiescing then return
      applyGames false) t := by
    refine .still_bind (.modify fun s => ⟨rfl, rfl, rfl, rfl⟩) ht fun _ u hu => .get_bind ?_
    split_ifs
    · exact .pure hu
    · exact knows_applyGames false hu
  unfold updateAccountNow
  apply Knows.get_bind
  dsimp only
  split_ifs
  · refine .still_bind (.modify fun s => ⟨rfl, rfl, rfl, rfl⟩) h fun _ t ht => ?_
    refine .still_bind (.modify fun s => (Inert.clearRetries s).still) ht fun _ t ht => ?_
    exact .still_bind (still_awaitOk _) ht fun _ t ht => hrest t ht
  · exact .still_bind (.modify fun s => ⟨rfl, rfl, rfl, rfl⟩) h fun _ t ht => hrest t ht
  · exact hrest s h

theorem knows_applyFarmingSelection (appIds : List AppId) (h : Known s) :
    Knows (applyFarmingSelection appIds) s := by
  unfold applyFarmingSelection
  apply Knows.get_bind
  dsimp only
  split_ifs
  · exact Knows.throw h
  · refine .still_bind (still_of_inert (inert_enforceLimit _ _)) h fun _ t ht => ?_
    refine .still_bind (.modify fun s => ⟨rfl, rfl, rfl, rfl⟩) ht fun _ t ht => ?_
    exact knows_applyGames true ht

/-! ### Events and timers -/

theorem knows_onLoggedOn (h : Known s) : Knows onLoggedOn s := by
  refine .bind (.modify (fun _ => ?_) ?_)
  · refine ⟨.inr (.inl ?_), h.logOns.same ?_⟩ <;>
      simp [WorkerState.withConnected, WorkerState.resetSessionConflict]
  apply knows_steady
  · refine .bind ((still_awaitOk _).mono fun _ _ => Still.steady) fun _ => ?_
    refine .bind ((still_awaitOk _).mono fun _ _ => Still.steady) fun _ => ?_
    refine .bind ((still_awaitOk _).mono fun _ _ => Still.steady) fun _ => ?_
    refine .bind .get fun s => .ite (.pure ()) ?_
    exact .bind (framed_steady.setStatus _ _) fun _ => steady_applyGames false
  · refine ⟨.inr ?_, h.logOns.same ?_⟩ <;>
      simp [WorkerState.withConnected, WorkerState.resetSessionConflict]

theorem steady_onPlayingState : (onPlayingState true).Keeps Steady :=
  framed_steady.onPlayingState fun s => (Still.reportGames s []).steady

theorem knows_onPlayingState_false (h : Known s) : Knows (onPlayingState false) s := by
  have hcleared (s : WorkerState) : Still s s.clearSessionConflictTimer.resetSessionConflict :=
    ((Inert.clearSessionConflictTimer s).trans (Inert.resetSessionConflict _)).still
  unfold onPlayingState
  refine .still_bind (still_awaitOk _) h fun _ t ht => .get_bind ?_
  refine .still_bind (.modify fun s => ⟨rfl, rfl, rfl, rfl⟩) ht fun _ u hu => ?_
  rw [if_neg Bool.false_ne_true]
  split_ifs
  · exact .pure hu
  · apply Knows.get_bind
    split_ifs
    · refine .still_bind (.modify hcleared) hu fun _ v hv => ?_
      exact .still_bind (still_awaitOk _) hv fun _ w hw => knows_applyGames false hw
    · exact .pure hu

theorem knows_retryLiveSessionConflict (h : Known s) : Knows retryLiveSessionConflict s := by
  unfold retryLiveSessionConflict
  apply Knows.get_bind
  split_ifs
  · refine .still_bind (.modify fun s => (Inert.resetSessionConflict s).still) h fun _ t ht => ?_
    refine .still_bind (still_awaitOk _) ht fun _ u hu => ?_
    exact .bind ((knows_applyGames false hu).mono (fun _ _ hv => .pure hv) fun _ => id)
  · refine .still_bind (still_of_inert inert_selectedGamesPayload) h fun payload t ht => ?_
    apply Knows.get_bind
    split_ifs
    · exact .pure ht
    · refine .still_bind (.modify fun s => Still.reportGames s payload) ht fun _ u hu => ?_
      exact always_still (still_of_inert (inert_registerSessionConflict _)) hu

/-! ## Runs -/

/-- When a call may begin. Whatever changes the status of the worker, or ends its connection,
finds the client as the flags then have it. -/
def WorkerTask.InTime (s : WorkerState) : WorkerTask → Prop
  | .command .start => StartsInTime s
  | .command .pause =>
    s.around.shouldGoOn = true → s.client.phase = .idle ∨ s.worker.connected = true
  | .command (.markSafetyAttention _) => s.client.phase = .idle
  | .event (.playingState true) g => g = s.worker.intentGeneration →
      s.client.phase = .idle ∨ s.worker.connected = true
  | .event (.disconnected _ _) g | .event (.error _ _) g =>
    g = s.worker.intentGeneration → s.client.phase = .idle
  | .retrySessionConflict g _ => s.worker.desiredState = .running →
      s.worker.intentGeneration = g → s.worker.sessionConflictMode ≠ some .live → StartsInTime s
  | _ => True

instance (s : WorkerState) : Decidable (StartsInTime s) :=
  inferInstanceAs (Decidable (_ → _ ∨ _ ∨ _))

instance (s : WorkerState) : (task : WorkerTask) → Decidable (task.InTime s)
  | .command .start => inferInstanceAs (Decidable (StartsInTime s))
  | .command .pause => inferInstanceAs (Decidable (_ → _ ∨ _))
  | .command (.markSafetyAttention _) => inferInstanceAs (Decidable (_ = _))
  | .command .stop | .command (.forceDisconnect _) | .command .resume
  | .command .resumeForFarming | .command (.updateAccount _)
  | .command (.applyFarmingSelection _) | .shutdown => inferInstanceAs (Decidable True)
  | .event (.playingState true) _ => inferInstanceAs (Decidable (_ → _ ∨ _))
  | .event (.playingState false) _ | .event .loggedOn _ => inferInstanceAs (Decidable True)
  | .event (.disconnected _ _) _ | .event (.error _ _) _ =>
    inferInstanceAs (Decidable (_ = _ → _ = _))
  | .retrySessionConflict _ _ => inferInstanceAs (Decidable (_ = _ → _ = _ → _ ≠ _ → _))

theorem knows_command (command : WorkerCommand) (h : Known s)
    (htime : (WorkerTask.command command).InTime s) : Knows command.body s := by
  cases command with
  | start => exact knows_startNow h htime
  | stop => exact knows_stopNow h
  | pause => exact knows_pauseNow h fun hshould => ⟨htime hshould, h.logOns⟩
  | forceDisconnect message => exact knows_forceDisconnectForSafety message h
  | markSafetyAttention message => exact knows_markSafetyAttention message ⟨htime, h.logOns⟩
  | resume => exact knows_resumeNow h
  | resumeForFarming => exact knows_resumeForFarming h
  | updateAccount account => exact knows_updateAccountNow account h
  | applyFarmingSelection appIds => exact knows_applyFarmingSelection appIds h

theorem knows_onClientEvent (event : ClientEvent) (g : ℕ) (h : Known s)
    (htime : (WorkerTask.event event g).InTime s) : Knows (onClientEvent event g) s := by
  unfold onClientEvent
  apply Knows.get_bind
  split_ifs with hquiescing hstale hignored
  · exact .pure h
  · exact .pure h
  · exact .pure h
  have hcurrent : g = s.worker.intentGeneration := not_not.mp hstale
  cases event with
  | loggedOn => exact knows_onLoggedOn h
  | playingState blocked =>
    cases blocked with
    | true => exact knows_steady steady_onPlayingState ⟨htime hcurrent, h.logOns⟩
    | false => exact knows_onPlayingState_false h
  | disconnected eresult message =>
    exact knows_grounds (framed_grounds.onDisconnected grounds_withConnected _ _)
      ⟨htime hcurrent, h.logOns⟩
  | error failure message =>
    exact knows_grounds (framed_grounds.onError grounds_withConnected _ _)
      ⟨htime hcurrent, h.logOns⟩

theorem knows_retrySessionConflict (g : ℕ) (resetCycle : Bool) (h : Known s)
    (htime : (WorkerTask.retrySessionConflict g resetCycle).InTime s) :
    Knows (retrySessionConflict g resetCycle) s := by
  have hrest (t : WorkerState) (ht : Known t) (hstarts : t.worker.sessionConflictMode ≠ some .live →
      StartsInTime t) : Knows (do
        if (← Async.get).worker.sessionConflictMode = some .live then retryLiveSessionConflict
        else startNow) t := by
    apply Knows.get_bind
    split_ifs with hmode
    · exact knows_retryLiveSessionConflict ht
    · exact knows_startNow ht (hstarts hmode)
  unfold retrySessionConflict
  apply Knows.get_bind
  dsimp only
  split_ifs with hstale hreset
  · exact .pure h
  all_goals
    obtain ⟨-, hlive⟩ := not_or.mp hstale
    obtain ⟨hdesired, hg⟩ := not_or.mp hlive
    have hstarts := htime (not_not.mp hdesired) (not_not.mp hg)
  · have hrestarted : Known s.restartCycle := h.still ⟨rfl, rfl, rfl, rfl⟩
    exact .modify_bind hrestarted (hrest _ hrestarted hstarts)
  · exact hrest s h hstarts

theorem knows_task (task : WorkerTask) (h : Known s) (htime : task.InTime s) :
    Knows task.body s := by
  cases task with
  | command command => exact knows_command command h htime
  | shutdown => exact knows_shutdownNow h
  | event event g => exact knows_onClientEvent event g h htime
  | retrySessionConflict g resetCycle => exact knows_retrySessionConflict g resetCycle h htime

def InTime (m : WorkerSystem) : WorkerAction → Prop
  | .begin => ∀ call ∈ m.eventQueue.head?, m.isRefused call.task = false →
      call.task.InTime m.state
  | _ => True

instance (m : WorkerSystem) : (a : WorkerAction) → Decidable (InTime m a)
  | .begin => inferInstanceAs (Decidable (∀ call ∈ m.eventQueue.head?, _ → _))
  | .emit _ | .fire _ | .operate | .takeTurn | .command _ | .endOperation | .start | .resume _
  | .resumeRescheduling _ | .clearFarmingSelection _ | .beginShutdown | .shutdown | .surround _ =>
    inferInstanceAs (Decidable True)

def knownClient : WorkerContract where
  Inv := Known
  Idle := Known
  Job _ _ := True
  Call _ _ := True
  Calm := Aside
  Weak s t := Known s → Known t
  discipline _ := knowing
  tail := keeping Aside

theorem aside_scheduleReconnect (decision : RetryDecision) :
    (scheduleReconnect decision).Keeps Aside := by
  have hawait (point : WorkerAwait) : (awaitOk point).Keeps Aside :=
    .bind (.await point) fun _ => .ite (.pure ()) .throw
  refine .bind (.modify fun s => ?_) fun _ => .bind .get fun scheduled => ?_
  · constructor <;> simp [WorkerState.beginReconnect, WorkerState.resetSessionConflict]
  · refine .bind (hawait _) fun _ => .modify fun s => ?_
    exact ⟨rfl, rfl, rfl, rfl, rfl, rfl, id, .inl rfl, .inl rfl, rfl, rfl⟩

theorem aside_halted (call : SerialCall) (returned : Bool) (s : WorkerState) :
    Aside s (WorkerSystem.halted call returned s) := by
  unfold WorkerSystem.halted
  split
  · split_ifs
    · exact ⟨rfl, rfl, rfl, rfl, rfl, rfl, id, .inl rfl, .inl rfl, rfl, rfl⟩
    · exact .refl s
  · exact .refl s

theorem valid_knownClient : knownClient.Valid InTime where
  weak_of_calm hst := fun hs => hs.aside hst
  inv_of_weak hst hs := hst hs
  job_of_weak _ _ := trivial
  call_of_weak _ _ := trivial
  idle_of_calm hst hs := hs.aside hst
  calm_of_disturbs _ hst := hst.aside
  calm_caller _ _ := ⟨rfl, rfl, rfl, rfl, rfl, rfl, id, .inl rfl, .inl rfl, rfl, rfl⟩
  calm_halted call returned _ := aside_halted call returned _
  calm_of_tail hst := hst
  rely_of_disturbs _ hst := hst.aside
  rely_of_calm _ hst := hst
  weak_of_guarantee hst := hst
  tail_rely_of_calm _ := trivial
  tail_rely_of_guarantee _ _ := trivial
  tail_allowed _ _ _ := trivial
  reschedule decision _ := always_keeping (aside_scheduleReconnect decision) _
  event _ _ _ := trivial
  timer _ _ _ := trivial
  operation _ := trivial
  call_event _ := trivial
  call_start _ _ _ _ _ := trivial
  call_retry _ := trivial
  call_command _ := trivial
  call_direct _ := trivial
  call_shutdown _ := trivial
  begins := by
    intro m call rest hc hqueue hrefused hinv _ _
    have htime : call.task.InTime m.state := by
      apply hc call _ hrefused
      rw [hqueue]
      rfl
    exact knows_task call.task (hinv.aside
      ⟨rfl, rfl, rfl, rfl, rfl, rfl, id, .inl rfl, .inl rfl, rfl, rfl⟩) htime
  allowed _ _ _ := trivial

/-- In a run whose calls begin in time, `logOn` is only called on an idle client. -/
theorem logOn_only_idle {m : WorkerSystem} (h : workerMachine.ReachableWhen InTime m) :
    ∀ call ∈ m.state.trace.logOns, call.phase = .idle := by
  have hsound := valid_knownClient.sound h fun row status around => by
    have hknown : Known (.ofRow row status around) := ⟨.inl rfl, fun _ hcall => nomatch hcall⟩
    exact ⟨hknown, hknown⟩
  exact hsound.inv.logOns

/-! ## Two runs -/

def stoppedAccount : WorkerSystem :=
  .ofState (.ofRow ⟨.stopped, none, none⟩ .disconnected ⟨[], .present, true, false, 0⟩)

def startOperation : List WorkerAction :=
  [.operate, .takeTurn, .command .start, .begin, .resume true, .resume true, .endOperation]

def logInHandled : List WorkerAction :=
  [.emit .loggedOn, .takeTurn, .begin, .resume true, .resume true, .resume true, .resume true,
    .resume true, .resume true]

def pauseOperation : List WorkerAction :=
  [.operate, .takeTurn, .command .pause, .begin, .resume true, .resume true, .resume true,
    .endOperation]

/-- A lost connection, whose handler arms the first timer, and the reconnect. -/
def reconnects : List WorkerAction :=
  [.emit (.disconnected (some 3) none), .takeTurn, .begin, .resume true, .resume true, .resume true,
    .fire 0, .takeTurn, .begin, .resume true, .resume true]

theorem starts_stoppedAccount : workerMachine.Starts stoppedAccount := ⟨_, _, _, rfl⟩

theorem logOn_only_idle_reconnects :
    ∃ m, workerMachine.ReachableWhen InTime m ∧ m.state.trace.logOns.length = 2 ∧
      ∀ call ∈ m.state.trace.logOns, call.phase = .idle := by
  have hreach : workerMachine.ReachableWhen InTime
      ((workerMachine.execWhen (fun m a => decide (InTime m a)) stoppedAccount
        (startOperation ++ logInHandled ++ reconnects)).getD stoppedAccount) :=
    Transition.Machine.reachable_execWhen (fun _ _ => of_decide_eq_true) starts_stoppedAccount
      (by decide +kernel)
  exact ⟨_, hreach, by decide +kernel, logOn_only_idle hreach⟩

/-- An account that is paused stays logged on, and a start then logs on again. -/
theorem not_logOn_only_idle : ¬ ∀ m, workerMachine.Reachable m →
    ∀ call ∈ m.state.trace.logOns, call.phase = .idle := by
  intro h
  have hreach : workerMachine.Reachable ((workerMachine.exec stoppedAccount
      (startOperation ++ logInHandled ++ pauseOperation ++ startOperation)).getD stoppedAccount) :=
    Transition.Machine.reachable_exec starts_stoppedAccount (by decide +kernel)
  have hcalls := h _ hreach
  revert hcalls
  decide +kernel

end SteamBee.Steam
