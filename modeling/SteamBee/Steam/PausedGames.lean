import SteamBee.Steam.LogOns

/-! What an account that is not to run has told Steam to play: nothing, as long as no pause is
broken off and no row changes the intent beside the commands. -/
namespace SteamBee.Steam
open Schedule (DesiredState)
open Transition (Async Discipline Pause)

variable {s t u : WorkerState} {α β : Type}

/-! ## Frames -/

/-- Nothing is reported, and the intent and the flags are as they were; the client may log on, when
it has been told nothing yet, or be no longer logged on. -/
structure Beside (s t : WorkerState) : Prop where
  desiredState : t.worker.desiredState = s.worker.desiredState
  connected : t.worker.connected = s.worker.connected
  manuallyPaused : t.worker.manuallyPaused = s.worker.manuallyPaused
  reports : t.trace.reports = s.trace.reports
  played : t.client.phase = .loggedOn →
    s.client.phase = .loggedOn ∧ t.client.played = s.client.played ∨ t.client.played = none

theorem beside_of_client (hdesired : t.worker.desiredState = s.worker.desiredState)
    (hconnected : t.worker.connected = s.worker.connected)
    (hpaused : t.worker.manuallyPaused = s.worker.manuallyPaused)
    (hreports : t.trace.reports = s.trace.reports) (hclient : t.client = s.client) :
    Beside s t := by
  refine ⟨hdesired, hconnected, hpaused, hreports, fun hphase => ?_⟩
  rw [hclient] at hphase ⊢
  exact .inl ⟨hphase, rfl⟩

theorem Inert.beside (h : Inert s t) : Beside s t :=
  beside_of_client h.desiredState h.connected h.manuallyPaused h.reports h.client

theorem Beside.refl (s : WorkerState) : Beside s s := (Inert.refl s).beside

theorem Beside.trans (h : Beside s t) (h' : Beside t u) : Beside s u where
  desiredState := h'.desiredState.trans h.desiredState
  connected := h'.connected.trans h.connected
  manuallyPaused := h'.manuallyPaused.trans h.manuallyPaused
  reports := h'.reports.trans h.reports
  played hphase := by
    rcases h'.played hphase with ⟨hlogged, hsame⟩ | hnone
    · rw [hsame]
      exact h.played hlogged
    · exact .inr hnone

instance : Std.Refl Beside := ⟨Beside.refl⟩

instance : IsTrans WorkerState Beside := ⟨fun _ _ _ => Beside.trans⟩

theorem Disturbs.beside (h : Disturbs s t) : Beside s t := by
  cases h with
  | beginShutdown => exact (Inert.beginShutdown s).beside
  | emit event client hclient =>
    refine ⟨rfl, rfl, rfl, rfl, fun hphase => ?_⟩
    cases event <;> simp only [SteamClient.emits] at hclient <;> grind
  | surround | clearFarmingSelection | expire | reconnect | sessionConflict =>
    exact beside_of_client rfl rfl rfl rfl rfl

theorem beside_halted (call : SerialCall) (returned : Bool) (s : WorkerState) :
    Beside s (WorkerSystem.halted call returned s) := by
  unfold WorkerSystem.halted
  split
  · split_ifs
    · exact beside_of_client rfl rfl rfl rfl rfl
    · exact .refl s
  · exact .refl s

theorem beside_of_inert {x : WorkerAsync α} (hx : x.Keeps Inert) : x.Keeps Beside :=
  hx.mono fun _ _ => Inert.beside

theorem beside_setStatus (status : AccountStatus) (error : Option String) :
    (setStatus status error).Keeps Beside := by
  refine .bind .get fun s => .ite (beside_of_inert inert_tick) ?_
  refine .bind (.modify fun s => beside_of_client rfl rfl rfl rfl rfl) fun _ => ?_
  exact beside_of_inert (inert_awaitOk _)

/-! ## Silence -/

/-- A client that is logged on has been told to play nothing, if anything. -/
def Quiet (s : WorkerState) : Prop :=
  s.client.phase = .loggedOn → ∀ payload, s.client.played = some payload → payload = []

def HeldBack (s : WorkerState) : Prop :=
  s.worker.connected = true → s.worker.manuallyPaused = true

def Silenced (s : WorkerState) : Prop :=
  s.worker.desiredState ≠ .running → Quiet s ∧ HeldBack s

def ToRun (s : WorkerState) : Prop := s.worker.desiredState = .running

/-- Games have only been reported for an account that was to run. -/
def Wanted (s : WorkerState) : Prop :=
  ∀ report ∈ s.trace.reports, report.payload ≠ [] → report.desiredState = .running

theorem ToRun.silenced (h : ToRun s) : Silenced s := fun hnot => absurd h hnot

theorem Quiet.beside (h : Quiet s) (hst : Beside s t) : Quiet t := by
  intro hphase payload hplayed
  rcases hst.played hphase with ⟨hlogged, hsame⟩ | hnone
  · rw [hsame] at hplayed
    exact h hlogged payload hplayed
  · rw [hnone] at hplayed
    cases hplayed

theorem HeldBack.beside (h : HeldBack s) (hst : Beside s t) : HeldBack t := by
  unfold HeldBack
  rw [hst.connected, hst.manuallyPaused]
  exact h

theorem ToRun.beside (h : ToRun s) (hst : Beside s t) : ToRun t := hst.desiredState.trans h

theorem Silenced.beside (h : Silenced s) (hst : Beside s t) : Silenced t := by
  intro hdesired
  rw [hst.desiredState] at hdesired
  exact ⟨(h hdesired).1.beside hst, (h hdesired).2.beside hst⟩

theorem Wanted.same (h : Wanted s) (hreports : t.trace.reports = s.trace.reports) : Wanted t := by
  unfold Wanted
  rw [hreports]
  exact h

theorem Wanted.reportGames (h : Wanted s) {payload : List PlayedEntry}
    (hpayload : payload = [] ∨ ToRun s) : Wanted (s.reportGames payload) := by
  intro report hreport hne
  rcases List.mem_cons.mp hreport with rfl | hreport
  · exact hpayload.resolve_left hne
  · exact h report hreport hne

/-- What is told last is nothing. -/
theorem quiet_reportGames (s : WorkerState) : Quiet (s.reportGames []) := by
  intro _ payload hplayed
  exact (Option.some.inj hplayed).symm

theorem withDesiredState_same (s : WorkerState) (desiredState : DesiredState) :
    (s.withDesiredState desiredState).worker.connected = s.worker.connected ∧
    (s.withDesiredState desiredState).worker.manuallyPaused = s.worker.manuallyPaused ∧
    (s.withDesiredState desiredState).client = s.client ∧
    (s.withDesiredState desiredState).trace.reports = s.trace.reports := by
  unfold WorkerState.withDesiredState
  dsimp only
  split_ifs
  · exact ⟨rfl, rfl, rfl, rfl⟩
  · exact ⟨rfl, rfl, rfl, rfl⟩

theorem Quiet.same (h : Quiet s) (hclient : t.client = s.client) : Quiet t := by
  unfold Quiet
  rw [hclient]
  exact h

/-! ## The discipline of a call -/

def WorkerTask.isGuarded : WorkerTask → Bool
  | .command .pause | .command (.forceDisconnect _) => true
  | _ => false

/-- What is awaited resolves, and a call is not broken off behind the write of the intent while
games are played. -/
def silencing (task : WorkerTask) : Discipline WorkerState WorkerAwait Bool where
  Rely := Beside
  Allowed point ok s := ok = true ∧
    (point = .desiredState → task.isGuarded = true → s.around.shouldGoOn = true ∨ Quiet s)
  Guarantee s t := Wanted s → Wanted t
  Inv _ _ := True
  rely_refl := .refl
  rely_trans := .trans
  guarantee_refl _ := id
  guarantee_trans h h' := h' ∘ h
  stable _ := id

section Silencing
variable {task : WorkerTask} {x : WorkerAsync α} {f : α → WorkerAsync β} {P : WorkerState → Prop}
  {E : WorkerState → Prop}

def Silences (task : WorkerTask) (x : WorkerAsync α) (s : WorkerState) : Prop :=
  (silencing task).Always (fun _ => Silenced) Silenced x s

theorem always_beside (hx : x.Keeps Beside) (hP : ∀ {s t}, P s → Beside s t → P t) (h : P s) :
    (silencing task).Always (fun _ => P) P x s :=
  hx.always (fun _ _ hs hst => ⟨fun hwanted => hwanted.same hst.reports, hP hs hst⟩)
    (fun _ _ hst hs => hP hs hst) (fun _ _ _ => trivial) h

theorem always_awaitOk (point : WorkerAwait) (hP : ∀ {s t}, P s → Beside s t → P t) (h : P s) :
    (silencing task).Always (fun _ t => P t ∧ (point = .desiredState → task.isGuarded = true →
      t.around.shouldGoOn = true ∨ Quiet t)) E (awaitOk point) s := by
  unfold awaitOk
  refine .bind (.await trivial fun u hu ok hallowed => ?_)
  rw [if_pos hallowed.1]
  exact .pure ⟨hP h hu, hallowed.2⟩

theorem always_setDesiredState (desiredState : DesiredState)
    (hP : ∀ {s t}, P s → Beside s t → P t) (h : P (s.withDesiredState desiredState)) :
    (silencing task).Always (fun _ t => P t ∧ (task.isGuarded = true →
      t.around.shouldGoOn = true ∨ Quiet t)) E (setDesiredState desiredState) s := by
  refine .bind (.modify (fun hwanted => hwanted.same (withDesiredState_same s _).2.2.2) ?_)
  exact (always_awaitOk .desiredState hP h).mono (fun _ _ ht => ⟨ht.1, ht.2 rfl⟩) fun _ => id

namespace Silences

theorem pure {a : α} (h : Silenced s) : Silences task (Pure.pure a) s := Discipline.Always.pure h

theorem throw (h : Silenced s) : Silences task (Async.throw : WorkerAsync α) s :=
  Discipline.Always.throw h

theorem get_bind {f : WorkerState → WorkerAsync β} (h : Silences task (f s) s) :
    Silences task (Async.get >>= f) s := .bind (.get h)

theorem modify_bind {g : WorkerState → WorkerState} {f : Unit → WorkerAsync β}
    (hg : Wanted s → Wanted (g s)) (h : Silences task (f ()) (g s)) :
    Silences task (Async.modify g >>= f) s := .bind (.modify hg h)

theorem of_beside (hx : x.Keeps Beside) (h : Silenced s) : Silences task x s :=
  always_beside hx Silenced.beside h

theorem beside_bind (hx : x.Keeps Beside) (h : Silenced s)
    (hf : ∀ a t, Silenced t → Silences task (f a) t) : Silences task (x >>= f) s :=
  .bind ((always_beside hx Silenced.beside h).mono hf fun _ => id)

theorem toRun_bind (hx : x.Keeps Beside) (h : ToRun s)
    (hf : ∀ a t, ToRun t → Silences task (f a) t) : Silences task (x >>= f) s :=
  .bind ((always_beside hx ToRun.beside h).mono hf fun _ => ToRun.silenced)

theorem awaitOk_bind {point : WorkerAwait} {f : Unit → WorkerAsync β}
    (hP : ∀ {s t}, P s → Beside s t → P t) (h : P s) (hf : ∀ t, P t → Silences task (f ()) t) :
    Silences task (awaitOk point >>= f) s :=
  .bind ((always_awaitOk point hP h).mono (fun _ t ht => hf t ht.1) fun _ => id)

theorem setDesiredState_bind {desiredState : DesiredState} {f : Unit → WorkerAsync β}
    (hP : ∀ {s t}, P s → Beside s t → P t) (h : P (s.withDesiredState desiredState))
    (hf : ∀ t, P t → (task.isGuarded = true → t.around.shouldGoOn = true ∨ Quiet t) →
      Silences task (f ()) t) : Silences task (setDesiredState desiredState >>= f) s :=
  .bind ((always_setDesiredState desiredState hP h).mono (fun _ t ht => hf t ht.1 ht.2)
    fun _ => id)

theorem attempt_awaitOk_bind {point : WorkerAwait} {f : Option Unit → WorkerAsync β}
    (hP : ∀ {s t}, P s → Beside s t → P t) (h : P s)
    (hf : ∀ result t, P t → Silences task (f result) t) :
    Silences task (Async.attempt (awaitOk point) >>= f) s :=
  .bind (.attempt ((always_awaitOk point hP h).mono (fun _ t ht => hf _ t ht.1) fun _ => id))

theorem attempt_setDesiredState_bind {desiredState : DesiredState}
    {f : Option Unit → WorkerAsync β} (hP : ∀ {s t}, P s → Beside s t → P t)
    (h : P (s.withDesiredState desiredState))
    (hf : ∀ result t, P t → (task.isGuarded = true → t.around.shouldGoOn = true ∨ Quiet t) →
      Silences task (f result) t) :
    Silences task (Async.attempt (setDesiredState desiredState) >>= f) s :=
  .bind (.attempt ((always_setDesiredState desiredState hP h).mono
    (fun _ t ht => hf _ t ht.1 ht.2) fun _ => id))

theorem tick_bind {f : Unit → WorkerAsync β} (hP : ∀ {s t}, P s → Beside s t → P t) (h : P s)
    (hf : ∀ t, P t → Silences task (f ()) t) : Silences task (tick >>= f) s :=
  .bind (.bind (.await trivial fun t ht _ _ => .pure (hf t (hP h ht))))

end Silences
end Silencing

/-! ## The handlers -/

section Handlers
variable {task : WorkerTask}

theorem Silenced.reportGames (h : Silenced s) : Silenced (s.reportGames []) :=
  fun hdesired => ⟨quiet_reportGames s, (h hdesired).2⟩

/-- Games are only reported for a worker that is not paused, so that the account is to run. -/
theorem silences_applyGames (guarded : Bool) (h : Silenced s) :
    Silences task (applyGames guarded) s := by
  have hnothing (status : AccountStatus) : Silences task (do
      Async.modify fun s => s.reportGames []
      setStatus status none
      return) s :=
    .modify_bind (fun hwanted => hwanted.reportGames (.inl rfl))
      (.beside_bind (beside_setStatus _ _) h.reportGames fun _ t ht => .pure ht)
  unfold applyGames
  apply Silences.get_bind
  split_ifs with hoff hpaused hblocked
  · exact .pure h
  · exact hnothing .pausedManual
  · exact hnothing .pausedOtherSession
  · have htoRun : ToRun s := by
      by_contra hdesired
      have hconnected : s.worker.connected = true := Bool.eq_true_of_not_eq_false (not_or.mp hoff).2
      exact hpaused ((h hdesired).2 hconnected)
    refine .toRun_bind (beside_of_inert inert_selectedGamesPayload) htoRun fun payload t ht => ?_
    apply Silences.get_bind
    split
    · exact .pure ht.silenced
    · refine .modify_bind (fun hwanted => hwanted.reportGames (.inr ht)) ?_
      exact .of_beside (beside_setStatus _ _) (ToRun.silenced (s := t.reportGames payload) ht)

theorem silences_logOn (h : ToRun s) : Silences task logOn s := by
  unfold logOn
  apply Silences.get_bind
  refine .modify_bind id ?_
  split_ifs
  · exact .modify id (ToRun.silenced h)
  · exact .pure (ToRun.silenced h)

/-- A start that is carried out makes the account run. -/
theorem silences_startNow (h : Silenced s) : Silences task startNow s := by
  unfold startNow
  apply Silences.get_bind
  split_ifs
  · exact .pure h
  · exact .pure h
  cases s.around.token with
  | unreadable => exact .throw h
  | missing => exact .of_beside (beside_setStatus _ _) h
  | present =>
    refine .modify_bind id (.setDesiredState_bind ToRun.beside rfl fun t ht _ => ?_)
    refine .toRun_bind (beside_setStatus _ _) ht fun _ u hu => ?_
    have hlogIn : Silences task (do
        if (← Async.get).worker.quiescing then return
        Async.modify fun s => s.beginLogin
        logOn) u := by
      apply Silences.get_bind
      split_ifs
      · exact .pure hu.silenced
      · exact .modify_bind id (silences_logOn hu)
    have hend (result : Option Unit) (v : WorkerState) (hv : Silenced v) : Silences task (do
        Async.modify fun s => s.withStartInFlight false
        if result.isNone then Async.throw) v := by
      refine .modify_bind id ?_
      split_ifs
      · exact .throw hv
      · exact .pure hv
    exact .bind (.attempt (hlogIn.mono (fun a v => hend (some a) v) fun v => hend none v))

theorem silences_startOrApply (h : Silenced s) : Silences task (do
    if (← Async.get).worker.connected = false then startNow else applyGames false) s := by
  apply Silences.get_bind
  split_ifs
  · exact silences_startNow h
  · exact silences_applyGames false h

theorem silences_resumeNow : Silences task resumeNow s :=
  .modify_bind id (.setDesiredState_bind ToRun.beside rfl fun _ ht _ =>
    silences_startOrApply ht.silenced)

theorem silences_resumeForFarming : Silences task resumeForFarming s :=
  .modify_bind id (.setDesiredState_bind ToRun.beside rfl fun _ ht _ =>
    silences_startOrApply ht.silenced)

/-- The client is told nothing and is no longer connected. -/
def Down (s : WorkerState) : Prop := Quiet s ∧ s.worker.connected = false

theorem Down.beside (h : Down s) (hst : Beside s t) : Down t :=
  ⟨h.1.beside hst, hst.connected.trans h.2⟩

theorem Down.silenced (h : Down s) : Silenced s := by
  refine fun _ => ⟨h.1, fun hconnected => ?_⟩
  rw [h.2] at hconnected
  cases hconnected

theorem silences_stopNow : Silences task stopNow s := by
  have hany {s t : WorkerState} : True → Beside s t → True := fun _ _ => trivial
  refine .modify_bind (fun hwanted => hwanted.same (Inert.clearAll s).reports) ?_
  refine .awaitOk_bind hany trivial fun t _ => .awaitOk_bind hany trivial fun t _ => ?_
  refine .setDesiredState_bind hany trivial fun t _ _ => ?_
  refine .modify_bind (fun hwanted => hwanted.reportGames (.inl rfl)) ?_
  exact .of_beside (beside_setStatus _ _) (Down.silenced ⟨(fun hphase => nomatch hphase), rfl⟩)

theorem silences_shutdownNow : Silences task shutdownNow s := by
  have hrest (paused : Option Unit) (t : WorkerState) : Silences task (do
      Async.modify fun s => (s.clearRetryTimers.resetSessionConflict.reportGames []).logOff
      awaitOk .logOff
      tick
      Async.modify fun s => s.withConnected false
      setStatus .disconnected none
      if paused.isNone then Async.throw) t := by
    refine .modify_bind (fun hwanted => ?_) ?_
    · exact (hwanted.same (Inert.clearRetries t).reports).reportGames (.inl rfl)
    refine .awaitOk_bind Quiet.beside (fun hphase => nomatch hphase) fun t ht => ?_
    refine .tick_bind Quiet.beside ht fun u hu => .modify_bind id ?_
    have hdown : Down (u.withConnected false) := ⟨hu, rfl⟩
    refine .beside_bind (beside_setStatus _ _) hdown.silenced fun _ v hv => ?_
    split_ifs
    · exact .throw hv
    · exact .pure hv
  have hany {s t : WorkerState} : True → Beside s t → True := fun _ _ => trivial
  unfold shutdownNow
  apply Silences.get_bind
  dsimp only
  split_ifs
  · exact .attempt_setDesiredState_bind hany trivial fun paused t _ _ => hrest paused t
  · exact .bind (.pure (hrest (some ()) s))

def Paused (s : WorkerState) : Prop := s.worker.manuallyPaused = true

theorem Paused.beside (h : Paused s) (hst : Beside s t) : Paused t :=
  hst.manuallyPaused.trans h

theorem Paused.silenced (h : Paused s) (hquiet : Quiet s) : Silenced s :=
  fun _ => ⟨hquiet, fun _ => h⟩

theorem silences_pauseNow (htask : task.isGuarded = true) (h : Silenced s) :
    Silences task pauseNow s := by
  unfold pauseNow
  apply Silences.get_bind
  split_ifs
  · exact .pure h
  refine .beside_bind (.modify fun s => (Inert.clearAll s).beside) h fun _ t ht => ?_
  refine .beside_bind (beside_of_inert (inert_awaitOk _)) ht fun _ t ht => .get_bind ?_
  split_ifs
  · exact .pure ht
  have hpaused : Paused ((t.withManuallyPaused true).withDesiredState .paused) :=
    (withDesiredState_same _ _).2.1
  refine .modify_bind id (.setDesiredState_bind Paused.beside hpaused fun u hu hsettled => ?_)
  apply Silences.get_bind
  split_ifs with hshould
  · have hquiet : Quiet u := by
      refine (hsettled htask).resolve_left ?_
      rw [hshould]
      exact Bool.false_ne_true
    exact .pure (hu.silenced hquiet)
  · refine .modify_bind (fun hwanted => hwanted.reportGames (.inl rfl)) ?_
    have hreported : Paused (u.reportGames []) := hu
    exact .of_beside (beside_setStatus _ _) (hreported.silenced (quiet_reportGames u))

theorem silences_forceDisconnectForSafety (message : String) (htask : task.isGuarded = true)
    (h : Silenced s) : Silences task (forceDisconnectForSafety message) s := by
  unfold forceDisconnectForSafety
  apply Silences.get_bind
  split_ifs
  · exact .pure h
  refine .modify_bind (fun hwanted => hwanted.same (Inert.clearAll s).reports) ?_
  have hpaused : Paused
      ((s.clearFarmingSelection false).clearRetryTimers.resetSessionConflict.withManuallyPaused
        true) := rfl
  refine .attempt_awaitOk_bind Paused.beside hpaused fun cleared t ht => ?_
  have hdesired : Paused (t.withDesiredState .paused) := (withDesiredState_same t _).2.1.trans ht
  refine .attempt_setDesiredState_bind Paused.beside hdesired fun desired u hu hsettled => ?_
  apply Silences.get_bind
  split_ifs with hshould
  · have hquiet : Quiet u := by
      refine (hsettled htask).resolve_left ?_
      rw [hshould]
      exact Bool.false_ne_true
    exact .pure (hu.silenced hquiet)
  · refine .modify_bind (fun hwanted => hwanted.reportGames (.inl rfl)) ?_
    have hdown : Down ((u.reportGames []).logOff.withConnected false) :=
      ⟨(fun hphase => nomatch hphase), rfl⟩
    refine .beside_bind (beside_setStatus _ _).attempt hdown.silenced fun written v hv => ?_
    split_ifs
    · exact .throw hv
    · exact .pure hv

def Fits (account : WorkerRow) (s : WorkerState) : Prop :=
  account.desiredState ≠ .running → Quiet s ∧ HeldBack s

theorem silences_updateAccountNow (account : WorkerRow) (h : Fits account s) :
    Silences task (updateAccountNow account) s := by
  have hfits {s t : WorkerState} (hs : Fits account s) (hst : Beside s t) : Fits account t :=
    fun hdesired => ⟨(hs hdesired).1.beside hst, (hs hdesired).2.beside hst⟩
  have hrest (t : WorkerState) (ht : Fits account t) : Silences task (do
      Async.modify fun s => s.withRow account
      if (← Async.get).worker.quiescing then return
      applyGames false) t := by
    have hsilenced : Silenced (t.withRow account) := fun hdesired => ht hdesired
    refine .modify_bind id (.get_bind ?_)
    split_ifs
    · exact .pure hsilenced
    · exact silences_applyGames false hsilenced
  unfold updateAccountNow
  apply Silences.get_bind
  dsimp only
  split_ifs
  · refine .modify_bind id ?_
    refine .modify_bind (fun hwanted => hwanted.same (Inert.clearRetries _).reports) ?_
    have hsuperseded : Fits account s.supersede := h
    exact .awaitOk_bind hfits (hfits hsuperseded (Inert.clearRetries _).beside) hrest
  · exact .modify_bind id (hrest _ h)
  · exact hrest s h

theorem silences_applyFarmingSelection (appIds : List AppId) (h : Silenced s) :
    Silences task (applyFarmingSelection appIds) s := by
  unfold applyFarmingSelection
  apply Silences.get_bind
  dsimp only
  split_ifs
  · exact Silences.throw h
  · refine .beside_bind (beside_of_inert (inert_enforceLimit _ _)) h fun _ t ht => ?_
    exact .modify_bind id (silences_applyGames (s := t.withFarmingSelection appIds false) true ht)

/-! ### Events and timers -/

theorem silences_onLoggedOn (h : ToRun s) : Silences task onLoggedOn s := by
  have hawait {point : WorkerAwait} {f : Unit → WorkerAsync Unit} {t : WorkerState} (ht : ToRun t)
      (hf : ∀ u, ToRun u → Silences task (f ()) u) : Silences task (awaitOk point >>= f) t :=
    .awaitOk_bind ToRun.beside ht hf
  refine .modify_bind (fun hwanted => hwanted.same ?_) (hawait ?_ fun t ht => ?_)
  · simp [WorkerState.withConnected, WorkerState.resetSessionConflict]
  · simpa [ToRun, WorkerState.withConnected, WorkerState.resetSessionConflict] using h
  refine hawait ht fun t ht => hawait ht fun t ht => .get_bind ?_
  split_ifs
  · exact .pure ht.silenced
  · refine .toRun_bind (beside_setStatus _ _) ht fun _ u hu => ?_
    exact silences_applyGames false hu.silenced

theorem silences_onPlayingState (blocked : Bool) (h : Silenced s) :
    Silences task (onPlayingState blocked) s := by
  have hrest (wasBlocked : Bool) (t : WorkerState)
      (ht : t.worker.desiredState ≠ .running → HeldBack t) : Silences task (do
        Async.modify fun s => s.reportGames []
        setStatus .pausedOtherSession none
        if wasBlocked = false ∧ (← Async.get).worker.desiredState = .running then
          registerSessionConflict .live
        return) t := by
    have hsilenced : Silenced (t.reportGames []) :=
      fun hdesired => ⟨quiet_reportGames t, ht hdesired⟩
    refine .modify_bind (fun hwanted => hwanted.reportGames (.inl rfl)) ?_
    refine .beside_bind (beside_setStatus _ _) hsilenced fun _ u hu => .get_bind ?_
    split_ifs
    · refine .beside_bind (beside_of_inert (inert_registerSessionConflict _)) hu fun _ v hv => ?_
      exact .pure hv
    · exact .pure hu
  unfold onPlayingState
  refine .beside_bind (beside_of_inert (inert_awaitOk _)) h fun _ t ht => .get_bind ?_
  dsimp only
  refine .modify_bind id ?_
  have hblocked : Silenced (t.withBlocked blocked) := ht
  split_ifs with hb hwas
  · refine .get_bind (.modify_bind id ?_)
    split_ifs
    · have hpaused : Paused ((((t.withBlocked blocked).clearFarmingSelection false
          ).withManuallyPaused true).withDesiredState .paused) := (withDesiredState_same _ _).2.1
      refine .modify_bind id (.setDesiredState_bind Paused.beside hpaused fun u hu _ => ?_)
      exact hrest _ u fun _ _ => hu
    · exact hrest _ _ fun hdesired => (ht hdesired).2
  · exact .pure hblocked
  · refine .get_bind ?_
    split_ifs
    · refine .beside_bind (.modify fun s => ?_) hblocked fun _ u hu => ?_
      · exact ((Inert.clearSessionConflictTimer s).trans (.resetSessionConflict _)).beside
      refine .beside_bind (beside_of_inert (inert_awaitOk _)) hu fun _ v hv => ?_
      exact silences_applyGames false hv
    · exact .pure hblocked

/-- Nothing is reported, and a connection that has ended stays so. -/
structure Dims (s t : WorkerState) : Prop where
  connected : s.worker.connected = false → t.worker.connected = false
  client : t.client = s.client
  reports : t.trace.reports = s.trace.reports

instance : Std.Refl Dims := ⟨fun _ => ⟨id, rfl, rfl⟩⟩

instance : IsTrans WorkerState Dims where
  trans _ _ _ h h' := ⟨h'.connected ∘ h.connected, h'.client.trans h.client,
    h'.reports.trans h.reports⟩

theorem dims_withDesiredState (s : WorkerState) (desiredState : DesiredState) :
    Dims s (s.withDesiredState desiredState) := by
  obtain ⟨hconnected, -, hclient, hreports⟩ := withDesiredState_same s desiredState
  exact ⟨hconnected.trans, hclient, hreports⟩

theorem framed_dims : Framed Dims where
  inert h := ⟨h.connected.trans, h.client, h.reports⟩
  status _ _ _ := ⟨id, rfl, rfl⟩
  manuallyPaused _ := ⟨id, rfl, rfl⟩
  desiredState s := dims_withDesiredState s .paused

theorem dims_withConnected (s : WorkerState) : Dims s (s.withConnected false) :=
  ⟨fun _ => rfl, rfl, rfl⟩

theorem Quiet.dims (h : Quiet s) (hst : Dims s t) : Quiet t := h.same hst.client

theorem silences_dims {x : WorkerAsync α} (hx : x.Keeps Dims) (h : Down s) : Silences task x s := by
  have halways : (silencing task).Always (fun _ => Down) Down x s :=
    hx.always (fun _ _ hs hst => ⟨fun hwanted => hwanted.same hst.reports,
        hs.1.dims hst, hst.connected hs.2⟩)
      (fun _ _ hst hs => hs.beside hst) (fun _ _ _ => trivial) h
  exact halways.mono (fun _ _ => Down.silenced) fun _ => Down.silenced

theorem always_loseConnection {E : WorkerState → Prop} (decision : RetryDecision) (h : Quiet s) :
    (silencing task).Always (fun _ => Quiet) E (loseConnection decision) s := by
  unfold loseConnection
  refine .bind (.get (.bind (.modify id ?_)))
  split_ifs
  · exact .modify id h
  · refine .bind (.modify id ?_)
    have hpaused : Quiet ((s.clearFarmingSelection false).withManuallyPaused true) := h
    exact (always_setDesiredState .paused Quiet.beside
      (hpaused.dims (dims_withDesiredState _ _))).mono (fun _ _ ht => ht.1) fun _ => id
  · exact .pure h

theorem silences_onDisconnected (eresult : Option ℤ) (message : Option String) (h : Quiet s) :
    Silences task (onDisconnected eresult message) s := by
  refine .bind ((always_loseConnection _ h).mono (fun _ t ht => ?_) fun _ => id)
  have hdown : Down (t.withConnected false) := ⟨ht, rfl⟩
  refine Silences.modify_bind id (silences_dims (.ite (.bind ?_ fun _ => ?_) ?_) hdown)
  · exact framed_dims.of_inert (inert_awaitOk _)
  · exact framed_dims.afterDisconnect dims_withConnected _ message
  · exact framed_dims.afterDisconnect dims_withConnected _ message

theorem silences_onError (error : SteamFailure) (message : String) (h : Quiet s) :
    Silences task (onError error message) s := by
  have hdown : Down (s.withConnected false) := ⟨h, rfl⟩
  refine .modify_bind id (silences_dims (.bind (framed_dims.loseConnection _) fun _ => ?_) hdown)
  exact framed_dims.afterError dims_withConnected _ message

theorem silences_retryLiveSessionConflict (h : ToRun s) :
    Silences task retryLiveSessionConflict s := by
  unfold retryLiveSessionConflict
  apply Silences.get_bind
  split_ifs
  · refine .modify_bind id (.awaitOk_bind ToRun.beside h fun t ht => ?_)
    exact .bind ((silences_applyGames false ht.silenced).mono (fun _ _ hu => .pure hu) fun _ => id)
  · refine .toRun_bind (beside_of_inert inert_selectedGamesPayload) h fun payload t ht => ?_
    apply Silences.get_bind
    split_ifs
    · exact .pure ht.silenced
    · refine .modify_bind (fun hwanted => hwanted.reportGames (.inr ht)) ?_
      exact .of_beside (beside_of_inert (inert_registerSessionConflict _))
        (ToRun.silenced (s := t.reportGames payload) ht)

theorem silences_retrySessionConflict (g : ℕ) (resetCycle : Bool) (h : Silenced s) :
    Silences task (retrySessionConflict g resetCycle) s := by
  have hrest (t : WorkerState) (ht : ToRun t) : Silences task (do
      if (← Async.get).worker.sessionConflictMode = some .live then retryLiveSessionConflict
      else startNow) t := by
    apply Silences.get_bind
    split_ifs
    · exact silences_retryLiveSessionConflict ht
    · exact silences_startNow ht.silenced
  unfold retrySessionConflict
  apply Silences.get_bind
  dsimp only
  split_ifs with hstale hreset
  · exact .pure h
  · exact .modify_bind id (hrest _ (not_not.mp (not_or.mp (not_or.mp hstale).2).1))
  · exact hrest _ (not_not.mp (not_or.mp (not_or.mp hstale).2).1)

end Handlers

/-! ## While the account is not to run -/

structure Away (s t : WorkerState) : Prop where
  stays : ¬ToRun s → ¬ToRun t
  reports : ¬ToRun s → ∃ later, t.trace.reports = later ++ s.trace.reports ∧
    ∀ report ∈ later, report.desiredState ≠ .running

instance : Std.Refl Away := ⟨fun _ => ⟨id, fun _ => ⟨[], rfl, fun _ h => nomatch h⟩⟩⟩

instance : IsTrans WorkerState Away where
  trans s t u h h' := by
    refine ⟨h'.stays ∘ h.stays, fun hs => ?_⟩
    obtain ⟨first, hfirst, hall⟩ := h.reports hs
    obtain ⟨second, hsecond, hall'⟩ := h'.reports (h.stays hs)
    refine ⟨second ++ first, ?_, fun report hreport => ?_⟩
    · rw [hsecond, hfirst, List.append_assoc]
    · rcases List.mem_append.mp hreport with hreport | hreport
      · exact hall' report hreport
      · exact hall report hreport

theorem away_of_same (hstays : ¬ToRun s → ¬ToRun t) (hreports : t.trace.reports = s.trace.reports) :
    Away s t := ⟨hstays, fun _ => ⟨[], hreports, fun _ h => nomatch h⟩⟩

theorem Beside.away (h : Beside s t) : Away s t := by
  refine away_of_same (fun hs => ?_) h.reports
  unfold ToRun
  rw [h.desiredState]
  exact hs

theorem away_withDesiredState {desiredState : DesiredState} (hdesired : desiredState ≠ .running)
    (s : WorkerState) : Away s (s.withDesiredState desiredState) :=
  away_of_same (fun _ => hdesired) (withDesiredState_same s desiredState).2.2.2

theorem away_reportGames (s : WorkerState) (payload : List PlayedEntry) :
    Away s (s.reportGames payload) := by
  refine ⟨id, fun hs => ⟨[_], rfl, fun report hreport => ?_⟩⟩
  rw [List.mem_singleton.mp hreport]
  exact hs

theorem framed_away : Framed Away where
  inert h := h.beside.away
  status _ _ _ := away_of_same id rfl
  manuallyPaused _ := away_of_same id rfl
  desiredState := away_withDesiredState nofun

theorem away_withConnected (s : WorkerState) : Away s (s.withConnected false) :=
  away_of_same id rfl

theorem away_stopNow : stopNow.Keeps Away := by
  refine .bind (.modify fun s => (Inert.clearAll s).beside.away) fun _ => ?_
  refine .bind (framed_away.of_inert (inert_awaitOk _)) fun _ => ?_
  refine .bind (framed_away.of_inert (inert_awaitOk _)) fun _ => ?_
  refine .bind (.bind (.modify (away_withDesiredState nofun)) fun _ => ?_) fun _ => ?_
  · exact framed_away.of_inert (inert_awaitOk _)
  · refine .bind (.modify fun s => ?_) fun _ => framed_away.setStatus _ _
    exact IsTrans.trans _ _ _ (away_reportGames s []) (away_of_same id rfl)

theorem away_shutdownNow : shutdownNow.Keeps Away := by
  have hrest (paused : Option Unit) : (do
      Async.modify fun s => (s.clearRetryTimers.resetSessionConflict.reportGames []).logOff
      awaitOk .logOff
      tick
      Async.modify fun s => s.withConnected false
      setStatus .disconnected none
      if paused.isNone then Async.throw : WorkerAsync Unit).Keeps Away := by
    refine .bind (.modify fun s => ?_) fun _ => ?_
    · have hreported := away_reportGames s.clearRetryTimers.resetSessionConflict []
      have hcleared := IsTrans.trans _ _ _ (Inert.clearRetries s).beside.away hreported
      exact IsTrans.trans _ _ _ hcleared (away_of_same id rfl)
    refine .bind (framed_away.of_inert (inert_awaitOk _)) fun _ => ?_
    refine .bind (framed_away.of_inert inert_tick) fun _ => ?_
    refine .bind (.modify away_withConnected) fun _ => ?_
    exact .bind (framed_away.setStatus _ _) fun _ => .ite .throw (.pure ())
  refine .bind .get fun s => .ite ?_ ?_
  · exact .bind framed_away.setDesiredState.attempt fun paused => hrest paused
  · exact .bind (.pure _) fun paused => hrest paused

theorem away_forceDisconnectForSafety (message : String) :
    (forceDisconnectForSafety message).Keeps Away := by
  refine .bind .get fun s => .ite (.pure ()) (.bind (.modify fun s => ?_) fun _ => ?_)
  · exact IsTrans.trans _ _ _ (Inert.clearAll s).beside.away (away_of_same id rfl)
  refine .bind (framed_away.of_inert (inert_awaitOk _)).attempt fun _ => ?_
  refine .bind framed_away.setDesiredState.attempt fun _ => .bind .get fun s => .ite (.pure ()) ?_
  refine .bind (.modify fun s => ?_) fun _ => ?_
  · exact IsTrans.trans _ _ _ (away_reportGames s []) (away_of_same id rfl)
  · exact .bind (framed_away.setStatus _ _).attempt fun _ => .ite .throw (.pure ())

theorem away_updateAccountNow (account : WorkerRow) (hdesired : account.desiredState ≠ .running) :
    (updateAccountNow account).Keeps Away := by
  have hrest : (do
      Async.modify fun s => s.withRow account
      if (← Async.get).worker.quiescing then return
      applyGames false : WorkerAsync Unit).Keeps Away := by
    refine .bind (.modify fun s => away_of_same (fun _ => hdesired) rfl) fun _ => ?_
    exact .bind .get fun s => .ite (.pure ()) (framed_away.applyGames away_reportGames false)
  refine .bind .get fun s => .ite (.bind (.modify fun s => away_of_same id rfl) fun _ => ?_) hrest
  refine .ite (.bind (.modify fun s => (Inert.clearRetries s).beside.away) fun _ => ?_) hrest
  exact .bind (framed_away.of_inert (inert_awaitOk _)) fun _ => hrest

theorem away_applyFarmingSelection (appIds : List AppId) :
    (applyFarmingSelection appIds).Keeps Away := by
  refine .bind .get fun s => .ite .throw ?_
  refine .bind (framed_away.of_inert (inert_enforceLimit _ _)) fun _ => ?_
  refine .bind (.modify fun s => away_of_same id rfl) fun _ => ?_
  exact framed_away.applyGames away_reportGames true

theorem away_onLoggedOn : onLoggedOn.Keeps Away := by
  have hawait (point : WorkerAwait) : (awaitOk point).Keeps Away :=
    framed_away.of_inert (inert_awaitOk point)
  refine .bind (.modify fun s => away_of_same ?_ ?_) fun _ => .bind (hawait _) fun _ => ?_
  · simp [ToRun, WorkerState.withConnected, WorkerState.resetSessionConflict]
  · simp [WorkerState.withConnected, WorkerState.resetSessionConflict]
  refine .bind (hawait _) fun _ => .bind (hawait _) fun _ => .bind .get fun s => .ite (.pure ()) ?_
  exact .bind (framed_away.setStatus _ _) fun _ => framed_away.applyGames away_reportGames false

theorem away_onPlayingState_false : (onPlayingState false).Keeps Away := by
  have hawait (point : WorkerAwait) : (awaitOk point).Keeps Away :=
    framed_away.of_inert (inert_awaitOk point)
  refine .bind (hawait _) fun _ => .bind .get fun s => ?_
  refine .bind (.modify fun s => away_of_same id rfl) fun _ => ?_
  rw [if_neg Bool.false_ne_true]
  refine .ite (.pure ()) (.bind .get fun t => .ite ?_ (.pure ()))
  refine .bind (.modify fun s => ?_) fun _ => ?_
  · exact ((Inert.clearSessionConflictTimer s).trans (.resetSessionConflict _)).beside.away
  · exact .bind (hawait _) fun _ => framed_away.applyGames away_reportGames false

/-! ## Runs -/

/-- When a call may begin: a row finds the account as it then has to be, no account is marked for
attention, and a lost connection finds a client that is told nothing. -/
def WorkerTask.InOrder (s : WorkerState) : WorkerTask → Prop
  | .command (.markSafetyAttention _) => False
  | .command (.updateAccount account) => Fits account s
  | .event (.disconnected _ _) g | .event (.error _ _) g => g = s.worker.intentGeneration → Quiet s
  | _ => True

def awaited : Pause WorkerState WorkerAwait Bool Unit → Option WorkerAwait
  | .awaiting point _ _ => some point
  | _ => none

/-- Each call that is carried out begins in order, what is awaited resolves, and no call is broken
off behind the write of the intent while games are played. -/
def InOrder (m : WorkerSystem) : WorkerAction → Prop
  | .begin => ∀ call ∈ m.eventQueue.head?, m.isRefused call.task = false →
      call.task.InOrder m.state
  | .resume ok => ok = true ∧ ∀ call ∈ m.running, call.task.isGuarded = true →
      awaited call.pause = some .desiredState → m.state.around.shouldGoOn = true ∨ Quiet m.state
  | _ => True

def WorkerCommand.resumes : WorkerCommand → Bool
  | .start | .resume | .resumeForFarming => true
  | .updateAccount account => account.desiredState == .running
  | _ => false

/-- No explicit start or resume, and no row under which the account is to run. -/
def Unresumed (m : WorkerSystem) : WorkerAction → Prop
  | .begin => ∀ call ∈ m.eventQueue.head?, call.caller = .command →
      ∀ command, call.task = .command command → command.resumes = false
  | _ => True

theorem silences_onClientEvent {task : WorkerTask} (event : ClientEvent) (g : ℕ) (h : Silenced s)
    (htime : (WorkerTask.event event g).InOrder s) : Silences task (onClientEvent event g) s := by
  unfold onClientEvent
  apply Silences.get_bind
  split_ifs with hquiescing hstale hignored
  · exact .pure h
  · exact .pure h
  · exact .pure h
  have hcurrent : g = s.worker.intentGeneration := not_not.mp hstale
  cases event with
  | loggedOn => exact silences_onLoggedOn (by_contra fun hnot => hignored ⟨rfl, hnot⟩)
  | playingState blocked => exact silences_onPlayingState blocked h
  | disconnected eresult message => exact silences_onDisconnected eresult message (htime hcurrent)
  | error failure message => exact silences_onError failure message (htime hcurrent)

theorem silences_task (task : WorkerTask) (h : Silenced s) (htime : task.InOrder s) :
    Silences task task.body s := by
  cases task with
  | shutdown => exact silences_shutdownNow
  | event event g => exact silences_onClientEvent event g h htime
  | retrySessionConflict g resetCycle => exact silences_retrySessionConflict g resetCycle h
  | command command =>
    cases command with
    | start => exact silences_startNow h
    | stop => exact silences_stopNow
    | pause => exact silences_pauseNow rfl h
    | forceDisconnect message => exact silences_forceDisconnectForSafety message rfl h
    | markSafetyAttention message => exact htime.elim
    | resume => exact silences_resumeNow
    | resumeForFarming => exact silences_resumeForFarming
    | updateAccount account => exact silences_updateAccountNow account htime
    | applyFarmingSelection appIds => exact silences_applyFarmingSelection appIds h

def silencedAccount : WorkerContract where
  Inv := Wanted
  Idle := Silenced
  Job _ _ := True
  Call _ _ := True
  Calm := Beside
  Weak s t := Wanted s → Wanted t
  discipline call := silencing call.task
  tail := keeping Beside

theorem valid_silencedAccount : silencedAccount.Valid InOrder where
  weak_of_calm hst := fun hs => hs.same hst.reports
  inv_of_weak hst hs := hst hs
  job_of_weak _ _ := trivial
  call_of_weak _ _ := trivial
  idle_of_calm hst hs := hs.beside hst
  calm_of_disturbs _ hst := hst.beside
  calm_caller _ _ := beside_of_client rfl rfl rfl rfl rfl
  calm_halted call returned _ := beside_halted call returned _
  calm_of_tail hst := hst
  rely_of_disturbs _ hst := hst.beside
  rely_of_calm _ hst := hst
  weak_of_guarantee hst := hst
  tail_rely_of_calm _ := trivial
  tail_rely_of_guarantee _ _ := trivial
  tail_allowed _ _ _ := trivial
  reschedule decision _ := always_keeping (beside_of_inert (inert_scheduleReconnect decision)) _
  event _ _ _ := trivial
  timer _ _ _ := trivial
  operation _ := trivial
  call_event _ := trivial
  call_start _ _ _ _ _ := trivial
  call_retry _ := trivial
  call_command _ := trivial
  call_direct _ := trivial
  call_shutdown _ := trivial
  begins := by
    intro m call rest hc hqueue hrefused _ hidle _
    have htime : call.task.InOrder m.state := by
      apply hc call _ hrefused
      rw [hqueue]
      rfl
    exact silences_task call.task (hidle.beside (beside_of_client rfl rfl rfl rfl rfl)) htime
  allowed := by
    intro m ok call point after rest hc hrunning hpause
    refine ⟨hc.1, fun hpoint hguarded => hc.2 call hrunning hguarded ?_⟩
    rw [hpause, ← hpoint]
    rfl

def awayFrom (base : WorkerState) : WorkerContract where
  Inv := Away base
  Idle _ := True
  Job _ _ := True
  Call call _ := call.caller ≠ .command → ∀ command, call.task ≠ .command command
  Calm := Beside
  Weak := Away
  discipline _ := keeping Away
  tail := keeping Beside

theorem away_task {base : WorkerState} (hbase : ¬ToRun base) (hs : Away base s) (task : WorkerTask)
    (htime : task.InOrder s)
    (hresumes : ∀ command, task = .command command → command.resumes = false) :
    (keeping Away).Always (fun _ _ => True) (fun _ => True) task.body s := by
  have hdesired : ¬ToRun s := hs.stays hbase
  cases task with
  | shutdown => exact always_keeping away_shutdownNow s
  | event event g =>
    apply always_keeping
    refine .bind .get fun s => .ite (.pure ()) (.ite (.pure ()) (.ite (.pure ()) ?_))
    cases event with
    | loggedOn => exact away_onLoggedOn
    | playingState blocked =>
      cases blocked with
      | true => exact framed_away.onPlayingState fun s => away_reportGames s []
      | false => exact away_onPlayingState_false
    | disconnected eresult message => exact framed_away.onDisconnected away_withConnected _ _
    | error failure message => exact framed_away.onError away_withConnected _ _
  | retrySessionConflict g resetCycle =>
    show (keeping Away).Always _ _ (retrySessionConflict g resetCycle) s
    unfold retrySessionConflict
    refine .bind (.get ?_)
    rw [if_pos (.inr (.inl hdesired))]
    exact .pure trivial
  | command command =>
    have hkind := hresumes command rfl
    cases command with
    | start | resume | resumeForFarming => cases hkind
    | stop => exact always_keeping away_stopNow s
    | pause => exact always_keeping (framed_away.pauseNow fun s => away_reportGames s []) s
    | forceDisconnect message => exact always_keeping (away_forceDisconnectForSafety message) s
    | markSafetyAttention message => exact htime.elim
    | updateAccount account =>
      exact always_keeping (away_updateAccountNow account (of_decide_eq_false hkind)) s
    | applyFarmingSelection appIds => exact always_keeping (away_applyFarmingSelection appIds) s

theorem valid_awayFrom {base : WorkerState} (hbase : ¬ToRun base) :
    (awayFrom base).Valid fun m a => InOrder m a ∧ Unresumed m a where
  weak_of_calm hst := hst.away
  inv_of_weak hst hs := IsTrans.trans _ _ _ hs hst
  job_of_weak _ _ := trivial
  call_of_weak _ hcall := hcall
  idle_of_calm _ _ := trivial
  calm_of_disturbs _ hst := hst.beside
  calm_caller _ _ := beside_of_client rfl rfl rfl rfl rfl
  calm_halted call returned _ := beside_halted call returned _
  calm_of_tail hst := hst
  rely_of_disturbs _ _ := trivial
  rely_of_calm _ _ := trivial
  weak_of_guarantee hst := hst
  tail_rely_of_calm _ := trivial
  tail_rely_of_guarantee _ _ := trivial
  tail_allowed _ _ _ := trivial
  reschedule decision _ := always_keeping (beside_of_inert (inert_scheduleReconnect decision)) _
  event _ _ _ := trivial
  timer _ _ _ := trivial
  operation _ := trivial
  call_event _ := fun _ _ => nofun
  call_start hinv _ _ hdesired _ := absurd hdesired (hinv.stays hbase)
  call_retry _ := fun _ _ => nofun
  call_command _ := fun hcaller => absurd rfl hcaller
  call_direct _ := fun hcaller => absurd rfl hcaller
  call_shutdown _ := fun hcaller => absurd rfl hcaller
  begins := by
    intro m call rest hc hqueue hrefused hinv _ hcall
    have hmem : call ∈ m.eventQueue.head? := by
      rw [hqueue]
      rfl
    have hinv' : Away base { m.state with trace.caller := call.caller } :=
      IsTrans.trans _ _ _ hinv (away_of_same id rfl)
    refine away_task hbase hinv' call.task (hc.1 call hmem hrefused) fun command htask => ?_
    by_cases hcaller : call.caller = .command
    · exact hc.2 call hmem hcaller command htask
    · exact absurd htask (hcall hcaller command)
  allowed _ _ _ := trivial

namespace WorkerSystem
variable {m t : WorkerSystem}

/-- Nothing is run, and nothing waits to be run. -/
structure IsIdle (m : WorkerSystem) : Prop where
  running : m.running = none
  eventQueue : m.eventQueue = []
  turn : m.turn = none
  jobs : m.jobs = []

/-- From when nothing is run, an account stays as it is until it is resumed. -/
theorem IsIdle.away (h : m.IsIdle) (hturns : m.TakesTurns) (hdesired : ¬ToRun m.state)
    (ht : workerMachine.Leads (fun m a => InOrder m a ∧ Unresumed m a) m t) :
    Away m.state t.state := by
  have hsound : (awayFrom m.state).Sound m := by
    constructor
    case toBase =>
      constructor
      case inv => exact refl (r := Away) m.state
      case jobs => exact fun _ _ => trivial
      case calls =>
        rw [h.eventQueue]
        exact fun _ hcall => nomatch hcall
      case rescheduling =>
        rw [h.turn]
        exact fun _ hp => nomatch hp
    case idle => exact fun _ => trivial
    case running =>
      rw [h.running]
      exact fun _ hcall => nomatch hcall
  have hboth : (awayFrom m.state).Sound t ∧ t.TakesTurns := by
    apply ht.keeps (I := fun t => (awayFrom m.state).Sound t ∧ t.TakesTurns) ⟨hsound, hturns⟩
    intro s a u hs hc hn
    exact ⟨hs.1.next (valid_awayFrom hdesired) hs.2 hc hn, hs.2.next hn⟩
  exact hboth.1.inv

end WorkerSystem

/-- In a run in order, an account that is not to run has told Steam to play nothing once nothing is
run, and no games are reported any more until an explicit start or resume. -/
theorem paused_reports_nothing {m : WorkerSystem} (h : workerMachine.ReachableWhen InOrder m)
    (hidle : m.IsIdle) (hdesired : m.worker.desiredState ≠ .running) :
    (m.state.client.phase = .loggedOn →
      ∀ payload, m.state.client.played = some payload → payload = []) ∧
    ∀ t, workerMachine.Leads (fun m a => InOrder m a ∧ Unresumed m a) m t →
      ∃ later, t.state.trace.reports = later ++ m.state.trace.reports ∧
        ∀ report ∈ later, report.payload = [] := by
  have hstarts (row : WorkerRow) (status : AccountStatus) (around : Surroundings) :
      Wanted (.ofRow row status around) ∧ Silenced (.ofRow row status around) :=
    ⟨(fun _ hreport => nomatch hreport), fun _ =>
      ⟨(fun hphase => nomatch hphase), fun hconnected => nomatch hconnected⟩⟩
  have hsound := valid_silencedAccount.sound h hstarts
  refine ⟨((hsound.idle hidle.running) hdesired).1, fun t ht => ?_⟩
  have hreach : workerMachine.ReachableWhen InOrder t := h.leads (ht.mono fun _ _ hc => hc.1)
  have hwanted : Wanted t.state := (valid_silencedAccount.sound hreach hstarts).inv
  have haway := hidle.away (WorkerSystem.takesTurns_of_reachable h) hdesired ht
  obtain ⟨later, hlater, hnot⟩ := haway.reports hdesired
  refine ⟨later, hlater, fun report hreport => ?_⟩
  by_contra hne
  apply hnot report hreport
  apply hwanted report _ hne
  rw [hlater]
  exact List.mem_append_left _ hreport

/-! ## Two pauses -/

instance (s : WorkerState) : Decidable (Quiet s) :=
  decidable_of_iff (s.client.phase = .loggedOn → s.client.played.all List.isEmpty = true) (by
    unfold Quiet
    cases s.client.played <;> simp)

instance (s : WorkerState) : Decidable (ToRun s) := inferInstanceAs (Decidable (_ = _))

instance (s : WorkerState) : Decidable (HeldBack s) := inferInstanceAs (Decidable (_ = _ → _ = _))

instance (account : WorkerRow) (s : WorkerState) : Decidable (Fits account s) :=
  inferInstanceAs (Decidable (_ ≠ _ → _ ∧ _))

instance (s : WorkerState) : (task : WorkerTask) → Decidable (task.InOrder s)
  | .command (.markSafetyAttention _) => inferInstanceAs (Decidable False)
  | .command (.updateAccount _) => inferInstanceAs (Decidable (Fits _ _))
  | .event (.disconnected _ _) _ | .event (.error _ _) _ =>
    inferInstanceAs (Decidable (_ = _ → Quiet s))
  | .command .start | .command .stop | .command .pause | .command (.forceDisconnect _)
  | .command .resume | .command .resumeForFarming | .command (.applyFarmingSelection _)
  | .event .loggedOn _ | .event (.playingState _) _ | .retrySessionConflict _ _ | .shutdown =>
    inferInstanceAs (Decidable True)

instance (m : WorkerSystem) : (a : WorkerAction) → Decidable (InOrder m a)
  | .begin => inferInstanceAs (Decidable (∀ call ∈ m.eventQueue.head?, _ → _))
  | .resume _ => inferInstanceAs (Decidable (_ = _ ∧ ∀ call ∈ m.running, _ → _ → _ ∨ _))
  | .emit _ | .fire _ | .operate | .takeTurn | .command _ | .endOperation | .start
  | .resumeRescheduling _ | .clearFarmingSelection _ | .beginShutdown | .shutdown | .surround _ =>
    inferInstanceAs (Decidable True)

/-- Around an account with one game, whose pause is given a predicate that says `shouldPause`. -/
def aroundGame (shouldPause : Bool) : Surroundings :=
  ⟨[⟨440, true, .manual⟩], .present, shouldPause, false, 0⟩

def gameAccount : WorkerSystem :=
  .ofState (.ofRow ⟨.stopped, none, none⟩ .disconnected (aroundGame true))

theorem starts_gameAccount : workerMachine.Starts gameAccount := ⟨_, _, _, rfl⟩

/-- The predicate turns false while the intent is written. -/
def brokenOffPause : List WorkerAction :=
  [.operate, .takeTurn, .command .pause, .begin, .resume true, .surround (aroundGame false),
    .resume true, .endOperation]

/-- The queue of the account serialises all operations, what is awaited resolves, and no account is
marked for attention. -/
def WorkerAction.isSerialised : WorkerAction → Bool
  | .resume ok | .resumeRescheduling ok => ok
  | .command (.markSafetyAttention _) | .start | .beginShutdown | .shutdown => false
  | _ => true

theorem paused_reports_nothing_game :
    ∃ m : WorkerSystem, m.IsIdle ∧ m.worker.desiredState = .paused ∧
      m.state.client.phase = .loggedOn ∧
      ∀ payload, m.state.client.played = some payload → payload = [] := by
  have hreach : workerMachine.ReachableWhen InOrder
      ((workerMachine.execWhen (fun m a => decide (InOrder m a)) gameAccount
        (startOperation ++ logInHandled ++ pauseOperation)).getD gameAccount) :=
    Transition.Machine.reachable_execWhen (fun _ _ => of_decide_eq_true) starts_gameAccount
      (by decide +kernel)
  have hidle : WorkerSystem.IsIdle
      ((workerMachine.execWhen (fun m a => decide (InOrder m a)) gameAccount
        (startOperation ++ logInHandled ++ pauseOperation)).getD gameAccount) := by
    constructor <;> rfl
  refine ⟨_, hidle, by decide +kernel, by decide +kernel, ?_⟩
  exact (paused_reports_nothing hreach hidle (by decide +kernel)).1 (by decide +kernel)

/-- A pause that is broken off leaves a game running on an account that is paused. -/
theorem not_paused_reports_nothing :
    ¬ ∀ m, workerMachine.ReachableWhen (fun _ a => a.isSerialised = true) m → m.IsIdle →
      m.worker.desiredState ≠ .running → m.state.client.phase = .loggedOn →
        ∀ payload, m.state.client.played = some payload → payload = [] := by
  intro h
  have hserialised : (startOperation ++ logInHandled ++ brokenOffPause).all
      WorkerAction.isSerialised = true := by decide
  have hreach : workerMachine.ReachableWhen (fun _ a => a.isSerialised = true)
      ((workerMachine.exec gameAccount
        (startOperation ++ logInHandled ++ brokenOffPause)).getD gameAccount) := by
    apply Transition.Machine.reachableWhen_exec _ starts_gameAccount (by decide +kernel)
    exact fun a ha _ => List.all_eq_true.mp hserialised a ha
  have hidle : WorkerSystem.IsIdle ((workerMachine.exec gameAccount
      (startOperation ++ logInHandled ++ brokenOffPause)).getD gameAccount) := by
    constructor <;> rfl
  have hempty := h _ hreach hidle (by decide +kernel) (by decide +kernel) [.app 440]
    (by decide +kernel)
  cases hempty

end SteamBee.Steam
