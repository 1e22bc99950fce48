import SteamBee.Steam.SafetyHold

/-! A timed hold ends when its time has come and the account may run, however timers, restarts,
commands and edits of schedules meet. -/
namespace SteamBee.Steam
open Schedule (Coordinator DesiredState Intl ScheduleId ScheduleRecord WindowId)
open Transition (Async Discipline)

variable {intl : Intl} {accountId : Schedule.AccountId} {s t u : HoldState} {α β : Type}

/-- The window that owns the hold wins, unless no window owns it. -/
def HeldAccount.MayResume (intl : Intl) (accountId : Schedule.AccountId) (a : HeldAccount)
    (skipLookupFails : ScheduleId → Bool) (now : ℤ) : Prop :=
  match a.hold.owner with
  | .unscheduled => True
  | .unknown => False
  | .scheduled scheduleId windowId => ∃ schedule,
    { a with skipLookupFails }.winner intl accountId now = some (schedule, windowId) ∧
      schedule.id = scheduleId

/-- What has to be true for a timed hold to end by itself: when the desired state was read, the
account was paused by a timed hold whose end the clock had shown, and its window won by the next
clock reading; up to the release the hold and the schedules were the same, and only a start from
outside the queue can have changed the desired state. -/
structure Decision.Allowed (intl : Intl) (accountId : Schedule.AccountId) (d : Decision) :
    Prop where
  timed : d.found.hold.holdReason = some .pauseUntil
  due : ∃ pauseUntil, d.found.hold.pauseUntil = some pauseUntil ∧ pauseUntil ≤ d.now
  paused : d.found.desiredState = some .paused
  owner : d.found.MayResume intl accountId d.checked.skipLookupFails d.checkedAt
  hold : d.released.hold = d.found.hold
  schedules : Coordinator.SameFor accountId d.found.coordinator d.released.coordinator
  stillPaused : d.released.starts = d.found.starts → d.released.desiredState = some .paused

/-- Without a request an account is made to run at the end of a timed hold, or by a schedule when
nothing holds it, or for farming when no timed hold holds it. -/
def Resumption.Allowed (intl : Intl) (accountId : Schedule.AccountId) (r : Resumption) : Prop :=
  match r.cause with
  | .request => True
  | .farming => r.replaced.holdReason ≠ some .pauseUntil
  | .schedule => r.replaced.holdReason = none
  | .expiry decision => decision.Allowed intl accountId

/-- A timer waits no longer than until the end of the hold, and no longer than timers can. -/
structure SafetyResumeTimer.Bounded (timer : SafetyResumeTimer) : Prop where
  nonneg : 0 ≤ timer.delay
  le_max : timer.delay ≤ maxTimerDelay
  onTime : timer.armedAt + timer.delay ≤ max timer.armedAt timer.resumeAt

structure HoldState.Sound (intl : Intl) (accountId : Schedule.AccountId) (s : HoldState) :
    Prop where
  marked : s.coordinator.Marked
  timed : s.hold.holdReason = some .pauseUntil → s.hold.pauseUntil ≠ none
  timer : ∀ timer, s.safetyResumeTimer = some timer → timer.Bounded
  resumptions : ∀ r ∈ s.resumptions, r.Allowed intl accountId

namespace SafetyHold

@[simp] theorem holdReason_of (holdReason : HoldReason) (pauseUntil : Option ℤ)
    (owner : SafetyHoldOwner) : (of holdReason pauseUntil owner).holdReason = some holdReason := by
  cases owner <;> rfl

@[simp] theorem pauseUntil_of (holdReason : HoldReason) (pauseUntil : Option ℤ)
    (owner : SafetyHoldOwner) : (of holdReason pauseUntil owner).pauseUntil = pauseUntil := by
  cases owner <;> rfl

end SafetyHold

namespace HoldState.Sound

theorem setHold (h : s.Sound intl accountId) {hold : SafetyHold}
    (hhold : hold.holdReason = some .pauseUntil → hold.pauseUntil ≠ none) :
    { s with hold }.Sound intl accountId := ⟨h.marked, hhold, h.timer, h.resumptions⟩

theorem clearHold (h : s.Sound intl accountId) : { s with hold := .cleared }.Sound intl accountId :=
  h.setHold fun hreason => by cases hreason

theorem setCoordinator (h : s.Sound intl accountId) {coordinator : Coordinator}
    (hmarked : coordinator.Marked) : { s with coordinator }.Sound intl accountId :=
  ⟨hmarked, h.timed, h.timer, h.resumptions⟩

theorem setDesiredState (h : s.Sound intl accountId) (desiredState : DesiredState) :
    (s.setDesiredState desiredState).Sound intl accountId :=
  ⟨h.marked, h.timed, h.timer, h.resumptions⟩

theorem clearSafetyResume (h : s.Sound intl accountId) :
    s.clearSafetyResume.Sound intl accountId := by
  refine ⟨h.marked, h.timed, fun timer htimer => ?_, h.resumptions⟩
  cases htimer

theorem scheduleSafetyResume (h : s.Sound intl accountId) (resumeAt : ℤ) :
    (s.scheduleSafetyResume resumeAt).Sound intl accountId := by
  refine ⟨h.marked, h.timed, fun timer htimer => ?_, h.resumptions⟩
  obtain rfl := Option.some.inj htimer
  constructor
  · exact le_max_left _ _
  · simp only [maxTimerDelay]
    omega
  · simp only [maxTimerDelay]
    omega

theorem resume (h : s.Sound intl accountId) {r : Resumption} (hr : r.Allowed intl accountId) :
    { s with resumptions := r :: s.resumptions }.Sound intl accountId := by
  refine ⟨h.marked, h.timed, h.timer, fun r' hr' => ?_⟩
  rcases List.mem_cons.mp hr' with rfl | hold
  · exact hr
  · exact h.resumptions r' hold

end HoldState.Sound

/-! ## What happens beside an operation -/

structure BesideHold (intl : Intl) (accountId : Schedule.AccountId) (s t : HoldState) : Prop where
  sound : s.Sound intl accountId → t.Sound intl accountId
  hold : t.hold = s.hold
  schedules : s.Sound intl accountId → Coordinator.SameFor accountId s.coordinator t.coordinator
  starts : s.starts ≤ t.starts
  desiredState : t.starts = s.starts →
    t.desiredState = s.desiredState ∨ t.desiredState = s.desiredState.map fun _ => .paused

namespace BesideHold

theorem refl (s : HoldState) : BesideHold intl accountId s s :=
  ⟨id, rfl, fun _ => .refl _, le_rfl, fun _ => .inl rfl⟩

theorem trans (h : BesideHold intl accountId s t) (h' : BesideHold intl accountId t u) :
    BesideHold intl accountId s u where
  sound hs := h'.sound (h.sound hs)
  hold := h'.hold.trans h.hold
  schedules hs := (h.schedules hs).trans (h'.schedules (h.sound hs))
  starts := h.starts.trans h'.starts
  desiredState hstarts := by
    have hst := h.starts
    have htu := h'.starts
    have hfirst := h.desiredState (by omega)
    have hlast := h'.desiredState (by omega)
    rcases hfirst with hfirst | hfirst
    · rw [← hfirst]
      exact hlast
    · right
      rcases hlast with hlast | hlast
      · rw [hlast, hfirst]
      · rw [hlast, hfirst, Option.map_map]
        rfl

theorem paused (h : BesideHold intl accountId s t) (hs : s.desiredState = some .paused)
    (hstarts : t.starts = s.starts) : t.desiredState = some .paused := by
  rcases h.desiredState hstarts with hsame | hpaused
  · rw [hsame, hs]
  · rw [hpaused, hs]
    rfl

end BesideHold

def holdDiscipline (intl : Intl) (accountId : Schedule.AccountId) :
    Discipline HoldState HoldAwait Bool where
  Rely := BesideHold intl accountId
  Allowed _ _ _ := True
  Guarantee _ _ := True
  Inv _ := HoldState.Sound intl accountId
  rely_refl := BesideHold.refl
  rely_trans := BesideHold.trans
  guarantee_refl _ := trivial
  guarantee_trans _ _ := trivial
  stable h hs := h.sound hs

def Safe (intl : Intl) (accountId : Schedule.AccountId) (x : HoldAsync α) : Prop :=
  ∀ s, s.Sound intl accountId → (holdDiscipline intl accountId).Always
    (fun _ => HoldState.Sound intl accountId) (HoldState.Sound intl accountId) x s

namespace Safe

theorem pure (a : α) : Safe intl accountId (Pure.pure a : HoldAsync α) :=
  fun _ hs => Discipline.Always.pure hs

theorem throw : Safe intl accountId (Async.throw : HoldAsync α) :=
  fun _ hs => Discipline.Always.throw hs

theorem get : Safe intl accountId (Async.get : HoldAsync HoldState) :=
  fun _ hs => Discipline.Always.get hs

theorem modify {f : HoldState → HoldState}
    (h : ∀ s, s.Sound intl accountId → (f s).Sound intl accountId) :
    Safe intl accountId (Async.modify f : HoldAsync Unit) :=
  fun s hs => Discipline.Always.modify trivial (h s hs)

theorem await (point : HoldAwait) : Safe intl accountId (Async.await point : HoldAsync Bool) :=
  fun _ hs => Discipline.Always.await hs fun _ hu _ _ => BesideHold.sound hu hs

theorem bind {x : HoldAsync α} {f : α → HoldAsync β} (hx : Safe intl accountId x)
    (hf : ∀ a, Safe intl accountId (f a)) : Safe intl accountId (x >>= f) :=
  fun s hs => Discipline.Always.bind ((hx s hs).mono (fun a t ht => hf a t ht) fun _ => id)

theorem attempt {x : HoldAsync α} (hx : Safe intl accountId x) :
    Safe intl accountId (Async.attempt x) := fun s hs => Discipline.Always.attempt (hx s hs)

theorem ite {c : Prop} [Decidable c] {x y : HoldAsync α} (hx : Safe intl accountId x)
    (hy : Safe intl accountId y) : Safe intl accountId (if c then x else y) := by
  split_ifs
  · exact hx
  · exact hy

theorem when {c : Prop} [Decidable c] {x : HoldAsync Unit} (hx : Safe intl accountId x) :
    Safe intl accountId (Async.when c x) := ite hx (pure ())

end Safe

namespace SteamManager
open HoldState

/-! ## Queries and updates -/

/-- A query sees the account as what happened beside it has left it. -/
theorem query_always {Q : HoldState → HoldState → Prop} (hs : s.Sound intl accountId)
    (h : ∀ u, BesideHold intl accountId s u → u.Sound intl accountId → Q u u) :
    (holdDiscipline intl accountId).Always Q (HoldState.Sound intl accountId) query s := by
  refine Discipline.Always.bind (Discipline.Always.await hs fun u hu ok _ => ?_)
  refine Discipline.Always.bind (Discipline.Always.get ?_)
  have hsound := BesideHold.sound hu hs
  split_ifs
  · exact Discipline.Always.pure (h u hu hsound)
  · exact Discipline.Always.throw hsound

theorem update_always {f : HoldState → HoldState} {Q : HoldState → HoldState → Prop}
    (hs : s.Sound intl accountId)
    (h : ∀ u, BesideHold intl accountId s u → u.Sound intl accountId → Q u (f u)) :
    (holdDiscipline intl accountId).Always Q (HoldState.Sound intl accountId) (update f) s := by
  refine Discipline.Always.bind (Discipline.Always.await hs fun u hu ok _ => ?_)
  refine Discipline.Always.bind (Discipline.Always.get ?_)
  have hsound := BesideHold.sound hu hs
  split_ifs
  · refine Discipline.Always.bind (Discipline.Always.modify trivial ?_)
    exact Discipline.Always.pure (h u hu hsound)
  · exact Discipline.Always.throw hsound

theorem safe_query : Safe intl accountId query := fun _ hs => query_always hs fun _ _ => id

theorem safe_update {f : HoldState → HoldState}
    (h : ∀ s, s.Sound intl accountId → (f s).Sound intl accountId) :
    Safe intl accountId (update f) := fun _ hs => update_always hs fun u _ => h u

theorem safe_setSafetyHold {holdReason : HoldReason} {pauseUntil : Option ℤ}
    (h : holdReason = .pauseUntil → pauseUntil ≠ none) (owner : SafetyHoldOwner) :
    Safe intl accountId (setSafetyHold holdReason pauseUntil owner) := by
  refine .bind (safe_update fun s hs => hs.setHold fun hreason => ?_) fun _ => .pure ()
  rw [SafetyHold.holdReason_of] at hreason
  rw [SafetyHold.pauseUntil_of]
  exact h (Option.some.inj hreason)

theorem safe_clearSafetyHold : Safe intl accountId clearSafetyHold :=
  safe_update fun _ hs => hs.clearHold

theorem safe_clearRecoveryHealth : Safe intl accountId clearRecoveryHealth :=
  .bind (safe_update fun _ hs => ⟨hs.marked, hs.timed, hs.timer, hs.resumptions⟩) fun _ => .pure ()

theorem getWorkerForAccount_always {Q : HoldState → Prop} (hs : s.Sound intl accountId)
    (h : ∀ u, BesideHold intl accountId s u → u.Sound intl accountId → Q u) :
    (holdDiscipline intl accountId).Always (fun _ => Q) (HoldState.Sound intl accountId)
      getWorkerForAccount s := by
  refine Discipline.Always.bind (query_always hs fun u hu hsound => ?_)
  split_ifs
  · exact Discipline.Always.throw hsound
  · exact Discipline.Always.pure (h u hu hsound)

theorem safe_getWorkerForAccount : Safe intl accountId getWorkerForAccount :=
  fun _ hs => getWorkerForAccount_always hs fun _ _ => id

/-- Nothing but a hold is reported, and none is when there is none. -/
theorem getActiveAutomationHold_always {Q : Option ActiveHold → HoldState → Prop}
    (hs : s.Sound intl accountId)
    (hheld : ∀ u reason, BesideHold intl accountId s u → u.Sound intl accountId →
      u.hold.holdReason = some reason → Q (some (.safety reason)) u)
    (hfree : ∀ u, BesideHold intl accountId s u → u.Sound intl accountId →
      u.hold.holdReason = none → Q (some .recovery) u ∧ Q none u) :
    (holdDiscipline intl accountId).Always Q (HoldState.Sound intl accountId)
      getActiveAutomationHold s := by
  refine Discipline.Always.bind (query_always hs fun u hu hsound => ?_)
  cases hreason : u.hold.holdReason with
  | some reason => exact Discipline.Always.pure (hheld u reason hu hsound hreason)
  | none =>
    refine Discipline.Always.bind (query_always hsound fun v hv hsound' => ?_)
    obtain ⟨hrecovery, hnone⟩ := hfree v (hu.trans hv) hsound' (hv.hold ▸ hreason)
    refine Discipline.Always.pure ?_
    split_ifs
    · exact hrecovery
    · exact hnone

/-! ## The worker -/

theorem safe_workerSets (desiredState : DesiredState) :
    Safe intl accountId (workerSets desiredState) := by
  refine .bind (.await _) fun sets => .bind (.when (.modify fun s hs => ?_)) fun _ => ?_
  · exact hs.setDesiredState desiredState
  · exact .bind (.await _) fun ok => .ite (.pure ()) .throw

theorem safe_workerPauses : Safe intl accountId workerPauses :=
  .bind safe_clearRecoveryHealth fun _ => safe_workerSets _

theorem safe_workerStops : Safe intl accountId workerStops :=
  .bind safe_clearRecoveryHealth fun _ => .bind safe_clearSafetyHold fun _ => safe_workerSets _

theorem safe_forceDisconnectForSafety : Safe intl accountId forceDisconnectForSafety :=
  .bind safe_clearRecoveryHealth.attempt fun _ => safe_workerSets _

theorem safe_markSafetyAttention : Safe intl accountId markSafetyAttention := by
  refine .bind (safe_workerSets _) fun _ => .bind (safe_update fun s hs => ?_) fun _ => .pure ()
  exact ⟨hs.marked, hs.timed, hs.timer, hs.resumptions⟩

/-! ## The manager -/

/-- An account may be made to run when what it is released from allows it. -/
theorem releaseAndRun_always {command : ResumeCommand} {cause : ResumeCause}
    (hs : s.Sound intl accountId)
    (hallowed : Resumption.Allowed intl accountId ⟨command, cause, s.hold⟩) :
    (holdDiscipline intl accountId).Always (fun _ => HoldState.Sound intl accountId)
      (HoldState.Sound intl accountId) (releaseAndRun command cause) s := by
  refine Discipline.Always.bind (getWorkerForAccount_always hs fun u hu hsound => ?_)
  refine Discipline.Always.bind (Discipline.Always.modify trivial ?_)
  refine Discipline.Always.bind (update_always hsound.clearSafetyResume fun v hv hsound' => ?_)
  have hhold : v.hold = s.hold := hv.hold.trans hu.hold
  have hrun : Safe intl accountId (workerResumes ⟨command, cause, v.hold⟩) := by
    refine .bind (.modify fun w hw => hw.resume ?_) fun _ => safe_workerSets _
    rw [hhold]
    exact hallowed
  exact (Safe.bind safe_clearRecoveryHealth fun _ => hrun) _ hsound'.clearHold

theorem safe_startNow : Safe intl accountId (startNow .request) :=
  fun _ hs => releaseAndRun_always hs trivial

theorem safe_resumeNow : Safe intl accountId (resumeNow .request) :=
  fun _ hs => releaseAndRun_always hs trivial

theorem safe_stopNow : Safe intl accountId stopNow :=
  .bind safe_getWorkerForAccount fun _ =>
    .bind (.modify fun _ hs => hs.clearSafetyResume) fun _ => safe_workerStops

theorem safe_clearAccount : Safe intl accountId
    (Async.modify fun s => { s with coordinator := s.coordinator.clearAccount accountId }) :=
  .modify fun _ hs => hs.setCoordinator (hs.marked.clearAccount accountId)

section Pauses
variable {shouldPause : HoldAsync Bool} (source : OperationSource)

theorem safe_pauseNow (h : Safe intl accountId shouldPause) :
    Safe intl accountId (pauseNow accountId source shouldPause) := by
  have hmanual : Safe intl accountId (setSafetyHold .manual none .unscheduled) :=
    safe_setSafetyHold (fun h => by cases h) .unscheduled
  refine .bind h fun _ => .when (.bind safe_getWorkerForAccount fun _ => ?_)
  refine .bind h fun _ => .when (.bind (.modify fun _ hs => hs.clearSafetyResume) fun _ => ?_)
  refine .bind (.when (.bind hmanual fun _ => safe_clearAccount)) fun _ => ?_
  exact .bind h fun _ => .when safe_workerPauses

theorem safe_pauseForSafety (h : Safe intl accountId shouldPause) :
    Safe intl accountId (pauseForSafety accountId source shouldPause) := by
  have hfailure : Safe intl accountId (setSafetyHold .safetyFailure none .unscheduled) :=
    safe_setSafetyHold (fun h => by cases h) .unscheduled
  refine .bind h fun _ => .when (.bind safe_getWorkerForAccount fun _ => ?_)
  refine .bind (safe_pauseNow source h).attempt fun paused => ?_
  cases paused with
  | some _ => exact .pure ()
  | none =>
    refine .bind h fun _ => .when (.bind safe_forceDisconnectForSafety.attempt ?_)
    intro disconnected
    cases disconnected with
    | some _ => exact .pure ()
    | none =>
      refine .bind h fun _ => .when (.bind hfailure fun _ => ?_)
      exact .bind safe_markSafetyAttention fun _ => .throw

end Pauses

theorem safe_always : Safe intl accountId always := .pure true

theorem safe_getHoldOwner : Safe intl accountId (getHoldOwner intl accountId) := by
  refine .bind .get fun s => .bind safe_query fun t => ?_
  cases t.winner intl accountId s.now with
  | some winner => exact .pure _
  | none => exact .pure _

theorem safe_pauseUntil (resumeAt : ℤ) :
    Safe intl accountId (pauseUntil intl accountId resumeAt) := by
  refine .bind safe_query fun account => .ite .throw (.bind safe_getHoldOwner fun owner => ?_)
  refine .bind (safe_setSafetyHold (fun _ => Option.some_ne_none _) owner) fun _ => ?_
  refine .bind (safe_pauseForSafety .safety safe_always) fun _ => .bind safe_query fun policy => ?_
  exact .when (.modify fun s hs => hs.scheduleSafetyResume resumeAt)

theorem safe_enforceCap (reason : SafetyHoldReason) :
    Safe intl accountId (enforceCap accountId reason) := by
  refine .bind safe_query fun current => .ite (.pure ()) ?_
  refine .bind (safe_setSafetyHold (fun h => by cases h) .unscheduled) fun _ => ?_
  exact safe_pauseForSafety .safety safe_always

/-! ## The end of a timed hold -/

/-- A held account may be resumed when no window owns the hold, or the one that wins does. -/
theorem canResumeHeldAccount_always {found : HoldState} {now : ℤ}
    (hs : s.Sound intl accountId) (hfound : found.Sound intl accountId)
    (hbeside : BesideHold intl accountId found s) :
    (holdDiscipline intl accountId).Always
      (fun may u => BesideHold intl accountId found u ∧ u.Sound intl accountId ∧
        (may = true → found.MayResume intl accountId u.skipLookupFails now))
      (HoldState.Sound intl accountId)
      (canResumeHeldAccount intl accountId found.hold.owner now) s := by
  unfold canResumeHeldAccount HeldAccount.MayResume
  cases found.hold.owner with
  | unscheduled => exact Discipline.Always.pure ⟨hbeside, hs, fun _ => trivial⟩
  | unknown => exact Discipline.Always.pure ⟨hbeside, hs, fun h => by cases h⟩
  | scheduled scheduleId windowId =>
    refine Discipline.Always.bind (query_always hs fun u hu hsound => Discipline.Always.pure ?_)
    have hbeside := hbeside.trans hu
    refine ⟨hbeside, hsound, fun hmay => ?_⟩
    obtain ⟨⟨schedule, winning⟩, hwinner, hmatch⟩ := (Option.any_eq_true _ _).mp hmay
    simp only [Bool.and_eq_true, decide_eq_true_eq] at hmatch
    obtain ⟨hid, rfl⟩ := hmatch
    refine ⟨schedule, ?_, hid⟩
    rw [← hwinner]
    exact ((hbeside.schedules hfound).winner_eq hfound.marked _ now).symm

/-- At its end a timed hold is released, and the account runs if it may. -/
theorem expire_always {now : ℤ} (hs : s.Sound intl accountId)
    (htimed : s.hold.holdReason = some .pauseUntil)
    (hdue : ∃ pauseUntil, s.hold.pauseUntil = some pauseUntil ∧ pauseUntil ≤ now) :
    (holdDiscipline intl accountId).Always (fun _ => HoldState.Sound intl accountId)
      (HoldState.Sound intl accountId) (expire intl accountId now) s := by
  have hclear : Safe intl accountId (clearSafetyHold >>= fun _ => pure ()) :=
    .bind safe_clearSafetyHold fun _ => .pure ()
  refine Discipline.Always.bind (query_always hs fun found hfound hsound => ?_)
  split_ifs with hpaused
  · exact hclear found hsound
  · have hpaused : found.desiredState = some .paused := not_not.mp hpaused
    refine Discipline.Always.bind (query_always hsound fun policy hpolicy hsound' => ?_)
    rw [hpolicy.hold]
    refine Discipline.Always.bind
      ((canResumeHeldAccount_always hsound' hsound hpolicy).mono ?_ fun _ => id)
    rintro may checked ⟨hchecked, hsound, hmay⟩
    split_ifs with hsome
    · refine Discipline.Always.bind (Discipline.Always.get ?_)
      refine Discipline.Always.bind (getWorkerForAccount_always hsound fun u hu hsound => ?_)
      refine Discipline.Always.bind (update_always hsound fun released hreleased hsound => ?_)
      have hbeside := (hchecked.trans hu).trans hreleased
      have hallowed : Decision.Allowed intl accountId ⟨now, found.toHeldAccount, policy.now,
          checked.toHeldAccount, released.toHeldAccount⟩ :=
        { timed := hfound.hold ▸ htimed
          due := hfound.hold ▸ hdue
          paused := hpaused
          owner := hmay hsome
          hold := hbeside.hold
          schedules := hbeside.schedules ‹_›
          stillPaused := hbeside.paused hpaused }
      refine Discipline.Always.bind (Discipline.Always.get ?_)
      split_ifs
      · exact releaseAndRun_always hsound.clearHold hallowed
      · exact releaseAndRun_always hsound.clearHold hallowed
    · exact hclear checked hsound

theorem safe_safetyResume : Safe intl accountId (safetyResume intl accountId) := by
  intro s hs
  refine Discipline.Always.bind (query_always hs fun policy hpolicy hsound => ?_)
  split_ifs with htimed
  · exact Discipline.Always.pure hsound
  · have htimed : policy.hold.holdReason = some .pauseUntil := not_not.mp htimed
    cases hlater : policy.hold.pauseUntil.filter fun pauseUntil => policy.now < pauseUntil with
    | some pauseUntil =>
      exact Discipline.Always.modify trivial (hsound.scheduleSafetyResume pauseUntil)
    | none =>
      obtain ⟨pauseUntil, hpauseUntil⟩ := Option.ne_none_iff_exists'.mp (hsound.timed htimed)
      refine expire_always hsound htimed ⟨pauseUntil, hpauseUntil, ?_⟩
      rw [hpauseUntil, Option.filter_some_eq_none] at hlater
      simpa using hlater

/-! ## Schedules and farming -/

theorem resumeOrStartFromScheduleNow_always (hs : s.Sound intl accountId)
    (hfree : s.hold.holdReason = none) :
    (holdDiscipline intl accountId).Always (fun _ => HoldState.Sound intl accountId)
      (HoldState.Sound intl accountId) resumeOrStartFromScheduleNow s := by
  refine Discipline.Always.bind (query_always hs fun u hu hsound => ?_)
  have hallowed {command : ResumeCommand} :
      Resumption.Allowed intl accountId ⟨command, .schedule, u.hold⟩ := by
    show u.hold.holdReason = none
    rw [hu.hold, hfree]
  split_ifs
  · exact releaseAndRun_always hsound hallowed
  · exact releaseAndRun_always hsound hallowed

theorem safe_finishTransition (now : ℤ) (ports : Schedule.Ports) :
    Safe intl accountId (finishTransition intl accountId now ports) :=
  .modify fun _ hs => hs.setCoordinator (hs.marked.runAccount intl accountId now ports)

theorem safe_startFromSchedule (now : ℤ) (fine : Schedule.Ports) :
    Safe intl accountId (startFromSchedule intl accountId now fine) := by
  have hfinish (ports : Schedule.Ports) :
      Safe intl accountId (finishTransition intl accountId now ports) :=
    safe_finishTransition now ports
  refine .bind safe_query.attempt fun applied => ?_
  cases applied with
  | none => exact hfinish _
  | some _ =>
    intro s hs
    refine Discipline.Always.bind (Discipline.Always.attempt ?_)
    refine (getActiveAutomationHold_always (Q := fun hold u => u.Sound intl accountId ∧
      (hold = none → u.hold.holdReason = none)) hs ?_ ?_).mono ?_ ?_
    · exact fun u reason _ hsound _ => ⟨hsound, fun h => by cases h⟩
    · exact fun u _ hsound hfree => ⟨⟨hsound, fun h => by cases h⟩, hsound, fun _ => hfree⟩
    · rintro (_ | hold) u ⟨hsound, hfree⟩
      · refine Discipline.Always.bind (Discipline.Always.attempt ?_)
        refine (resumeOrStartFromScheduleNow_always hsound (hfree rfl)).mono ?_ ?_
        · exact fun _ v hv => (Safe.bind (.await _) fun _ => hfinish _) v hv
        · exact fun v hv => (Safe.bind (.await _) fun _ => hfinish _) v hv
      · exact hfinish _ u hsound
    · exact fun u hsound => hfinish _ u hsound

theorem safe_pauseFromSchedule (now : ℤ) (fine : Schedule.Ports) :
    Safe intl accountId (pauseFromSchedule intl accountId now fine) := by
  have hfinish (ports : Schedule.Ports) :
      Safe intl accountId (finishTransition intl accountId now ports) :=
    safe_finishTransition now ports
  refine .bind safe_query.attempt fun account => ?_
  cases account.bind fun account => account.desiredState with
  | none => exact hfinish _
  | some desiredState =>
    refine .bind (Safe.attempt (.when (safe_pauseNow .scheduler safe_always))) fun paused => ?_
    exact .bind (.await _) fun _ => hfinish _

theorem safe_runSchedules (now : ℤ) :
    Safe intl accountId (runSchedules intl accountId now) := by
  have hfinish (ports : Schedule.Ports) :
      Safe intl accountId (finishTransition intl accountId now ports) :=
    safe_finishTransition now ports
  have hactive : Safe intl accountId getActiveAutomationHold := by
    intro s hs
    exact getActiveAutomationHold_always hs (fun _ _ _ hsound _ => hsound)
      fun _ _ hsound _ => ⟨hsound, hsound⟩
  refine .bind safe_query fun s => .bind hactive.attempt fun hold => ?_
  rcases hold with _ | _ | hold
  · exact hfinish _
  · dsimp only
    split
    · exact safe_startFromSchedule now _
    · exact safe_pauseFromSchedule now _
    · exact .bind (.await _) fun _ => hfinish _
  · exact hfinish _

theorem safe_resumeForFarmingNow : Safe intl accountId resumeForFarmingNow := by
  intro s hs
  have hresumable : (holdDiscipline intl accountId).Always
      (fun resumable u => u.Sound intl accountId ∧
        (resumable = true → u.hold.holdReason ≠ some .pauseUntil))
      (HoldState.Sound intl accountId) isResumable s := by
    refine Discipline.Always.bind (query_always hs fun account _ hsound => ?_)
    refine Discipline.Always.bind (getActiveAutomationHold_always hsound ?_ ?_)
    · intro u reason _ hsound hreason
      refine Discipline.Always.bind (Discipline.Always.get (Discipline.Always.pure ⟨hsound, ?_⟩))
      intro hresumable hpauseUntil
      rw [hreason] at hpauseUntil
      obtain rfl := Option.some.inj hpauseUntil
      simp at hresumable
    · intro u _ hsound hfree
      have hother : u.hold.holdReason ≠ some .pauseUntil := by simp [hfree]
      constructor
      · exact Discipline.Always.bind
          (Discipline.Always.get (Discipline.Always.pure ⟨hsound, fun _ => hother⟩))
      · exact Discipline.Always.bind
          (Discipline.Always.get (Discipline.Always.pure ⟨hsound, fun _ => hother⟩))
  refine Discipline.Always.bind (hresumable.mono ?_ fun _ => id)
  rintro resumable u ⟨hsound, hother⟩
  unfold Async.when
  split_ifs with h
  · exact releaseAndRun_always hsound (hother h)
  · exact Discipline.Always.pure hsound

/-! ## The account -/

theorem safe_edit (a : Schedule.Action) : Safe intl accountId (edit intl accountId a) := by
  refine .bind safe_query fun _ => .ite (.bind (safe_update fun s hs => ?_) fun _ => .pure ()) .throw
  cases hn : s.coordinator.next intl a with
  | none => exact hs
  | some coordinator => exact hs.setCoordinator (hs.marked.step hn)

theorem safe_clientEvent (pauses attention : Bool) :
    Safe intl accountId (clientEvent pauses attention) := by
  have hattention : Safe intl accountId (update fun s => { s with recoveryHold := true }) :=
    safe_update fun _ hs => ⟨hs.marked, hs.timed, hs.timer, hs.resumptions⟩
  refine .bind (.when (.bind hattention fun _ => .pure ())) fun _ => ?_
  exact .when (safe_workerSets _)

theorem safe_clearAccountState : Safe intl accountId (clearAccountState accountId) :=
  .modify fun _ hs => ⟨hs.marked.clearAccount accountId, hs.timed, hs.clearSafetyResume.timer,
    hs.resumptions⟩

theorem safe_closeWorker : Safe intl accountId closeWorker := by
  refine .bind (.await _) fun hasWorker => .ite (.bind safe_workerStops.attempt ?_) (.pure _)
  exact fun stopped => .bind (.await _) fun safelyClosed => .pure _

theorem safe_forgetNow : Safe intl accountId (forgetNow accountId) :=
  .bind safe_closeWorker fun _ => .bind (.when safe_clearAccountState) fun _ =>
    .ite (.pure ()) .throw

theorem safe_deleteAccount : Safe intl accountId (deleteAccount accountId) := by
  refine .bind safe_forgetNow fun _ => .bind (safe_update fun s hs => ?_) fun _ => .pure ()
  refine ⟨hs.marked.edit fun id row hrow => ?_, hs.clearHold.timed, hs.timer, hs.resumptions⟩
  exact ⟨row, (Table.lookup_of_retain hrow).1, rfl, rfl, rfl, rfl⟩

theorem safe_interruptingFarming {operation : HoldAsync Unit} (wasFarming : Bool)
    (h : Safe intl accountId operation) :
    Safe intl accountId (interruptingFarming accountId wasFarming operation) := by
  refine .bind h.attempt fun ended => ?_
  cases ended with
  | some _ => exact .pure ()
  | none =>
    have hpause : Safe intl accountId (pauseForSafety accountId .request always) :=
      safe_pauseForSafety .request safe_always
    exact .bind (.when (.bind hpause.attempt fun _ => .pure ())) fun _ => .throw

theorem safe_operation (op : HoldOperation) : Safe intl accountId (operation intl accountId op) := by
  cases op with
  | safetyResume => exact safe_safetyResume
  | pauseUntil resumeAt => exact safe_pauseUntil resumeAt
  | start wasFarming => exact safe_interruptingFarming wasFarming safe_startNow
  | stop wasFarming => exact safe_interruptingFarming wasFarming safe_stopNow
  | pause wasFarming =>
    exact safe_interruptingFarming wasFarming (safe_pauseNow .request safe_always)
  | resume wasFarming => exact safe_interruptingFarming wasFarming safe_resumeNow
  | resumeForFarming => exact safe_resumeForFarmingNow
  | endFarming => exact safe_pauseForSafety .farming (.await _)
  | enforceCap reason => exact safe_enforceCap reason
  | runSchedules now => exact safe_runSchedules now
  | edit a => exact safe_edit a
  | clientEvent pauses attention => exact safe_clientEvent pauses attention
  | forget => exact safe_forgetNow
  | deleteAccount => exact safe_deleteAccount

theorem safe_body (op : HoldOperation) : Safe intl accountId (body intl accountId op) := by
  cases op with
  | safetyResume => exact safe_safetyResume
  | _ => exact .bind .get fun s => .ite .throw (safe_operation _)

end SteamManager

/-! ## The events and the runs -/

namespace HoldState

theorem Sound.reboot (h : s.Sound intl accountId) : s.reboot.Sound intl accountId :=
  ⟨h.marked.forget rfl rfl rfl, h.timed, h.timer, h.resumptions⟩

theorem Sound.restore (h : s.Sound intl accountId) : s.restore.Sound intl accountId := by
  unfold HoldState.restore
  split
  · exact ⟨h.marked, h.timed, (h.scheduleSafetyResume _).timer, h.resumptions⟩
  · exact ⟨h.marked, h.timed, h.timer, h.resumptions⟩

/-- Events keep the state sound, and leave the hold and the schedules of the account alone. -/
theorem besideHold_of_occur {event : HoldEvent} {o : Transition.Occurrence HoldState HoldOperation}
    (ho : occur intl accountId s event = some o) : BesideHold intl accountId s o.state := by
  cases event with
  | request op =>
    have hstate : o.state = s := by
      simp only [occur] at ho
      split at ho
      · cases ho
      · split_ifs at ho
        obtain rfl := Option.some.inj ho
        rfl
    rw [hstate]
    exact .refl s
  | timer =>
    simp only [occur] at ho
    split at ho
    · obtain rfl := Option.some.inj ho
      exact ⟨Sound.clearSafetyResume, rfl, fun _ => .refl _, le_rfl, fun _ => .inl rfl⟩
    · cases ho
  | clock now =>
    obtain rfl := Option.some.inj ho
    exact ⟨fun h => ⟨h.marked, h.timed, h.timer, h.resumptions⟩, rfl, fun _ => .refl _, le_rfl,
      fun _ => .inl rfl⟩
  | connection connected =>
    obtain rfl := Option.some.inj ho
    exact ⟨fun h => ⟨h.marked, h.timed, h.timer, h.resumptions⟩, rfl, fun _ => .refl _, le_rfl,
      fun _ => .inl rfl⟩
  | lookups skipLookupFails =>
    obtain rfl := Option.some.inj ho
    exact ⟨fun h => ⟨h.marked, h.timed, h.timer, h.resumptions⟩, rfl, fun _ => .refl _, le_rfl,
      fun _ => .inl rfl⟩
  | logIn =>
    obtain rfl := Option.some.inj ho
    exact ⟨fun h => ⟨h.marked, h.timed, h.timer, h.resumptions⟩, rfl, fun _ => .refl _,
      Nat.le_succ _, fun h => absurd h (Nat.succ_ne_self _)⟩
  | elsewhere a =>
    simp only [occur] at ho
    split_ifs at ho with hother
    obtain ⟨coordinator, hn, ho⟩ := Option.bind_eq_some_iff.mp ho
    obtain rfl := Option.some.inj ho
    exact ⟨fun h => h.setCoordinator (h.marked.step hn), rfl,
      fun h => h.marked.sameFor_next hother hn, le_rfl, fun _ => .inl rfl⟩
  | beginShutdown =>
    obtain rfl := Option.some.inj ho
    exact ⟨fun h => ⟨h.marked, h.timed, h.clearSafetyResume.timer, h.resumptions⟩, rfl,
      fun _ => .refl _, le_rfl, fun _ => .inl rfl⟩
  | shutdownPauses =>
    simp only [occur] at ho
    split_ifs at ho
    obtain rfl := Option.some.inj ho
    exact ⟨fun h => h.setDesiredState _, rfl, fun _ => .refl _, le_rfl, fun _ => .inr rfl⟩
  | shutdownEnds =>
    simp only [occur] at ho
    split_ifs at ho
    obtain rfl := Option.some.inj ho
    exact ⟨Sound.reboot, rfl, fun _ => .of_eq rfl rfl, le_rfl, fun _ => .inl rfl⟩
  | restart =>
    obtain rfl := Option.some.inj ho
    exact ⟨fun h => h.clearSafetyResume.reboot, rfl, fun _ => .of_eq rfl rfl, le_rfl,
      fun _ => .inl rfl⟩
  | restore =>
    simp only [occur] at ho
    split_ifs at ho
    obtain rfl := Option.some.inj ho
    have hsame : s.restore.toHeldAccount = s.toHeldAccount := by
      unfold HoldState.restore
      split <;> rfl
    constructor
    · exact Sound.restore
    · exact congrArg HeldAccount.hold hsame
    · intro _
      rw [show s.restore.coordinator = s.coordinator from congrArg HeldAccount.coordinator hsame]
      exact .refl _
    · exact (congrArg HeldAccount.starts hsame).ge
    · exact fun _ => .inl (congrArg HeldAccount.desiredState hsame)
  | autoStart =>
    simp only [occur] at ho
    split_ifs at ho
    obtain rfl := Option.some.inj ho
    exact ⟨fun h => ⟨h.marked, h.timed, h.timer, h.resumptions⟩, rfl, fun _ => .refl _,
      Nat.le_succ _, fun h => absurd h (Nat.succ_ne_self _)⟩

theorem Starts.sound (h : Starts intl s) : s.Sound intl accountId where
  marked := .of_reachable h.coordinator
  timed := h.timed
  timer timer htimer := by
    rw [h.timer] at htimer
    cases htimer
  resumptions r hr := by
    rw [h.resumptions] at hr
    cases hr

end HoldState

theorem holdService_keeps : (holdService intl accountId).Keeps (holdDiscipline intl accountId)
    (HoldState.Sound intl accountId) where
  starts _ h := HoldState.Starts.sound h
  inv _ _ := id
  allowed _ _ _ := trivial
  body op s hs := SteamManager.safe_body op s hs
  occur _ _ _ hs ho := by
    have hbeside := HoldState.besideHold_of_occur ho
    exact ⟨hbeside.sound hs, fun _ => hbeside⟩

variable {q : Transition.SerialQueue HoldState HoldAwait Bool HoldOperation}

/-- Timers are never too long for a timer or late, and nothing but a request makes an account run
that is held until a time, unless the time has come, the account is still paused by that hold, and
the window that owns the hold still wins. -/
theorem resumed_when_allowed (h : (holdMachine intl accountId).Reachable q) :
    (∀ timer, q.state.safetyResumeTimer = some timer → timer.Bounded) ∧
      ∀ r ∈ q.state.resumptions, r.Allowed intl accountId := by
  have hsound := Transition.SerialQueue.keeps_of_reachable holdService_keeps h
  exact ⟨hsound.timer, hsound.resumptions⟩

/-- A process that has just started on the database of an account that runs. -/
def runningAccount : HoldState where
  coordinator := .empty
  skipLookupFails _ := false
  desiredState := some .running
  hold := .cleared
  starts := 0
  recoveryHold := false
  now := 0
  quiescing := false
  connected := true
  safetyResumeTimer := none
  restored := false
  autoStarts := false
  resumptions := []

/-- The account is paused for longer than a timer can wait; the process restarts, the timer is set
again when it has fired too early, and at the end of the hold the account runs. -/
def longPause : List (Transition.SerialAction Bool HoldEvent) :=
  [.occur .restore, .occur (.request (.pauseUntil 5000000000)), .begin] ++
    List.replicate 9 (.settle true) ++
    [.occur .restart, .occur .restore, .occur (.clock 2147483647), .occur .timer, .begin,
      .settle true, .occur (.clock 5000000000), .occur .timer, .begin] ++
    List.replicate 10 (.settle true)

theorem resumed_when_allowed_longPause : ∃ q, (holdMachine Coordinator.greenwich 1).Reachable q ∧
    q.state.resumptions.length = 1 ∧ q.state.desiredState = some .running ∧
    (∀ timer, q.state.safetyResumeTimer = some timer → timer.Bounded) ∧
      ∀ r ∈ q.state.resumptions, r.Allowed Coordinator.greenwich 1 := by
  have hstarts : (holdMachine Coordinator.greenwich 1).Starts ⟨runningAccount, none, []⟩ := by
    refine ⟨⟨.of_starts rfl, fun h => ?_, rfl, rfl, rfl⟩, rfl, rfl⟩
    cases h
  have hrun : ((holdMachine Coordinator.greenwich 1).exec ⟨runningAccount, none, []⟩ longPause).map
      (fun q => (q.state.resumptions.length, q.state.desiredState)) = some (1, some .running) := by
    decide +kernel
  obtain ⟨q, hq, hends⟩ := Option.map_eq_some_iff.mp hrun
  obtain ⟨hlength, hdesired⟩ := Prod.mk.inj hends
  have hreach : (holdMachine Coordinator.greenwich 1).Reachable q :=
    ⟨_, hstarts, Transition.Machine.leads_of_exec hq⟩
  exact ⟨q, hreach, hlength, hdesired, resumed_when_allowed hreach⟩

end SteamBee.Steam
