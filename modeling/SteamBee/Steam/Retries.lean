import SteamBee.Steam.LogOns
import SteamBee.Steam.RetryTimers

/-! The retries of a worker: one timer is pending at most, and a callback that was armed before the
retries ended neither logs on nor reports games. -/
namespace SteamBee.Steam
open Schedule (DesiredState)
open Transition (Async Discipline)

variable {s t u : WorkerState} {α β : Type}

/-! ## What is done beside a call -/

structure Lawfully (s t : WorkerState) : Prop where
  lawful : Lawful s → Lawful t
  succeeds : Succeeds s t
  quiescing : s.worker.quiescing = true → t.worker.quiescing = true

structure Alongside (s t : WorkerState) : Prop extends Lawfully s t where
  caller : t.trace.caller = s.trace.caller

/-- What is done while an account operation waits: no timer is armed, and a running worker stays
running unless it shuts down. -/
structure Meanwhile (s t : WorkerState) : Prop extends Lawfully s t where
  unarmed : Unarmed s → Unarmed t
  lasts : s.worker.desiredState = .running → t.worker.quiescing = true ∨
    t.worker.desiredState = .running ∧ t.trace.halts = s.trace.halts

/-- What is done while a call of an account operation is under way. -/
structure Idles (s t : WorkerState) : Prop extends Meanwhile s t where
  caller : t.trace.caller = s.trace.caller
  desiredState : t.worker.desiredState = s.worker.desiredState
  halts : t.trace.halts = s.trace.halts

theorem Lawfully.refl (s : WorkerState) : Lawfully s s := ⟨id, .refl s, id⟩

theorem Lawfully.trans (h : Lawfully s t) (h' : Lawfully t u) : Lawfully s u :=
  ⟨h'.lawful ∘ h.lawful, h.succeeds.trans h'.succeeds, h'.quiescing ∘ h.quiescing⟩

theorem Alongside.refl (s : WorkerState) : Alongside s s := ⟨.refl s, rfl⟩

theorem Alongside.trans (h : Alongside s t) (h' : Alongside t u) : Alongside s u :=
  ⟨h.toLawfully.trans h'.toLawfully, h'.caller.trans h.caller⟩

theorem Meanwhile.refl (s : WorkerState) : Meanwhile s s := ⟨.refl s, id, fun hr => .inr ⟨hr, rfl⟩⟩

theorem Meanwhile.trans (h : Meanwhile s t) (h' : Meanwhile t u) : Meanwhile s u where
  toLawfully := h.toLawfully.trans h'.toLawfully
  unarmed := h'.unarmed ∘ h.unarmed
  lasts hr := by
    rcases h.lasts hr with hquiescing | ⟨hrunning, hhalts⟩
    · exact .inl (h'.quiescing hquiescing)
    · rcases h'.lasts hrunning with hquiescing | ⟨hrunning', hhalts'⟩
      · exact .inl hquiescing
      · exact .inr ⟨hrunning', hhalts'.trans hhalts⟩

theorem Idles.refl (s : WorkerState) : Idles s s := ⟨.refl s, rfl, rfl, rfl⟩

theorem Idles.trans (h : Idles s t) (h' : Idles t u) : Idles s u :=
  ⟨h.toMeanwhile.trans h'.toMeanwhile, h'.caller.trans h.caller,
    h'.desiredState.trans h.desiredState,
    h'.halts.trans h.halts⟩

theorem Lawful.ebbs (h : Lawful s) (hst : Ebbs s t) (hvouched : Vouched t) : Lawful t :=
  ⟨hst.timed h.timed, fun id timer htimer =>
    (h.dated id timer (hst.timers id timer htimer)).succeeds hst.succeeds, hvouched⟩

/-- The laws do not depend on who runs. -/
theorem Lawful.of_view (h : Lawful s) (hview : { t with
      worker.quiescing := s.worker.quiescing
      trace.caller := s.trace.caller }.retryView = s.retryView) : Lawful t := by
  have hst := (endures_of_view hview).toEbbs
  obtain ⟨htimed, hdated, hvouched⟩ := h.ebbs hst (vouched_of_view hview h.vouched)
  exact ⟨⟨htimed.fresh, htimed.reconnect, htimed.conflict, htimed.pending, htimed.single⟩,
    fun id timer htimer => ⟨(hdated id timer htimer).drawn, (hdated id timer htimer).current⟩,
    hvouched.logOns, hvouched.reports⟩

theorem Ebbs.lawfully (hst : Ebbs s t) (hvouched : Vouched s → Vouched t) : Lawfully s t where
  lawful h := h.ebbs hst (hvouched h.vouched)
  succeeds := hst.succeeds
  quiescing hs := hst.quiescing.trans hs

theorem Endures.idles (h : Endures s t) (hdesired : t.worker.desiredState = s.worker.desiredState)
    (hhalts : t.trace.halts = s.trace.halts) (hvouched : Vouched s → Vouched t) : Idles s t :=
  ⟨⟨h.toEbbs.lawfully hvouched, h.unarmed, fun hr => .inr (h.lasts hr)⟩, h.caller, hdesired, hhalts⟩

theorem idles_of_view (h : t.retryView = s.retryView) : Idles s t :=
  (endures_of_view h).idles (congrArg RetryView.desiredState h) (congrArg RetryView.halts h)
    (vouched_of_view h)

/-- A timer that is pending goes away. -/
theorem idles_of_drops {id : TimerId} (hdrops : Timed s → Drops s t id)
    (hview : { t with
      worker.reconnectTimer := s.worker.reconnectTimer
      worker.sessionConflictTimer := s.worker.sessionConflictTimer
      timers := s.timers }.retryView = s.retryView)
    (hs : Timed s) : Idles s t := by
  have hd := hdrops hs
  have h : Endures s t :=
    endures_of_timed hview (fun _ => hd.timed hs) hd.unarmed fun _ _ htimer =>
      (hd.lookup.mp htimer).1
  have hi := idles_of_view hview
  exact h.idles hi.desiredState hi.halts fun hv =>
    ⟨(vouched_of_view hview hv).logOns, (vouched_of_view hview hv).reports⟩

theorem idles_beginShutdown (s : WorkerState) : Idles s s.beginShutdown := by
  unfold WorkerState.beginShutdown
  split_ifs
  · exact .refl s
  have hquiescing : Idles s { s with
      worker.quiescing := true
      worker.farmingInterruptedByShutdown :=
        s.worker.farmingAppIds.isSome && !s.around.farmingResumes } := by
    refine ⟨⟨⟨fun hs => hs.of_view rfl, ⟨le_rfl, fun _ hr => ⟨hr, rfl⟩⟩, fun _ => rfl⟩,
      fun hu => ⟨hu.reconnect, hu.conflict⟩, fun _ => .inl rfl⟩, rfl, rfl, rfl⟩
  refine hquiescing.trans ((endures_clearAll _).idles ?_ ?_ ?_)
  · simp [WorkerState.resetSessionConflict, WorkerState.clearFarmingSelection]
  · simp [WorkerState.resetSessionConflict, WorkerState.clearFarmingSelection]
  · intro hs
    constructor
    · simpa [WorkerState.resetSessionConflict, WorkerState.clearFarmingSelection] using hs.logOns
    · simpa [WorkerState.resetSessionConflict, WorkerState.clearFarmingSelection] using hs.reports

theorem Disturbs.idles (h : Disturbs s t) (hs : Lawful s) : Idles s t := by
  cases h with
  | surround around => exact idles_of_view rfl
  | clearFarmingSelection keepAwaitingFarming => exact idles_of_view rfl
  | beginShutdown => exact idles_beginShutdown s
  | emit event client hclient => exact idles_of_view rfl
  | expire id hreconnect hconflict =>
    exact idles_of_drops (fun hs => drops_expired hs hreconnect hconflict) rfl hs.timed
  | reconnect id hfield =>
    refine idles_of_drops (fun hs => drops_reconnect hs hfield) ?_ hs.timed
    simp only [WorkerState.retryView]
  | sessionConflict id hfield =>
    refine idles_of_drops (fun hs => drops_sessionConflict hs hfield) ?_ hs.timed
    simp only [WorkerState.retryView]

/-! ## The disciplines -/

def serving : Discipline WorkerState WorkerAwait Bool where
  Rely := Idles
  Allowed _ _ _ := True
  Guarantee := Lawfully
  Inv _ _ := True
  rely_refl := .refl
  rely_trans := .trans
  guarantee_refl := .refl
  guarantee_trans := .trans
  stable _ := id

/-- A call beside the account operations, during which one of them may reschedule a reconnect. -/
def direct : Discipline WorkerState WorkerAwait Bool where
  Rely := Alongside
  Allowed _ _ _ := True
  Guarantee := Meanwhile
  Inv _ _ := True
  rely_refl := .refl
  rely_trans := .trans
  guarantee_refl := .refl
  guarantee_trans := .trans
  stable _ := id

/-- The rescheduling of a reconnect, beside which another call may run. -/
def rescheduling : Discipline WorkerState WorkerAwait Bool where
  Rely := Meanwhile
  Allowed _ _ _ := True
  Guarantee := Alongside
  Inv _ _ := True
  rely_refl := .refl
  rely_trans := .trans
  guarantee_refl := .refl
  guarantee_trans := .trans
  stable _ := id

/-- What is known beside the laws: it is kept while neither caller nor intent changes. -/
def Steadfast (P : WorkerState → Prop) : Prop :=
  ∀ {s t : WorkerState}, t.trace.caller = s.trace.caller →
    t.worker.desiredState = s.worker.desiredState → t.trace.halts = s.trace.halts → P s → P t

theorem steadfast_free : Steadfast Free := fun hcaller _ _ h => h.same hcaller

theorem steadfast_sincere : Steadfast Sincere := by
  intro s t hcaller hdesired hhalts h
  unfold Sincere
  rw [hcaller, hdesired, hhalts]
  exact h

structure Arms (D : Discipline WorkerState WorkerAwait Bool) (P : WorkerState → Prop) : Prop where
  rely : ∀ {s t}, D.Rely s t → Meanwhile s t
  keeps : ∀ {s t}, D.Rely s t → P s → P t
  guarantee : ∀ {s t}, Alongside s t → D.Guarantee s t
  inv : ∀ point s, D.Inv point s
  steadfast : Steadfast P

theorem arms_serving {P : WorkerState → Prop} (hP : Steadfast P) : Arms serving P where
  rely h := h.toMeanwhile
  keeps h := hP h.caller h.desiredState h.halts
  guarantee h := h.toLawfully
  inv _ _ := trivial
  steadfast := hP

theorem arms_rescheduling : Arms rescheduling fun _ => True where
  rely h := h
  keeps _ := id
  guarantee h := h
  inv _ _ := trivial
  steadfast _ _ _ := id

section Arms
variable {D : Discipline WorkerState WorkerAwait Bool} {P : WorkerState → Prop} (hD : Arms D P)
include hD

/-- While a timer waits to be armed none is. -/
theorem Arms.awaitOk {g : ℕ} (point : WorkerAwait)
    (h : Lawful s ∧ P s ∧ Unarmed s ∧ g ≤ s.worker.intentGeneration) :
    D.Always (fun _ t => Lawful t ∧ P t ∧ Unarmed t ∧ g ≤ t.worker.intentGeneration)
      (fun t => Lawful t ∧ P t) (awaitOk point) s := by
  have hsame : (Steam.awaitOk point).Keeps (· = ·) :=
    .bind (.await point) fun _ => .ite (.pure ()) .throw
  refine (hsame.always (P := fun t => Lawful t ∧ P t ∧ Unarmed t ∧ g ≤ t.worker.intentGeneration)
    ?_ ?_ (fun _ _ _ => hD.inv _ _) h).mono (fun _ _ => id) fun _ ht => ⟨ht.1, ht.2.1⟩
  · rintro s t hs rfl
    exact ⟨D.guarantee_refl s, hs⟩
  · intro s t hrely hs
    have hbeside := hD.rely hrely
    exact ⟨hbeside.lawful hs.1, hD.keeps hrely hs.2.1, hbeside.unarmed hs.2.2.1,
      hs.2.2.2.trans hbeside.succeeds.grows⟩

theorem Arms.scheduleReconnect (decision : RetryDecision) (h : Lawful s ∧ P s) :
    D.Always (fun _ t => Lawful t ∧ P t) (fun t => Lawful t ∧ P t) (scheduleReconnect decision)
      s := by
  have hbegin := endures_beginReconnect s
  have hlogOns : Vouched s → Vouched s.beginReconnect := by
    intro hs
    constructor
    · simpa [WorkerState.beginReconnect, WorkerState.resetSessionConflict] using hs.logOns
    · simpa [WorkerState.beginReconnect, WorkerState.resetSessionConflict] using hs.reports
  have hidles : Idles s s.beginReconnect := by
    refine hbegin.idles ?_ ?_ hlogOns
    · simp [WorkerState.beginReconnect, WorkerState.resetSessionConflict]
    · simp [WorkerState.beginReconnect, WorkerState.resetSessionConflict]
  refine .bind (.modify (hD.guarantee ⟨hidles.toLawfully, hidles.caller⟩) ?_)
  refine .bind (.get (.bind ((hD.awaitOk .recoveryHealth ⟨hidles.lawful h.1,
    hD.steadfast hidles.caller hidles.desiredState hidles.halts h.2, unarmed_beginReconnect s,
    le_rfl⟩).mono ?_ fun _ => id)))
  rintro _ t ⟨ht, hP, hu, hg⟩
  have harmed := ht.armReconnect hu hg decision
    (reconnectDelay s.beginReconnect.worker.reconnectAttempt decision +
      s.beginReconnect.around.jitter)
  exact .modify (hD.guarantee ⟨⟨fun _ => harmed, ⟨le_rfl, fun _ hr => ⟨hr, rfl⟩⟩, id⟩, rfl⟩)
    ⟨harmed, hD.steadfast (s := t) rfl rfl rfl hP⟩

theorem Arms.registerSessionConflict (source : ConflictMode) (h : Lawful s ∧ P s) :
    D.Always (fun _ t => Lawful t ∧ P t) (fun t => Lawful t ∧ P t)
      (registerSessionConflict source) s := by
  have hbegin := endures_beginSessionConflict s source
  have hlogOns : Vouched s → Vouched (s.beginSessionConflict source) := by
    intro hs
    constructor
    · simpa [WorkerState.beginSessionConflict] using hs.logOns
    · simpa [WorkerState.beginSessionConflict] using hs.reports
  have hidles : Idles s (s.beginSessionConflict source) := by
    refine hbegin.idles ?_ ?_ hlogOns
    · simp [WorkerState.beginSessionConflict]
    · simp [WorkerState.beginSessionConflict]
  refine .bind (.modify (hD.guarantee ⟨hidles.toLawfully, hidles.caller⟩) ?_)
  refine .bind (.get (.bind ((hD.awaitOk (g := 0) .recoveryHealth ⟨hidles.lawful h.1,
    hD.steadfast hidles.caller hidles.desiredState hidles.halts h.2,
    unarmed_beginSessionConflict s source, Nat.zero_le _⟩).mono ?_ fun _ => id)))
  intro _ t ht
  refine .bind ((hD.awaitOk .conflictRecord ht).mono ?_ fun _ => id)
  rintro _ u ⟨hu, hP, hunarmed, -⟩
  have harmed := hu.armSessionConflict hunarmed
    (sessionConflictDelay (s.beginSessionConflict source).worker.sessionConflictAttempt)
    (decide ((s.beginSessionConflict source).worker.sessionConflictAttempt ≥ 3))
  exact .modify (hD.guarantee ⟨⟨fun _ => harmed, ⟨le_rfl, fun _ hr => ⟨hr, rfl⟩⟩, id⟩, rfl⟩)
    ⟨harmed, hD.steadfast (s := u) rfl rfl rfl hP⟩

end Arms

/-! ## The calls of the account operations -/

def Serves (P : WorkerState → Prop) (x : WorkerAsync α) (s : WorkerState) : Prop :=
  serving.Always (fun _ t => Lawful t ∧ P t) (fun t => Lawful t ∧ P t) x s

/-- Parts that arm no timer keep the laws and `P`. -/
structure Carries (P : WorkerState → Prop) (G : WorkerState → WorkerState → Prop) : Prop where
  steadfast : Steadfast P
  ebbs : ∀ {s t}, G s t → Ebbs s t
  keeps : ∀ {s t}, P s → G s t → P t
  vouched : ∀ {s t}, P s → G s t → Vouched s → Vouched t

theorem carries_free : Carries Free Ebbs where
  steadfast := steadfast_free
  ebbs := id
  keeps h hst := h.same hst.caller
  vouched h hst := hst.vouched h

theorem carries_sincere : Carries Sincere Endures where
  steadfast := steadfast_sincere
  ebbs := Endures.toEbbs
  keeps h hst := h.endures hst
  vouched h hst := hst.sincere h

section Carries
variable {P : WorkerState → Prop} {G : WorkerState → WorkerState → Prop} {x : WorkerAsync α}
  {f : α → WorkerAsync β} (hP : Carries P G)
include hP

theorem Carries.part (hs : Lawful s ∧ P s) (hst : G s t) : Lawfully s t ∧ Lawful t ∧ P t := by
  have hlawfully := (hP.ebbs hst).lawfully (hP.vouched hs.2 hst)
  exact ⟨hlawfully, hlawfully.lawful hs.1, hP.keeps hs.2 hst⟩

theorem Carries.serves (hx : x.Keeps G) (h : Lawful s ∧ P s) : Serves P x s :=
  hx.always (fun _ _ hs hst => hP.part hs hst)
    (fun _ _ hst hs => ⟨hst.lawful hs.1, hP.steadfast hst.caller hst.desiredState hst.halts hs.2⟩)
    (fun _ _ _ => trivial) h

theorem Carries.bind (hx : x.Keeps G) (h : Lawful s ∧ P s)
    (hf : ∀ a t, Lawful t ∧ P t → Serves P (f a) t) : Serves P (x >>= f) s :=
  .bind ((hP.serves hx h).mono hf fun _ => id)

end Carries

namespace Serves
variable {P : WorkerState → Prop}

theorem pure {a : α} (h : Lawful s ∧ P s) : Serves P (Pure.pure a) s := Discipline.Always.pure h

theorem get_bind {f : WorkerState → WorkerAsync β} (h : Serves P (f s) s) :
    Serves P (Async.get >>= f) s := .bind (.get h)

/-- The call returns after it has served. -/
theorem then_return {x : WorkerAsync Unit} (h : Serves P x s) : Serves P (do x; return) s :=
  .bind (h.mono (fun _ _ ht => .pure ht) fun _ => id)

theorem registerSessionConflict (hP : Steadfast P) (source : ConflictMode) (h : Lawful s ∧ P s) :
    Serves P (registerSessionConflict source) s :=
  (arms_serving hP).registerSessionConflict source h

theorem scheduleReconnect (hP : Steadfast P) (decision : RetryDecision) (h : Lawful s ∧ P s) :
    Serves P (scheduleReconnect decision) s := (arms_serving hP).scheduleReconnect decision h

end Serves

theorem serves_updateAccountNow (account : WorkerRow) (h : Lawful s ∧ Free s) :
    Serves Free (updateAccountNow account) s := by
  have hrest : (do
      if (← Async.get).worker.quiescing then return
      applyGames false : WorkerAsync Unit).Keeps Ebbs :=
    .bind .get fun s => .ite (.pure ()) (ebbs_of_endures (endures_applyGames false))
  -- the row has the intent that the worker already has, or one that no callback belongs to
  have hrow {t : WorkerState} (ht : Lawful t ∧ Free t) (hst : Ebbs t (t.withRow account)) :
      Serves Free (do
        Async.modify fun s => s.withRow account
        if (← Async.get).worker.quiescing then return
        applyGames false) t := by
    obtain ⟨hpart, hkept⟩ := carries_free.part ht hst
    exact .bind (.modify hpart (carries_free.serves hrest hkept))
  unfold updateAccountNow
  apply Serves.get_bind
  dsimp only
  split_ifs with hchanged hrunning
  · refine carries_free.bind (.modify ebbs_supersede) h fun _ t ht => ?_
    refine carries_free.bind (.modify fun s => (endures_clearRetries s).toEbbs) ht fun _ t ht => ?_
    refine carries_free.bind (ebbs_awaitOk _) ht fun _ t ht => ?_
    exact hrow ht (ebbs_withRow fun hr => absurd hr hrunning)
  · have hst : Ebbs s (s.supersede.withRow account) :=
      ebbs_of_succeeds (succeeds_of_lt (Nat.lt_succ_self _)) rfl
    obtain ⟨hpart, hkept⟩ := carries_free.part h hst
    have hfused : Serves Free (do
        Async.modify fun s => s.supersede.withRow account
        if (← Async.get).worker.quiescing then return
        applyGames false) s := .bind (.modify hpart (carries_free.serves hrest hkept))
    exact hfused
  · exact hrow h (ebbs_withRow fun hr => (not_not.mp hchanged).symm.trans hr)

theorem serves_handleLoginSessionConflict (h : Lawful s ∧ Free s) :
    Serves Free handleLoginSessionConflict s := by
  unfold handleLoginSessionConflict
  apply Serves.get_bind
  split_ifs
  · exact .pure h
  · refine carries_free.bind (ebbs_modify fun _ => rfl) h fun _ t ht => ?_
    refine carries_free.bind (ebbs_setStatus _ _) ht fun _ u hu => ?_
    exact .registerSessionConflict steadfast_free .login hu

theorem serves_onPlayingState (blocked : Bool) (h : Lawful s ∧ Free s) :
    Serves Free (onPlayingState blocked) s := by
  have hregister (wasBlocked : Bool) {t : WorkerState} (ht : Lawful t ∧ Free t) : Serves Free (do
      Async.modify fun s => s.reportGames []
      setStatus .pausedOtherSession none
      if wasBlocked = false ∧ (← Async.get).worker.desiredState = .running then
        registerSessionConflict .live
      return) t := by
    refine carries_free.bind (.modify fun s => (endures_reportGames s []).toEbbs) ht
      fun _ u hu => ?_
    refine carries_free.bind (ebbs_setStatus _ _) hu fun _ v hv => .get_bind ?_
    split_ifs
    · exact .then_return (.registerSessionConflict steadfast_free .live hv)
    · exact .pure hv
  refine carries_free.bind (ebbs_awaitOk _) h fun _ t ht => .get_bind ?_
  refine carries_free.bind (ebbs_modify fun _ => rfl) ht fun _ u hu => ?_
  split_ifs
  · apply Serves.get_bind
    refine carries_free.bind (ebbs_modify fun _ => rfl) hu fun _ v hv => ?_
    split_ifs
    · refine carries_free.bind (ebbs_modify fun _ => rfl) hv fun _ w hw => ?_
      exact carries_free.bind (ebbs_setDesiredState _) hw fun _ x hx => hregister _ hx
    · exact hregister _ hv
  · exact .pure hu
  · apply Serves.get_bind
    split_ifs
    · have hcleared (s : WorkerState) : Ebbs s s.clearSessionConflictTimer.resetSessionConflict :=
        ((endures_clearSessionConflictTimer s).trans (endures_resetSessionConflict _)).toEbbs
      refine carries_free.bind (.modify hcleared) hu fun _ v hv => ?_
      refine carries_free.bind (ebbs_awaitOk _) hv fun _ w hw => ?_
      exact carries_free.serves (ebbs_of_endures (endures_applyGames false)) hw
    · exact .pure hu

theorem serves_afterDisconnect (decision : RetryDecision) (message : Option String)
    (h : Lawful s ∧ Free s) : Serves Free (do
      let s ← Async.get
      if s.worker.handledConflictLoginAttemptId = some s.worker.loginAttemptId then return
      if decision.errorClass = .sessionReplaced then
        handleLoginSessionConflict
        return
      if decision.terminal then
        handleTerminalFailure decision (message.getD "Steam disconnected permanently.")
        return
      if (← Async.get).worker.desiredState = .running then
        setStatus .reconnecting none
        scheduleReconnect decision
      else setStatus .disconnected none) s := by
  apply Serves.get_bind
  split_ifs
  · exact .pure h
  · exact .then_return (serves_handleLoginSessionConflict h)
  · exact .then_return (carries_free.serves (ebbs_handleTerminalFailure _ _) h)
  · apply Serves.get_bind
    split_ifs
    · refine carries_free.bind (ebbs_setStatus _ _) h fun _ t ht => ?_
      exact .scheduleReconnect steadfast_free decision ht
    · exact carries_free.serves (ebbs_setStatus _ _) h

theorem serves_onDisconnected (eresult : Option ℤ) (message : Option String)
    (h : Lawful s ∧ Free s) : Serves Free (onDisconnected eresult message) s := by
  refine carries_free.bind (ebbs_loseConnection _) h fun _ t ht => ?_
  refine carries_free.bind (ebbs_modify fun _ => rfl) ht fun _ u hu => ?_
  dsimp only
  by_cases hsome : eresult.isSome = true
  · rw [if_pos hsome]
    exact carries_free.bind (ebbs_awaitOk _) hu fun _ v hv => serves_afterDisconnect _ message hv
  · rw [if_neg hsome]
    exact serves_afterDisconnect _ message hu

theorem serves_onError (error : SteamFailure) (message : String) (h : Lawful s ∧ Free s) :
    Serves Free (onError error message) s := by
  refine carries_free.bind (ebbs_modify fun _ => rfl) h fun _ t ht => ?_
  refine carries_free.bind (ebbs_loseConnection _) ht fun _ u hu => .get_bind ?_
  split_ifs
  · exact .pure hu
  · exact .then_return (serves_handleLoginSessionConflict hu)
  · exact .then_return (carries_free.serves (ebbs_handleTerminalFailure _ _) hu)
  · refine carries_free.bind (ebbs_setStatus _ _) hu fun _ v hv => .get_bind ?_
    split_ifs
    · exact .scheduleReconnect steadfast_free _ hv
    · exact .pure hv

theorem serves_onClientEvent (event : ClientEvent) (g : ℕ) (h : Lawful s ∧ Free s) :
    Serves Free (onClientEvent event g) s := by
  unfold onClientEvent
  apply Serves.get_bind
  split_ifs
  · exact .pure h
  · exact .pure h
  · exact .pure h
  cases event with
  | loggedOn => exact carries_free.serves ebbs_onLoggedOn h
  | playingState blocked => exact serves_onPlayingState blocked h
  | disconnected eresult message => exact serves_onDisconnected eresult message h
  | error failure message => exact serves_onError failure message h

theorem serves_command (command : WorkerCommand) (h : Lawful s ∧ Free s) :
    Serves Free command.body s := by
  cases command with
  | start => exact carries_free.serves (ebbs_of_endures endures_startNow) h
  | stop => exact carries_free.serves ebbs_stopNow h
  | pause => exact carries_free.serves ebbs_pauseNow h
  | forceDisconnect message => exact carries_free.serves (ebbs_forceDisconnectForSafety message) h
  | markSafetyAttention message => exact carries_free.serves (ebbs_markSafetyAttention message) h
  | resume => exact carries_free.serves (ebbs_of_endures endures_resumeNow) h
  | resumeForFarming => exact carries_free.serves (ebbs_of_endures endures_resumeForFarming) h
  | updateAccount account => exact serves_updateAccountNow account h
  | applyFarmingSelection appIds =>
    exact carries_free.serves (ebbs_of_endures (endures_applyFarmingSelection appIds)) h

/-! ### Callbacks -/

theorem serves_retryLiveSessionConflict (h : Lawful s ∧ Sincere s) :
    Serves Sincere retryLiveSessionConflict s := by
  unfold retryLiveSessionConflict
  apply Serves.get_bind
  split_ifs
  · refine carries_sincere.bind (.modify endures_resetSessionConflict) h fun _ t ht => ?_
    refine carries_sincere.bind (endures_awaitOk _) ht fun _ u hu => ?_
    exact .then_return (carries_sincere.serves (endures_applyGames false) hu)
  · refine carries_sincere.bind endures_selectedGamesPayload h fun payload t ht => .get_bind ?_
    split_ifs
    · exact .pure ht
    · refine carries_sincere.bind (.modify fun s => endures_reportGames s payload) ht
        fun _ u hu => ?_
      exact .registerSessionConflict steadfast_sincere .live hu

/-- The callback checks the intent before it calls anything. -/
theorem serves_retrySessionConflict {g halts : ℕ} (resetCycle : Bool) (h : Lawful s)
    (hdated : Dated s g halts) (hcaller : s.trace.caller = .retry halts) :
    serving.Always (fun _ _ => True) (fun _ => True) (retrySessionConflict g resetCycle) s := by
  have hrest {t : WorkerState} (ht : Lawful t ∧ Sincere t) : Serves Sincere (do
      if (← Async.get).worker.sessionConflictMode = some .live then retryLiveSessionConflict
      else startNow) t := by
    apply Serves.get_bind
    split_ifs
    · exact serves_retryLiveSessionConflict ht
    · exact carries_sincere.serves endures_startNow ht
  unfold retrySessionConflict
  refine .bind (.get ?_)
  dsimp only
  split_ifs with hstale hreset
  · exact Discipline.Always.pure trivial
  all_goals
    obtain ⟨-, hlive⟩ := not_or.mp hstale
    obtain ⟨hdesired, hg⟩ := not_or.mp hlive
    have hrunning : s.worker.desiredState = .running := not_not.mp hdesired
    have hsincere : Sincere s := by
      intro halts' hcaller'
      obtain rfl := Caller.retry.inj (hcaller.symm.trans hcaller')
      exact ⟨hrunning, hdated.current (not_not.mp hg).symm hrunning⟩
  · have hcycle : (Async.modify fun s => s.restartCycle : WorkerAsync Unit).Keeps Endures :=
      .modify fun s => endures_of_view rfl
    exact (carries_sincere.bind hcycle ⟨h, hsincere⟩ fun _ t ht => hrest ht).mono
      (fun _ _ _ => trivial) fun _ _ => trivial
  · exact (hrest ⟨h, hsincere⟩).mono (fun _ _ _ => trivial) fun _ _ => trivial

/-! ## Calls beside the account operations -/

theorem direct_startNow (h : Lawful s ∧ Free s) :
    direct.Always (fun _ t => Lawful t ∧ Free t) (fun t => Lawful t ∧ Free t) startNow s := by
  refine endures_startNow.always ?_ ?_ (fun _ _ _ => trivial) h
  · intro s t hs hst
    obtain ⟨hpart, hkept⟩ := carries_free.part hs hst.toEbbs
    exact ⟨⟨hpart, hst.unarmed, fun hr => .inr (hst.lasts hr)⟩, hkept⟩
  · exact fun s t hst hs => ⟨hst.lawful hs.1, hs.2.same hst.caller⟩

theorem direct_shutdownNow (h : (Lawful s ∧ Free s) ∧ s.worker.quiescing = true) :
    direct.Always (fun _ t => (Lawful t ∧ Free t) ∧ t.worker.quiescing = true)
      (fun t => (Lawful t ∧ Free t) ∧ t.worker.quiescing = true) shutdownNow s := by
  refine ebbs_shutdownNow.always ?_ ?_ (fun _ _ _ => trivial) h
  · intro s t hs hst
    obtain ⟨hpart, hkept⟩ := carries_free.part hs.1 hst
    have hquiescing := hst.quiescing.trans hs.2
    exact ⟨⟨hpart, hst.unarmed, fun _ => .inl hquiescing⟩, hkept, hquiescing⟩
  · exact fun s t hst hs =>
      ⟨⟨hst.lawful hs.1.1, hs.1.2.same hst.caller⟩, hst.quiescing hs.2⟩

/-! ## Runs -/

def AccountJob.Dated (s : WorkerState) : AccountJob → Prop
  | .reconnect g _ halts | .sessionConflict g _ halts => Steam.Dated s g halts
  | _ => True

inductive Placed (s : WorkerState) : SerialCall → Prop where
  | start : Placed s ⟨.command .start, .command, false⟩
  | shutdown (h : s.worker.quiescing = true) : Placed s ⟨.shutdown, .command, false⟩
  | command (command : WorkerCommand) : Placed s ⟨.command command, .command, true⟩
  | event (event : ClientEvent) (g : ℕ) : Placed s ⟨.event event g, .event, true⟩
  | reconnect (halts : ℕ) (h : s.worker.quiescing = true ∨
      s.worker.desiredState = .running ∧ s.trace.halts = halts) :
      Placed s ⟨.command .start, .retry halts, true⟩
  | conflict (g : ℕ) (resetCycle : Bool) (halts : ℕ) (h : Dated s g halts) :
      Placed s ⟨.retrySessionConflict g resetCycle, .retry halts, true⟩

theorem AccountJob.Dated.succeeds {job : AccountJob} (h : job.Dated s) (hst : Succeeds s t) :
    job.Dated t := by
  cases job with
  | reconnect | sessionConflict => exact Steam.Dated.succeeds h hst
  | event | operation => trivial

theorem Placed.meanwhile {call : SerialCall} (h : Placed s call) (hst : Meanwhile s t) :
    Placed t call := by
  cases h with
  | start => exact .start
  | shutdown h => exact .shutdown (hst.quiescing h)
  | command command => exact .command command
  | event event g => exact .event event g
  | reconnect halts h =>
    refine .reconnect halts ?_
    rcases h with hquiescing | ⟨hrunning, rfl⟩
    · exact .inl (hst.quiescing hquiescing)
    · exact hst.lasts hrunning
  | conflict g resetCycle halts h => exact .conflict g resetCycle halts (h.succeeds hst.succeeds)

theorem Placed.lawfully {call : SerialCall} (h : Placed s call) (howned : call.owned = false)
    (hst : Lawfully s t) : Placed t call := by
  cases h with
  | start => exact .start
  | shutdown h => exact .shutdown (hst.quiescing h)
  | command | event | reconnect | conflict => cases howned

theorem beside_caller (s : WorkerState) (caller : Caller) :
    Meanwhile s { s with trace.caller := caller } :=
  ⟨⟨fun hs => hs.of_view rfl, ⟨le_rfl, fun _ hr => ⟨hr, rfl⟩⟩, id⟩,
    fun hu => ⟨hu.reconnect, hu.conflict⟩, fun hr => .inr ⟨hr, rfl⟩⟩

theorem meanwhile_halted (call : SerialCall) (returned : Bool) (s : WorkerState) :
    Meanwhile s (WorkerSystem.halted call returned s) := by
  unfold WorkerSystem.halted
  split
  · split_ifs with hhalts
    · have hsucceeds : Succeeds s { s with trace.halts := s.trace.halts + 1 } :=
        ⟨le_rfl, fun _ hr => absurd hr hhalts.2.2⟩
      have hst : Ebbs s { s with trace.halts := s.trace.halts + 1 } :=
        ebbs_of_succeeds hsucceeds rfl
      exact ⟨hst.lawfully fun hs => ⟨hs.logOns, hs.reports⟩, hst.unarmed,
        fun hr => absurd hr hhalts.2.2⟩
    · exact .refl s
  · exact .refl s

def retryLaws : WorkerContract where
  Inv := Lawful
  Idle _ := True
  Job job s := job.Dated s
  Call call s := Placed s call
  Calm := Lawfully
  Weak := Lawfully
  discipline call := if call.owned then serving else direct
  tail := rescheduling

theorem begins_placed {call : SerialCall} (h : Placed s call) (hs : Lawful s)
    (hrefused : s.worker.quiescing = true → call.task = .shutdown) :
    (retryLaws.discipline call).Always (fun _ _ => True) (fun _ => True) call.task.body
      { s with trace.caller := call.caller } := by
  have hlawful (caller : Caller) : Lawful { s with trace.caller := caller } := hs.of_view rfl
  have hcommand : Lawful { s with trace.caller := .command } ∧
      Free { s with trace.caller := .command } := ⟨hlawful _, fun _ hcaller => nomatch hcaller⟩
  have hevent : Lawful { s with trace.caller := .event } ∧
      Free { s with trace.caller := .event } := ⟨hlawful _, fun _ hcaller => nomatch hcaller⟩
  cases h with
  | start =>
    exact (direct_startNow hcommand).mono (fun _ _ _ => trivial)
      fun _ _ => trivial
  | shutdown h =>
    exact (direct_shutdownNow ⟨hcommand, h⟩).mono
      (fun _ _ _ => trivial) fun _ _ => trivial
  | command command =>
    exact (serves_command command hcommand).mono
      (fun _ _ _ => trivial) fun _ _ => trivial
  | event event g =>
    exact (serves_onClientEvent event g hevent).mono
      (fun _ _ _ => trivial) fun _ _ => trivial
  | reconnect halts h =>
    have hcurrent := h.resolve_left fun hquiescing => nomatch hrefused hquiescing
    have hsincere : Sincere { s with trace.caller := .retry halts } := by
      intro halts' hcaller
      obtain rfl := Caller.retry.inj hcaller
      exact hcurrent
    exact (carries_sincere.serves endures_startNow ⟨hlawful _, hsincere⟩).mono
      (fun _ _ _ => trivial) fun _ _ => trivial
  | conflict g resetCycle halts h =>
    exact serves_retrySessionConflict resetCycle (hlawful _) ⟨h.drawn, h.current⟩ rfl

theorem kept_retryLaws : retryLaws.Kept (fun _ _ => True) Meanwhile where
  weak_of_calm h := h
  inv_of_weak h hs := h.lawful hs
  job_of_weak h hjob := hjob.succeeds h.succeeds
  call_of_weak howned h hcall := hcall.lawfully howned h
  call_of_beside h hcall := hcall.meanwhile h
  idle_of_calm _ := id
  calm_of_disturbs hs h := (h.idles hs).toLawfully
  calm_caller s caller := (beside_caller s caller).toLawfully
  calm_halted call returned _ := (meanwhile_halted call returned _).toLawfully
  calm_of_tail h := h.toLawfully
  beside_of_disturbs hs h := (h.idles hs).toMeanwhile
  beside_caller := beside_caller
  beside_halted call returned _ _ := meanwhile_halted call returned _
  beside_of_guarantee := by
    intro s u call howned h
    unfold retryLaws at h
    dsimp only at h
    rw [if_neg (Bool.eq_false_iff.mp howned)] at h
    exact h
  rely_of_disturbs := by
    intro s u call hs h
    have hidles := h.idles hs
    unfold retryLaws
    dsimp only
    split_ifs
    · exact hidles
    · exact ⟨hidles.toLawfully, hidles.caller⟩
  rely_of_tail := by
    intro s u call howned h
    unfold retryLaws
    dsimp only
    rw [if_neg (Bool.eq_false_iff.mp howned)]
    exact h
  weak_of_guarantee := by
    intro s u call h
    unfold retryLaws at h
    dsimp only at h
    split_ifs at h
    · exact h
    · exact h.toLawfully
  tail_rely_of_beside h := h
  tail_allowed _ _ _ := trivial
  reschedule decision hs :=
    (arms_rescheduling.scheduleReconnect decision ⟨hs, trivial⟩).mono (fun _ _ _ => trivial)
      fun _ _ => trivial
  event _ _ _ := trivial
  timer := by
    intro s u id timer hs htimer h
    have hdated := (hs.dated id timer htimer).succeeds (h.idles hs).succeeds
    obtain ⟨retry, delayMs, halts⟩ := timer
    cases retry with
    | reconnect | sessionConflict => exact hdated
  operation _ := trivial
  call_event _ := .event _ _
  call_start _ hjob _ hdesired hg := .reconnect _ (.inr ⟨hdesired, hjob.current hg.symm hdesired⟩)
  call_retry h := .conflict _ _ _ h
  call_command _ := .command _
  call_direct _ := .start
  call_shutdown h := .shutdown h
  begins := by
    intro m call rest _ _ hrefused hs _ hcall
    refine begins_placed hcall hs fun hquiescing => ?_
    unfold WorkerSystem.isRefused WorkerSystem.worker at hrefused
    rw [hquiescing, Bool.true_and] at hrefused
    exact bne_eq_false_iff_eq.mp hrefused
  allowed := by
    intro m ok call point after rest _ _ _
    unfold retryLaws
    dsimp only
    split_ifs <;> trivial

theorem lawful_of_reachable {m : WorkerSystem} (h : workerMachine.Reachable m) :
    Lawful m.state := by
  refine (kept_retryLaws.sound h fun row status around => ⟨?_, trivial⟩).inv
  refine ⟨⟨?_, ?_, ?_, ?_, .inl rfl⟩, ?_, ?_, ?_⟩
  all_goals exact fun _ => nofun

/-- One timer is pending at most, in no state are both of the fields set, and a field that is set
points to the pending timer of its kind. -/
theorem single_timer {m : WorkerSystem} (h : workerMachine.Reachable m) :
    (∀ id id' timer timer', m.state.timers.lookup id = some timer →
      m.state.timers.lookup id' = some timer' → id = id') ∧
    (m.worker.reconnectTimer = none ∨ m.worker.sessionConflictTimer = none) ∧
    (∀ id, m.worker.reconnectTimer = some id ↔ ∃ timer g d,
      m.state.timers.lookup id = some timer ∧ timer.retry = .reconnect g d) ∧
    ∀ id, m.worker.sessionConflictTimer = some id ↔ ∃ timer g r,
      m.state.timers.lookup id = some timer ∧ timer.retry = .sessionConflict g r := by
  have htimed := (lawful_of_reachable h).timed
  refine ⟨?_, htimed.single, fun id => ⟨htimed.reconnect id, ?_⟩,
    fun id => ⟨htimed.conflict id, ?_⟩⟩
  · intro id id' timer timer' htimer htimer'
    rcases htimed.single with hnone | hnone
    · have hfield :=
        (htimed.pending id timer htimer).resolve_left fun hr => nomatch hnone.symm.trans hr
      have hfield' :=
        (htimed.pending id' timer' htimer').resolve_left fun hr => nomatch hnone.symm.trans hr
      exact Option.some.inj (hfield.symm.trans hfield')
    · have hfield :=
        (htimed.pending id timer htimer).resolve_right fun hr => nomatch hnone.symm.trans hr
      have hfield' :=
        (htimed.pending id' timer' htimer').resolve_right fun hr => nomatch hnone.symm.trans hr
      exact Option.some.inj (hfield.symm.trans hfield')
  · rintro ⟨timer, g, d, htimer, hretry⟩
    refine (htimed.pending id timer htimer).resolve_right fun hfield => ?_
    obtain ⟨timer', g', r, htimer', hretry'⟩ := htimed.conflict id hfield
    obtain rfl := Option.some.inj (htimer.symm.trans htimer')
    exact nomatch hretry.symm.trans hretry'
  · rintro ⟨timer, g, r, htimer, hretry⟩
    refine (htimed.pending id timer htimer).resolve_left fun hfield => ?_
    obtain ⟨timer', g', d, htimer', hretry'⟩ := htimed.reconnect id hfield
    obtain rfl := Option.some.inj (htimer.symm.trans htimer')
    exact nomatch hretry.symm.trans hretry'

def loginConflicts : List WorkerAction :=
  [.emit (.error (.number 34) "LoggedInElsewhere"), .takeTurn, .begin, .resume true, .resume true,
    .resume true]

theorem single_timer_loginConflicts : ∃ m, workerMachine.Reachable m ∧
    m.worker.sessionConflictTimer = some 0 ∧ m.worker.reconnectTimer = none ∧
    ∀ id timer, m.state.timers.lookup id = some timer → id = 0 := by
  have hreach : workerMachine.Reachable ((workerMachine.exec stoppedAccount
      (startOperation ++ loginConflicts)).getD stoppedAccount) :=
    Transition.Machine.reachable_exec starts_stoppedAccount (by decide +kernel)
  obtain ⟨hone, hsingle, hreconnect, hconflict⟩ := single_timer hreach
  have hfield : ((workerMachine.exec stoppedAccount
      (startOperation ++ loginConflicts)).getD stoppedAccount).worker.sessionConflictTimer =
        some 0 := by decide +kernel
  obtain ⟨timer, g, r, htimer, -⟩ := (hconflict 0).mp hfield
  refine ⟨_, hreach, hfield, ?_, fun id timer' htimer' => hone id 0 timer' timer htimer' htimer⟩
  exact hsingle.resolve_right fun hnone => nomatch hnone.symm.trans hfield

/-- What the callback of a timer calls is called before the retries that it belongs to have
ended. -/
theorem retries_current {m : WorkerSystem} (h : workerMachine.Reachable m) :
    (∀ call ∈ m.state.trace.logOns, ∀ halts, call.caller = .retry halts → call.halts = halts) ∧
      ∀ call ∈ m.state.trace.reports, ∀ halts, call.caller = .retry halts → call.halts = halts :=
  have hvouched := (lawful_of_reachable h).vouched
  ⟨hvouched.logOns, hvouched.reports⟩

theorem retries_current_reconnects : ∃ m, workerMachine.Reachable m ∧
    (m.state.trace.logOns.map fun call => (call.caller, call.halts)) =
      [(.retry 1, 1), (.command, 1)] ∧
    ∀ call ∈ m.state.trace.logOns, ∀ halts, call.caller = .retry halts → call.halts = halts := by
  have hreach : workerMachine.Reachable ((workerMachine.exec stoppedAccount
      (startOperation ++ logInHandled ++ reconnects)).getD stoppedAccount) :=
    Transition.Machine.reachable_exec starts_stoppedAccount (by decide +kernel)
  exact ⟨_, hreach, by decide +kernel, (retries_current hreach).1⟩

end SteamBee.Steam
