import SteamBee.Steam.WorkerSystem

/-! The rule for what holds in every run of a worker: what each call does from one await to the
next, and what the rest of the system may do in between. -/
namespace SteamBee.Steam
open Schedule (DesiredState)
open Transition (Pause Async Discipline)

/-- What happens to the state beside the calls: the surroundings, the manager, the client and the
timers. -/
inductive Disturbs (s : WorkerState) : WorkerState → Prop where
  | surround (around : Surroundings) : Disturbs s { s with around }
  | clearFarmingSelection (keepAwaitingFarming : Bool) :
      Disturbs s (s.clearFarmingSelection keepAwaitingFarming)
  | beginShutdown : Disturbs s s.beginShutdown
  | emit (event : ClientEvent) (client : SteamClient) (h : s.client.emits event = some client) :
      Disturbs s { s with client }
  | expire (id : TimerId) (hreconnect : s.worker.reconnectTimer ≠ some id ∨ ∃ timer g r,
        s.timers.lookup id = some timer ∧ timer.retry = .sessionConflict g r)
      (hconflict : s.worker.sessionConflictTimer ≠ some id ∨ ∃ timer g d,
        s.timers.lookup id = some timer ∧ timer.retry = .reconnect g d) :
      Disturbs s { s with timers := s.timers.erase id }
  | reconnect (id : TimerId) (h : s.worker.reconnectTimer = some id) :
      Disturbs s { s with timers := s.timers.erase id, worker.reconnectTimer := none }
  | sessionConflict (id : TimerId) (h : s.worker.sessionConflictTimer = some id) :
      Disturbs s { s with timers := s.timers.erase id, worker.sessionConflictTimer := none }

namespace WorkerSystem
variable {m t : WorkerSystem} {a : WorkerAction} {call : SerialCall}

def jobOf (timer : RetryTimer) : AccountJob :=
  match timer.retry with
  | .reconnect intentGeneration decision => .reconnect intentGeneration decision timer.halts
  | .sessionConflict intentGeneration resetCycle =>
    .sessionConflict intentGeneration resetCycle timer.halts

/-- A timer that fires has been replaced, or it leaves its job unless the worker shuts down. -/
theorem fire_cases {id : TimerId} (hn : m.fire id = some t) :
    ∃ timer state jobs, m.state.timers.lookup id = some timer ∧ Disturbs m.state state ∧
      (jobs = [] ∨ m.worker.quiescing = false ∧ jobs = [jobOf timer]) ∧
      t = { m with state, jobs := m.jobs ++ jobs } := by
  obtain ⟨timer, htimer, hn⟩ := Option.bind_eq_some_iff.mp hn
  obtain rfl := Option.some.inj hn
  obtain ⟨retry, delayMs, halts⟩ := timer
  cases retry with
  | reconnect intentGeneration decision =>
    dsimp only
    split_ifs with hfield hquiescing
    · refine ⟨_, _, [], htimer, .expire id (.inl hfield) (.inr ⟨_, _, _, htimer, rfl⟩), .inl rfl, ?_⟩
      rw [List.append_nil]
    · have hfield : m.state.worker.reconnectTimer = some id := not_not.mp hfield
      refine ⟨_, _, [], htimer, .reconnect id hfield, .inl rfl, ?_⟩
      rw [List.append_nil]
    · have hfield : m.state.worker.reconnectTimer = some id := not_not.mp hfield
      have hquiescing : m.worker.quiescing = false := Bool.eq_false_iff.mpr hquiescing
      exact ⟨_, _, _, htimer, .reconnect id hfield, .inr ⟨hquiescing, rfl⟩, rfl⟩
  | sessionConflict intentGeneration resetCycle =>
    dsimp only
    split_ifs with hfield hquiescing
    · refine ⟨_, _, [], htimer, .expire id (.inr ⟨_, _, _, htimer, rfl⟩) (.inl hfield), .inl rfl, ?_⟩
      rw [List.append_nil]
    · have hfield : m.state.worker.sessionConflictTimer = some id := not_not.mp hfield
      refine ⟨_, _, [], htimer, .sessionConflict id hfield, .inl rfl, ?_⟩
      rw [List.append_nil]
    · have hfield : m.state.worker.sessionConflictTimer = some id := not_not.mp hfield
      have hquiescing : m.worker.quiescing = false := Bool.eq_false_iff.mpr hquiescing
      exact ⟨_, _, _, htimer, .sessionConflict id hfield, .inr ⟨hquiescing, rfl⟩, rfl⟩

theorem emit_cases {event : ClientEvent} (hn : m.emit event = some t) :
    ∃ client jobs, m.state.client.emits event = some client ∧
      (jobs = [] ∨ m.worker.quiescing = false ∧ jobs = [.event event m.worker.intentGeneration]) ∧
      t = { m with state.client := client, jobs := m.jobs ++ jobs } := by
  obtain ⟨client, hclient, hn⟩ := Option.bind_eq_some_iff.mp hn
  obtain rfl := Option.some.inj hn
  dsimp only
  split_ifs with hquiescing
  · refine ⟨client, [], hclient, .inl rfl, ?_⟩
    rw [List.append_nil]
  · exact ⟨client, _, hclient, .inr ⟨Bool.eq_false_iff.mpr hquiescing, rfl⟩, rfl⟩

theorem begin_cases (hn : m.begin = some t) :
    ∃ call rest, m.running = none ∧ m.eventQueue = call :: rest ∧
      (m.isRefused call.task = true ∧
          t = (if call.owned then { m with eventQueue := rest }.settle false
            else { m with eventQueue := rest }) ∨
        m.isRefused call.task = false ∧
          t = { m with eventQueue := rest }.advance call
            { m.state with trace.caller := call.caller }
            (call.task.body { m.state with trace.caller := call.caller })) := by
  unfold begin at hn
  split at hn
  next call rest hrunning hqueue =>
    dsimp only at hn
    by_cases hrefused : ({ m with eventQueue := rest } : WorkerSystem).isRefused call.task = true
    · rw [if_pos hrefused] at hn
      exact ⟨call, rest, hrunning, hqueue, .inl ⟨hrefused, (Option.some.inj hn).symm⟩⟩
    · rw [if_neg hrefused] at hn
      exact ⟨call, rest, hrunning, hqueue,
        .inr ⟨Bool.eq_false_iff.mpr hrefused, (Option.some.inj hn).symm⟩⟩
  next => cases hn

theorem resume_cases {ok : Bool} (hn : m.resume ok = some t) :
    ∃ call point after rest, m.running = some call ∧ call.pause = .awaiting point after rest ∧
      t = m.advance call.toSerialCall call.began (after ok m.state, rest ok m.state) := by
  obtain ⟨call, hrunning, hn⟩ := Option.bind_eq_some_iff.mp hn
  split at hn
  next point after rest hpause =>
    exact ⟨call, point, after, rest, hrunning, hpause, (Option.some.inj hn).symm⟩
  next => cases hn

theorem resumeRescheduling_cases {ok : Bool} (hn : m.resumeRescheduling ok = some t) :
    ∃ point after rest, m.turn = some (.rescheduling (.awaiting point after rest)) ∧
      t = m.reschedule (after ok m.state, rest ok m.state) := by
  unfold resumeRescheduling at hn
  split at hn
  next point after rest hturn => exact ⟨point, after, rest, hturn, (Option.some.inj hn).symm⟩
  next => cases hn

/-! ## Turns -/

def owned (m : WorkerSystem) : List SerialCall :=
  (m.running.toList.map RunningCall.toSerialCall ++ m.eventQueue).filter SerialCall.owned

inductive Waits : Option AccountTurn → List SerialCall → Prop where
  | free : Waits none []
  | operating : Waits (some .operating) []
  | rescheduling (p : Pause WorkerState WorkerAwait Bool Unit) :
      Waits (some (.rescheduling p)) []
  | commanding (call : SerialCall) : Waits (some .commanding) [call]
  | serving (call : SerialCall) : Waits (some .serving) [call]
  | starting (scheduledIntentGeneration : ℕ) (decision : RetryDecision) (halts : ℕ)
      (call : SerialCall) : Waits (some (.starting scheduledIntentGeneration decision halts)) [call]

def TakesTurns (m : WorkerSystem) : Prop := Waits m.turn m.owned

theorem waits_reschedule (m : WorkerSystem)
    (p : WorkerState × Pause WorkerState WorkerAwait Bool Unit) :
    Waits (m.reschedule p).turn [] := by
  unfold reschedule
  dsimp only
  split
  · exact .rescheduling _
  · exact .free

/-- When a call is settled for which the operation waited, it waits for none. -/
theorem waits_settle (h : Waits m.turn [call]) (returned : Bool) :
    Waits (m.settle returned).turn [] := by
  unfold settle
  generalize hturn : m.turn = turn at h ⊢
  cases h with
  | commanding => exact .operating
  | serving => exact .free
  | starting =>
    dsimp only
    split_ifs
    · exact waits_reschedule m _
    · exact .free

/-- Only the state and the turn change. -/
theorem settle_same (m : WorkerSystem) (returned : Bool) :
    (m.settle returned).running = m.running ∧ (m.settle returned).eventQueue = m.eventQueue ∧
      (m.settle returned).jobs = m.jobs ∧ (m.settle returned).finished = m.finished := by
  unfold settle
  split
  · simp
  · simp
  · split_ifs <;> simp [reschedule]
  · simp

theorem owned_settle (m : WorkerSystem) (returned : Bool) :
    (m.settle returned).owned = m.owned := by
  obtain ⟨hrunning, hqueue, -, -⟩ := m.settle_same returned
  rw [owned, hrunning, hqueue, owned]

theorem waits_of_filter {queue : List SerialCall} (howned : call.owned = true)
    (h : Waits m.turn ((call :: queue).filter SerialCall.owned)) :
    queue.filter SerialCall.owned = [] ∧ Waits m.turn [call] := by
  rw [List.filter_cons_of_pos howned] at h
  have hqueue : queue.filter SerialCall.owned = [] := by
    generalize queue.filter SerialCall.owned = others at h
    generalize m.turn = turn at h
    cases h <;> rfl
  rw [hqueue] at h
  exact ⟨hqueue, h⟩

/-- A call that is over is settled. -/
theorem TakesTurns.settled {returned : Bool} (hrunning : m.running = none)
    (h : Waits m.turn ((call :: m.eventQueue).filter SerialCall.owned)) :
    (if call.owned then m.settle returned else m).TakesTurns := by
  have hm : m.owned = m.eventQueue.filter SerialCall.owned := by
    rw [owned, hrunning]
    rfl
  split_ifs with howned
  · obtain ⟨hqueue, hwaits⟩ := waits_of_filter howned h
    rw [TakesTurns, owned_settle, hm, hqueue]
    exact waits_settle hwaits returned
  · rw [List.filter_cons_of_neg howned] at h
    rw [TakesTurns, hm]
    exact h

theorem TakesTurns.advance {began : WorkerState}
    {p : WorkerState × Pause WorkerState WorkerAwait Bool Unit}
    (h : Waits m.turn ((call :: m.eventQueue).filter SerialCall.owned)) :
    (m.advance call began p).TakesTurns := by
  unfold WorkerSystem.advance
  split
  · exact settled (m := { m with
      state := _, running := none, finished := _ }) rfl h
  · exact settled (m := { m with
      state := _, running := none, finished := _ }) rfl h
  · exact h

theorem TakesTurns.runSerial (h : Waits m.turn (m.owned ++ if call.owned then [call] else [])) :
    (m.runSerial call).TakesTurns := by
  unfold WorkerSystem.runSerial
  split_ifs with hrefused howned
  · rw [if_pos howned] at h
    have hm : m.owned = [] := by
      generalize m.owned = calls at h
      generalize m.turn = turn at h
      generalize hcalls : calls ++ [call] = all at h
      cases h with
      | free | operating | rescheduling => simp at hcalls
      | commanding | serving | starting => simpa using congrArg List.length hcalls
    rw [hm] at h
    rw [TakesTurns, owned_settle, hm]
    exact waits_settle h false
  · rw [if_neg howned, List.append_nil] at h
    exact h
  · have hqueue : ({ m with eventQueue := m.eventQueue ++ [call] } : WorkerSystem).owned =
        m.owned ++ if call.owned then [call] else [] := by
      simp only [owned]
      rw [← List.append_assoc, List.filter_append, List.filter_singleton, Bool.cond_eq_ite]
    rw [TakesTurns, hqueue]
    exact h

theorem owned_of_free (h : m.TakesTurns) (hturn : m.turn = none ∨ m.turn = some .operating) :
    m.owned = [] := by
  unfold TakesTurns at h
  generalize m.owned = calls at h
  rcases hturn with hturn | hturn
  · rw [hturn] at h
    cases h
    rfl
  · rw [hturn] at h
    cases h
    rfl

theorem TakesTurns.takeTurn (h : m.TakesTurns) (hn : m.takeTurn = some t) : t.TakesTurns := by
  unfold WorkerSystem.takeTurn at hn
  split at hn
  next job rest hturn hjobs =>
    have howned := owned_of_free h (.inl hturn)
    dsimp only at hn
    split at hn
    · obtain rfl := Option.some.inj hn
      apply runSerial
      rw [if_pos rfl]
      show Waits (some .serving) (m.owned ++ _)
      rw [howned]
      exact .serving _
    · split_ifs at hn
      · obtain rfl := Option.some.inj hn
        exact h
      · obtain rfl := Option.some.inj hn
        apply runSerial
        rw [if_pos rfl]
        show Waits (some (.starting _ _ _)) (m.owned ++ _)
        rw [howned]
        exact .starting _ _ _ _
    · obtain rfl := Option.some.inj hn
      apply runSerial
      rw [if_pos rfl]
      show Waits (some .serving) (m.owned ++ _)
      rw [howned]
      exact .serving _
    · obtain rfl := Option.some.inj hn
      show Waits (some .operating) m.owned
      rw [howned]
      exact .operating
  next => cases hn

theorem TakesTurns.next (h : m.TakesTurns) (hn : workerMachine.next m a = some t) :
    t.TakesTurns := by
  cases a with
  | emit event =>
    obtain ⟨client, jobs, -, -, rfl⟩ := emit_cases hn
    exact h
  | fire id =>
    obtain ⟨timer, state, jobs, -, -, -, rfl⟩ := fire_cases hn
    exact h
  | operate =>
    obtain rfl := Option.some.inj hn
    exact h
  | takeTurn => exact h.takeTurn hn
  | command command =>
    unfold workerMachine WorkerSystem.command at hn
    dsimp only at hn
    split at hn
    next hturn =>
      obtain rfl := Option.some.inj hn
      apply runSerial
      rw [if_pos rfl]
      show Waits (some .commanding) (m.owned ++ _)
      rw [owned_of_free h (.inr hturn)]
      exact .commanding _
    next => cases hn
  | endOperation =>
    unfold workerMachine WorkerSystem.endOperation at hn
    dsimp only at hn
    split at hn
    next hturn =>
      obtain rfl := Option.some.inj hn
      show Waits none m.owned
      rw [owned_of_free h (.inr hturn)]
      exact .free
    next => cases hn
  | start =>
    obtain rfl := Option.some.inj hn
    apply runSerial
    simp only [Bool.false_eq_true, if_false, List.append_nil]
    exact h
  | begin =>
    obtain ⟨call, rest, hrunning, hqueue, hn⟩ := begin_cases hn
    have hwaits : Waits m.turn ((call :: rest).filter SerialCall.owned) := by
      unfold TakesTurns owned at h
      rw [hrunning, hqueue] at h
      exact h
    rcases hn with ⟨-, rfl⟩ | ⟨-, rfl⟩
    · have hover : TakesTurns (if call.owned then
          WorkerSystem.settle { m with eventQueue := rest } false else _) := settled hrunning hwaits
      exact hover
    · exact advance (m := { m with eventQueue := rest }) hwaits
  | resume ok =>
    obtain ⟨call, point, after, rest, hrunning, -, rfl⟩ := resume_cases hn
    unfold TakesTurns owned at h
    rw [hrunning] at h
    exact advance h
  | resumeRescheduling ok =>
    obtain ⟨point, after, rest, hturn, rfl⟩ := resumeRescheduling_cases hn
    have howned : m.owned = [] := by
      unfold TakesTurns at h
      rw [hturn] at h
      generalize m.owned = calls at h
      cases h
      rfl
    show Waits _ m.owned
    rw [howned]
    exact waits_reschedule m _
  | clearFarmingSelection keepAwaitingFarming =>
    obtain rfl := Option.some.inj hn
    exact h
  | beginShutdown =>
    obtain rfl := Option.some.inj hn
    exact h
  | shutdown =>
    unfold workerMachine at hn
    dsimp only at hn
    split_ifs at hn
    obtain rfl := Option.some.inj hn
    apply runSerial
    simp only [Bool.false_eq_true, if_false, List.append_nil]
    exact h
  | surround around =>
    obtain rfl := Option.some.inj hn
    exact h

theorem takesTurns_ofState (s : WorkerState) : (ofState s).TakesTurns := .free

theorem takesTurns_of_reachable {C : WorkerSystem → WorkerAction → Prop}
    (h : workerMachine.ReachableWhen C m) : m.TakesTurns := by
  apply h.invariant
  · rintro s ⟨row, status, around, rfl⟩
    exact takesTurns_ofState _
  · intro s a t hs _ hn
    exact hs.next hn

end WorkerSystem

/-! ## The rule -/

/-- What is said of a system. `Inv` holds in every state and `Idle` whenever nothing is run;
`Job` and `Call` are known of what waits in the two queues. `Calm` is what is done beside the
running call, `Weak` what is done at all. Each call and the rescheduling of a reconnect has its
discipline. -/
structure WorkerContract where
  Inv : WorkerState → Prop
  Idle : WorkerState → Prop
  Job : AccountJob → WorkerState → Prop
  Call : SerialCall → WorkerState → Prop
  Calm : WorkerState → WorkerState → Prop
  Weak : WorkerState → WorkerState → Prop
  discipline : SerialCall → Discipline WorkerState WorkerAwait Bool
  tail : Discipline WorkerState WorkerAwait Bool

namespace WorkerContract
variable (K : WorkerContract) {m t : WorkerSystem} {a : WorkerAction} {call : SerialCall}
  {s u : WorkerState} {C : WorkerSystem → WorkerAction → Prop}
  {Beside : WorkerState → WorkerState → Prop}

/-- What has to be shown of a contract for the runs whose steps meet `C`. -/
structure Valid (C : WorkerSystem → WorkerAction → Prop) : Prop where
  weak_of_calm : ∀ {s u}, K.Calm s u → K.Weak s u
  inv_of_weak : ∀ {s u}, K.Weak s u → K.Inv s → K.Inv u
  job_of_weak : ∀ {s u job}, K.Weak s u → K.Job job s → K.Job job u
  call_of_weak : ∀ {s u call}, K.Weak s u → K.Call call s → K.Call call u
  idle_of_calm : ∀ {s u}, K.Calm s u → K.Idle s → K.Idle u
  calm_of_disturbs : ∀ {s u}, K.Inv s → Disturbs s u → K.Calm s u
  calm_caller : ∀ s caller, K.Calm s { s with trace.caller := caller }
  calm_halted : ∀ {s} call returned, K.Idle s → K.Calm s (WorkerSystem.halted call returned s)
  calm_of_tail : ∀ {s u}, K.tail.Guarantee s u → K.Calm s u
  rely_of_disturbs : ∀ {s u call}, K.Inv s → Disturbs s u → (K.discipline call).Rely s u
  rely_of_calm : ∀ {s u call}, call.owned = false → K.Calm s u → (K.discipline call).Rely s u
  weak_of_guarantee : ∀ {s u call}, (K.discipline call).Guarantee s u → K.Weak s u
  tail_rely_of_calm : ∀ {s u}, K.Calm s u → K.tail.Rely s u
  tail_rely_of_guarantee : ∀ {s u call}, call.owned = false →
    (K.discipline call).Guarantee s u → K.tail.Rely s u
  tail_allowed : ∀ point ok s, K.tail.Allowed point ok s
  reschedule : ∀ {s} decision, K.Inv s →
    K.tail.Always (fun _ _ => True) (fun _ => True) (scheduleReconnect decision) s
  event : ∀ {s event client}, K.Inv s → s.worker.quiescing = false →
    s.client.emits event = some client →
    K.Job (.event event s.worker.intentGeneration) { s with client }
  timer : ∀ {s u id timer}, K.Inv s → s.timers.lookup id = some timer → Disturbs s u →
    K.Job (WorkerSystem.jobOf timer) u
  operation : ∀ s, K.Job .operation s
  call_event : ∀ {s event g}, K.Job (.event event g) s → K.Call ⟨.event event g, .event, true⟩ s
  call_start : ∀ {s g decision halts}, K.Inv s → K.Job (.reconnect g decision halts) s →
    s.worker.quiescing = false → s.worker.desiredState = .running →
    s.worker.intentGeneration = g → K.Call ⟨.command .start, .retry halts, true⟩ s
  call_retry : ∀ {s g resetCycle halts}, K.Job (.sessionConflict g resetCycle halts) s →
    K.Call ⟨.retrySessionConflict g resetCycle, .retry halts, true⟩ s
  call_command : ∀ {m command}, C m (.command command) →
    K.Call ⟨.command command, .command, true⟩ m.state
  call_direct : ∀ {m}, C m .start → K.Call ⟨.command .start, .command, false⟩ m.state
  call_shutdown : ∀ s, K.Call ⟨.shutdown, .command, false⟩ s
  begins : ∀ {m call rest}, C m .begin → m.eventQueue = call :: rest →
    m.isRefused call.task = false → K.Inv m.state → K.Idle m.state → K.Call call m.state →
    (K.discipline call).Always (fun _ => K.Idle) K.Idle call.task.body
      { m.state with trace.caller := call.caller }
  allowed : ∀ {m ok call point after rest}, C m (.resume ok) → m.running = some call →
    call.pause = .awaiting point after rest →
    (K.discipline call.toSerialCall).Allowed point ok m.state

/-- The same of a contract that holds the calls of an account operation, and the rescheduling of a
reconnect, to what is done while they wait: `Beside`. Only one of them is under way, so neither
another such call nor the rescheduling itself is. -/
structure Kept (C : WorkerSystem → WorkerAction → Prop)
    (Beside : WorkerState → WorkerState → Prop) : Prop where
  weak_of_calm : ∀ {s u}, K.Calm s u → K.Weak s u
  inv_of_weak : ∀ {s u}, K.Weak s u → K.Inv s → K.Inv u
  job_of_weak : ∀ {s u job}, K.Weak s u → K.Job job s → K.Job job u
  call_of_weak : ∀ {s u call}, call.owned = false → K.Weak s u → K.Call call s → K.Call call u
  call_of_beside : ∀ {s u call}, Beside s u → K.Call call s → K.Call call u
  idle_of_calm : ∀ {s u}, K.Calm s u → K.Idle s → K.Idle u
  calm_of_disturbs : ∀ {s u}, K.Inv s → Disturbs s u → K.Calm s u
  calm_caller : ∀ s caller, K.Calm s { s with trace.caller := caller }
  calm_halted : ∀ {s} call returned, K.Idle s → K.Calm s (WorkerSystem.halted call returned s)
  calm_of_tail : ∀ {s u}, K.tail.Guarantee s u → K.Calm s u
  beside_of_disturbs : ∀ {s u}, K.Inv s → Disturbs s u → Beside s u
  beside_caller : ∀ s caller, Beside s { s with trace.caller := caller }
  beside_halted : ∀ {s} call returned, call.owned = false → K.Idle s →
    Beside s (WorkerSystem.halted call returned s)
  beside_of_guarantee : ∀ {s u call}, call.owned = false →
    (K.discipline call).Guarantee s u → Beside s u
  rely_of_disturbs : ∀ {s u call}, K.Inv s → Disturbs s u → (K.discipline call).Rely s u
  rely_of_tail : ∀ {s u call}, call.owned = false → K.tail.Guarantee s u →
    (K.discipline call).Rely s u
  weak_of_guarantee : ∀ {s u call}, (K.discipline call).Guarantee s u → K.Weak s u
  tail_rely_of_beside : ∀ {s u}, Beside s u → K.tail.Rely s u
  tail_allowed : ∀ point ok s, K.tail.Allowed point ok s
  reschedule : ∀ {s} decision, K.Inv s →
    K.tail.Always (fun _ _ => True) (fun _ => True) (scheduleReconnect decision) s
  event : ∀ {s event client}, K.Inv s → s.worker.quiescing = false →
    s.client.emits event = some client →
    K.Job (.event event s.worker.intentGeneration) { s with client }
  timer : ∀ {s u id timer}, K.Inv s → s.timers.lookup id = some timer → Disturbs s u →
    K.Job (WorkerSystem.jobOf timer) u
  operation : ∀ s, K.Job .operation s
  call_event : ∀ {s event g}, K.Job (.event event g) s → K.Call ⟨.event event g, .event, true⟩ s
  call_start : ∀ {s g decision halts}, K.Inv s → K.Job (.reconnect g decision halts) s →
    s.worker.quiescing = false → s.worker.desiredState = .running →
    s.worker.intentGeneration = g → K.Call ⟨.command .start, .retry halts, true⟩ s
  call_retry : ∀ {s g resetCycle halts}, K.Job (.sessionConflict g resetCycle halts) s →
    K.Call ⟨.retrySessionConflict g resetCycle, .retry halts, true⟩ s
  call_command : ∀ {m command}, C m (.command command) →
    K.Call ⟨.command command, .command, true⟩ m.state
  call_direct : ∀ {m}, C m .start → K.Call ⟨.command .start, .command, false⟩ m.state
  call_shutdown : ∀ {s}, s.worker.quiescing = true → K.Call ⟨.shutdown, .command, false⟩ s
  begins : ∀ {m call rest}, C m .begin → m.eventQueue = call :: rest →
    m.isRefused call.task = false → K.Inv m.state → K.Idle m.state → K.Call call m.state →
    (K.discipline call).Always (fun _ => K.Idle) K.Idle call.task.body
      { m.state with trace.caller := call.caller }
  allowed : ∀ {m ok call point after rest}, C m (.resume ok) → m.running = some call →
    call.pause = .awaiting point after rest →
    (K.discipline call.toSerialCall).Allowed point ok m.state

/-- What a contract says whatever is run. -/
structure Base (m : WorkerSystem) : Prop where
  inv : K.Inv m.state
  jobs : ∀ job ∈ m.jobs, K.Job job m.state
  calls : ∀ call ∈ m.eventQueue, K.Call call m.state
  rescheduling : ∀ p, m.turn = some (.rescheduling p) →
    K.tail.Holds (fun _ _ => True) (fun _ => True) p m.state ∧
      ∃ point after rest, p = .awaiting point after rest

structure Sound (m : WorkerSystem) : Prop extends K.Base m where
  idle : m.running = none → K.Idle m.state
  running : ∀ call, m.running = some call →
    (K.discipline call.toSerialCall).Holds (fun _ => K.Idle) K.Idle call.pause m.state ∧
      ∃ point after rest, call.pause = .awaiting point after rest

variable {K}

theorem Valid.kept (hv : K.Valid C) : K.Kept C fun s u => K.Weak s u ∧ K.tail.Rely s u :=
  { hv with
    call_of_weak := fun _ hweak hcall => hv.call_of_weak hweak hcall
    call_of_beside := fun hbeside hcall => hv.call_of_weak hbeside.1 hcall
    beside_of_disturbs := fun hinv hs =>
      ⟨hv.weak_of_calm (hv.calm_of_disturbs hinv hs),
        hv.tail_rely_of_calm (hv.calm_of_disturbs hinv hs)⟩
    beside_caller := fun s caller =>
      ⟨hv.weak_of_calm (hv.calm_caller s caller), hv.tail_rely_of_calm (hv.calm_caller s caller)⟩
    beside_halted := fun call returned _ hidle =>
      ⟨hv.weak_of_calm (hv.calm_halted call returned hidle),
        hv.tail_rely_of_calm (hv.calm_halted call returned hidle)⟩
    beside_of_guarantee := fun howned hguarantee =>
      ⟨hv.weak_of_guarantee hguarantee, hv.tail_rely_of_guarantee howned hguarantee⟩
    rely_of_tail := fun howned hguarantee => hv.rely_of_calm howned (hv.calm_of_tail hguarantee)
    tail_rely_of_beside := And.right
    call_shutdown := fun _ => hv.call_shutdown _ }

theorem Base.weak (hv : K.Kept C Beside) (h : K.Base m) (hweak : K.Weak m.state u)
    (hcalls : ∀ call ∈ m.eventQueue, K.Call call m.state → K.Call call u)
    (htail : ∀ p, m.turn = some (.rescheduling p) → K.tail.Rely m.state u) :
    K.Base { m with state := u } := by
  constructor
  case inv => exact hv.inv_of_weak hweak h.inv
  case jobs => exact fun job hjob => hv.job_of_weak hweak (h.jobs job hjob)
  case calls => exact fun call hcall => hcalls call hcall (h.calls call hcall)
  case rescheduling =>
    intro p hp
    obtain ⟨hholds, point, after, rest, rfl⟩ := h.rescheduling p hp
    exact ⟨hholds.interfere (htail _ hp), point, after, rest, rfl⟩

theorem Base.beside (hv : K.Kept C Beside) (h : K.Base m) (hcalm : K.Calm m.state u)
    (hbeside : Beside m.state u) : K.Base { m with state := u } :=
  h.weak hv (hv.weak_of_calm hcalm) (fun _ _ => hv.call_of_beside hbeside)
    fun _ _ => hv.tail_rely_of_beside hbeside

theorem Sound.calm (hv : K.Kept C Beside) (h : K.Sound m) (hcalm : K.Calm m.state u)
    (hbase : K.Base { m with state := u })
    (hrely : ∀ call, m.running = some call → (K.discipline call.toSerialCall).Rely m.state u) :
    K.Sound { m with state := u } := by
  refine { hbase with idle := ?_, running := ?_ }
  · exact fun hrunning => hv.idle_of_calm hcalm (h.idle hrunning)
  · intro call hrunning
    obtain ⟨hholds, point, after, rest, hpause⟩ := h.running call hrunning
    rw [hpause] at hholds ⊢
    exact ⟨hholds.interfere (hrely call hrunning), point, after, rest, rfl⟩

theorem Sound.disturb (hv : K.Kept C Beside) (h : K.Sound m) (hs : Disturbs m.state u) :
    K.Sound { m with state := u } := by
  have hcalm := hv.calm_of_disturbs h.inv hs
  have hbase := h.toBase.beside hv hcalm (hv.beside_of_disturbs h.inv hs)
  exact h.calm hv hcalm hbase fun _ _ => hv.rely_of_disturbs h.inv hs

/-- The turn passes to something that does not run on the state. -/
theorem Sound.turn (h : K.Sound m) {turn : Option AccountTurn}
    (hturn : ∀ p, turn ≠ some (.rescheduling p)) : K.Sound { m with turn } :=
  { h with rescheduling := fun p hp => absurd hp (hturn p) }

def Unowned (m : WorkerSystem) : Prop :=
  ∀ call, m.running = some call → call.owned = false

/-- While a reconnect is rescheduled no call belongs to the operation whose turn it is. -/
theorem unowned_of_rescheduling (hturns : m.TakesTurns)
    {p : Pause WorkerState WorkerAwait Bool Unit} (hturn : m.turn = some (.rescheduling p)) :
    m.owned = [] := by
  unfold WorkerSystem.TakesTurns at hturns
  rw [hturn] at hturns
  generalize m.owned = calls at hturns
  cases hturns
  rfl

theorem owned_eq_false (howned : m.owned = [])
    (hmem : call ∈ m.running.toList.map RunningCall.toSerialCall ++ m.eventQueue) :
    call.owned = false := by
  by_contra h
  have hcall : call ∈ m.owned :=
    List.mem_filter.mpr ⟨hmem, Bool.of_not_eq_false h⟩
  rw [howned] at hcall
  cases hcall

theorem unowned_of_filter {calls : List SerialCall}
    (hcalls : calls.filter SerialCall.owned = []) (hmem : call ∈ calls) : call.owned = false :=
  Bool.eq_false_iff.mpr (List.filter_eq_nil_iff.mp hcalls call hmem)

theorem unowned_of_owned (howned : m.owned = []) : Unowned m := by
  intro call hrunning
  apply owned_eq_false howned
  rw [hrunning]
  exact List.mem_append_left _ (List.mem_singleton_self _)

theorem Sound.reschedule (hv : K.Kept C Beside) (h : K.Sound m) (howned : m.owned = [])
    {p : WorkerState × Pause WorkerState WorkerAwait Bool Unit}
    (hguarantee : K.tail.Guarantee m.state p.1)
    (hholds : K.tail.Holds (fun _ _ => True) (fun _ => True) p.2 p.1) :
    K.Sound (m.reschedule p) := by
  have hcalm := hv.calm_of_tail hguarantee
  have hfree : K.Sound { m with turn := none } := h.turn fun p hp => nomatch hp
  have hweak := hv.weak_of_calm hcalm
  have hbase := hfree.toBase.weak hv hweak
    (fun call hcall => hv.call_of_weak
      (owned_eq_false howned (List.mem_append_right _ hcall)) hweak) fun p hp => nomatch hp
  have hnext := hfree.calm hv hcalm hbase fun call hcall =>
    hv.rely_of_tail (unowned_of_owned howned call hcall) hguarantee
  refine { hnext with rescheduling := ?_ }
  intro q hq
  unfold WorkerSystem.reschedule at hq ⊢
  dsimp only at hq ⊢
  split at hq
  next point after rest hp =>
    obtain rfl := AccountTurn.rescheduling.inj (Option.some.inj hq)
    rw [hp] at hholds
    exact ⟨hholds, point, after, rest, rfl⟩
  next => cases hq

theorem Sound.settle (hv : K.Kept C Beside) (h : K.Sound m) (howned : m.owned = [])
    (returned : Bool) : K.Sound (m.settle returned) := by
  unfold WorkerSystem.settle
  split
  · exact h.turn fun p hp => nomatch hp
  · exact h.turn fun p hp => nomatch hp
  · split_ifs
    · exact h.reschedule hv howned (hv.reschedule _ h.inv).1 (hv.reschedule _ h.inv).2
    · exact h.turn fun p hp => nomatch hp
  · exact h

theorem Sound.runSerial (hv : K.Kept C Beside) (h : K.Sound m)
    (hwaits : call.owned = true → m.owned = []) (hcall : K.Call call m.state) :
    K.Sound (m.runSerial call) := by
  unfold WorkerSystem.runSerial
  split_ifs with hrefused howned
  · exact h.settle hv (hwaits howned) false
  · exact h
  · refine { h with calls := ?_ }
    intro other hother
    rcases List.mem_append.mp hother with hother | hother
    · exact h.calls other hother
    · rw [List.mem_singleton.mp hother]
      exact hcall

theorem Base.finish (hv : K.Kept C Beside) (h : K.Base m) (hidle : K.Idle m.state)
    (hturn : ∀ p, m.turn = some (.rescheduling p) → call.owned = false)
    (hothers : call.owned = true → m.eventQueue.filter SerialCall.owned = [])
    (began : WorkerState) (returned : Bool) : K.Sound (m.finish call began returned) := by
  have hcalm := hv.calm_halted call returned hidle
  have hbase : K.Base { m with state := WorkerSystem.halted call returned m.state } := by
    refine h.weak hv (hv.weak_of_calm hcalm) ?_ ?_
    · intro other hother hcall
      by_cases howned : call.owned = true
      · exact hv.call_of_weak (unowned_of_filter (hothers howned) hother)
          (hv.weak_of_calm hcalm) hcall
      · exact hv.call_of_beside
          (hv.beside_halted call returned (Bool.eq_false_iff.mpr howned) hidle) hcall
    · exact fun p hp => hv.tail_rely_of_beside (hv.beside_halted call returned (hturn p hp) hidle)
  have hover : K.Sound { m with
      state := WorkerSystem.halted call returned m.state
      running := none
      finished := ⟨call, began, m.state, returned⟩ :: m.finished } := by
    refine { hbase with idle := ?_, running := ?_ }
    · exact fun _ => hv.idle_of_calm hcalm hidle
    · exact fun _ hrunning => nomatch hrunning
  unfold WorkerSystem.finish
  dsimp only
  split_ifs with howned
  · exact hover.settle hv (hothers howned) returned
  · exact hover

theorem Base.advance (hv : K.Kept C Beside) (h : K.Base m)
    (hturn : ∀ p, m.turn = some (.rescheduling p) → call.owned = false)
    (hothers : call.owned = true → m.eventQueue.filter SerialCall.owned = []) {began : WorkerState}
    {p : WorkerState × Pause WorkerState WorkerAwait Bool Unit}
    (hguarantee : (K.discipline call).Guarantee m.state p.1)
    (hholds : (K.discipline call).Holds (fun _ => K.Idle) K.Idle p.2 p.1) :
    K.Sound (m.advance call began p) := by
  have hbase : K.Base { m with state := p.1 } := by
    refine h.weak hv (hv.weak_of_guarantee hguarantee) ?_ ?_
    · intro other hother hcall
      by_cases howned : call.owned = true
      · exact hv.call_of_weak (unowned_of_filter (hothers howned) hother)
          (hv.weak_of_guarantee hguarantee) hcall
      · exact hv.call_of_beside
          (hv.beside_of_guarantee (Bool.eq_false_iff.mpr howned) hguarantee) hcall
    · exact fun q hq => hv.tail_rely_of_beside (hv.beside_of_guarantee (hturn q hq) hguarantee)
  unfold WorkerSystem.advance
  split
  next hp =>
    rw [hp] at hholds
    exact hbase.finish hv hholds hturn hothers began true
  next hp =>
    rw [hp] at hholds
    exact hbase.finish hv hholds hturn hothers began false
  next point after rest hp =>
    rw [hp] at hholds
    refine { hbase with idle := ?_, running := ?_ }
    · exact fun hrunning => nomatch hrunning
    · intro other hother
      obtain rfl := Option.some.inj hother
      exact ⟨hholds, point, after, rest, rfl⟩

theorem Sound.begins (hv : K.Kept C Beside) (h : K.Sound m) (hturns : m.TakesTurns)
    (hc : C m .begin) (hn : m.begin = some t) : K.Sound t := by
  obtain ⟨call, rest, hrunning, hqueue, hn⟩ := WorkerSystem.begin_cases hn
  have hcall := h.calls call (by rw [hqueue]; exact List.mem_cons_self)
  have hrest : K.Sound { m with eventQueue := rest } :=
    { h with calls := fun other hother =>
        h.calls other (by rw [hqueue]; exact List.mem_cons_of_mem _ hother) }
  have hothers : call.owned = true → rest.filter SerialCall.owned = [] := by
    intro howned
    unfold WorkerSystem.TakesTurns WorkerSystem.owned at hturns
    rw [hrunning, hqueue] at hturns
    exact (WorkerSystem.waits_of_filter howned hturns).1
  rcases hn with ⟨-, rfl⟩ | ⟨hrefused, rfl⟩
  · split_ifs with howned
    · refine hrest.settle hv ?_ false
      show (m.running.toList.map RunningCall.toSerialCall ++ rest).filter SerialCall.owned = []
      rw [hrunning]
      exact hothers howned
    · exact hrest
  · have halways := hv.begins hc hqueue hrefused h.inv (h.idle hrunning) hcall
    have hbase := hrest.toBase.beside hv (hv.calm_caller m.state call.caller)
      (hv.beside_caller m.state call.caller)
    refine hbase.advance (m := { m with
      eventQueue := rest, state.trace.caller := call.caller }) hv ?_ hothers halways.1 halways.2
    intro p hp
    apply owned_eq_false (unowned_of_rescheduling hturns hp)
    rw [hqueue]
    exact List.mem_append_right _ List.mem_cons_self

theorem Sound.takeTurn (hv : K.Kept C Beside) (h : K.Sound m) (hturns : m.TakesTurns)
    (hn : m.takeTurn = some t) : K.Sound t := by
  unfold WorkerSystem.takeTurn at hn
  split at hn
  next job rest hturn hjobs =>
    have howned := WorkerSystem.owned_of_free hturns (.inl hturn)
    have hjob := h.jobs job (by rw [hjobs]; exact List.mem_cons_self)
    have hrest : K.Sound { m with jobs := rest } :=
      { h with jobs := fun other hother =>
          h.jobs other (by rw [hjobs]; exact List.mem_cons_of_mem _ hother) }
    dsimp only at hn
    split at hn
    next event g =>
      obtain rfl := Option.some.inj hn
      have hserving : K.Sound { m with jobs := rest, turn := some .serving } :=
        hrest.turn fun p hp => nomatch hp
      exact hserving.runSerial hv (fun _ => howned) (hv.call_event hjob)
    next g decision halts =>
      split_ifs at hn with hstale
      · obtain rfl := Option.some.inj hn
        exact hrest
      · obtain rfl := Option.some.inj hn
        obtain ⟨hquiescing, hdesired, hg⟩ := not_or.mp hstale |>.imp id not_or.mp
        have hstarting : K.Sound { m with
            jobs := rest, turn := some (.starting g decision halts) } :=
          hrest.turn fun p hp => nomatch hp
        refine hstarting.runSerial hv (fun _ => howned) ?_
        exact hv.call_start h.inv hjob (Bool.eq_false_iff.mpr hquiescing) (not_not.mp hdesired)
          (not_not.mp hg)
    next g resetCycle halts =>
      obtain rfl := Option.some.inj hn
      have hserving : K.Sound { m with jobs := rest, turn := some .serving } :=
        hrest.turn fun p hp => nomatch hp
      exact hserving.runSerial hv (fun _ => howned) (hv.call_retry hjob)
    next =>
      obtain rfl := Option.some.inj hn
      exact hrest.turn fun p hp => nomatch hp
  next => cases hn

theorem Sound.push (h : K.Sound m) {jobs : List AccountJob}
    (hjobs : ∀ job ∈ jobs, K.Job job m.state) : K.Sound { m with jobs := m.jobs ++ jobs } := by
  refine { h with jobs := ?_ }
  intro job hjob
  rcases List.mem_append.mp hjob with hjob | hjob
  · exact h.jobs job hjob
  · exact hjobs job hjob

/-- A step that meets the condition keeps what a contract says. -/
theorem Sound.step (hv : K.Kept C Beside) (h : K.Sound m) (hturns : m.TakesTurns) (hc : C m a)
    (hn : workerMachine.next m a = some t) : K.Sound t := by
  cases a with
  | emit event =>
    obtain ⟨client, jobs, hclient, hjobs, rfl⟩ := WorkerSystem.emit_cases hn
    apply (h.disturb hv (.emit event client hclient)).push
    rcases hjobs with rfl | ⟨hquiescing, rfl⟩
    · exact fun job hjob => nomatch hjob
    · intro job hjob
      rw [List.mem_singleton.mp hjob]
      exact hv.event h.inv hquiescing hclient
  | fire id =>
    obtain ⟨timer, state, jobs, htimer, hstate, hjobs, rfl⟩ := WorkerSystem.fire_cases hn
    apply (h.disturb hv hstate).push
    rcases hjobs with rfl | ⟨-, rfl⟩
    · exact fun job hjob => nomatch hjob
    · intro job hjob
      rw [List.mem_singleton.mp hjob]
      exact hv.timer h.inv htimer hstate
  | operate =>
    obtain rfl := Option.some.inj hn
    apply h.push
    intro job hjob
    rw [List.mem_singleton.mp hjob]
    exact hv.operation m.state
  | takeTurn => exact h.takeTurn hv hturns hn
  | command command =>
    unfold workerMachine WorkerSystem.command at hn
    dsimp only at hn
    split at hn
    next hturn =>
      obtain rfl := Option.some.inj hn
      have howned := WorkerSystem.owned_of_free hturns (.inr hturn)
      have hcall := hv.call_command hc
      have hcommanding : K.Sound { m with turn := some .commanding } :=
        h.turn fun p hp => nomatch hp
      exact hcommanding.runSerial hv (fun _ => howned) hcall
    next => cases hn
  | endOperation =>
    unfold workerMachine WorkerSystem.endOperation at hn
    dsimp only at hn
    split at hn
    · obtain rfl := Option.some.inj hn
      exact h.turn fun p hp => nomatch hp
    · cases hn
  | start =>
    obtain rfl := Option.some.inj hn
    exact h.runSerial hv (fun howned => nomatch howned) (hv.call_direct hc)
  | begin => exact h.begins hv hturns hc hn
  | resume ok =>
    obtain ⟨call, point, after, rest, hrunning, hpause, rfl⟩ := WorkerSystem.resume_cases hn
    have hholds := (h.running call hrunning).1
    rw [hpause] at hholds
    obtain ⟨hguarantee, hrest⟩ := hholds.2 m.state ((K.discipline _).rely_refl _) ok
      (hv.allowed hc hrunning hpause)
    refine h.toBase.advance hv ?_ ?_ hguarantee hrest
    · intro p hp
      exact unowned_of_owned (unowned_of_rescheduling hturns hp) call hrunning
    · intro howned
      unfold WorkerSystem.TakesTurns WorkerSystem.owned at hturns
      rw [hrunning] at hturns
      exact (WorkerSystem.waits_of_filter howned hturns).1
  | resumeRescheduling ok =>
    obtain ⟨point, after, rest, hturn, rfl⟩ := WorkerSystem.resumeRescheduling_cases hn
    have hholds := (h.rescheduling _ hturn).1
    obtain ⟨hguarantee, hrest⟩ := hholds.2 m.state (K.tail.rely_refl _) ok
      (hv.tail_allowed point ok m.state)
    exact h.reschedule hv (unowned_of_rescheduling hturns hturn) hguarantee hrest
  | clearFarmingSelection keepAwaitingFarming =>
    obtain rfl := Option.some.inj hn
    exact h.disturb hv (.clearFarmingSelection keepAwaitingFarming)
  | beginShutdown =>
    obtain rfl := Option.some.inj hn
    exact h.disturb hv .beginShutdown
  | shutdown =>
    unfold workerMachine at hn
    dsimp only at hn
    split_ifs at hn with hquiescing
    obtain rfl := Option.some.inj hn
    exact h.runSerial hv (fun howned => nomatch howned) (hv.call_shutdown hquiescing)
  | surround around =>
    obtain rfl := Option.some.inj hn
    exact h.disturb hv (.surround around)

theorem sound_ofState (hinv : K.Inv s) (hidle : K.Idle s) : K.Sound (.ofState s) where
  inv := hinv
  jobs _ hjob := nomatch hjob
  calls _ hcall := nomatch hcall
  rescheduling _ hp := nomatch hp
  idle _ := hidle
  running _ hrunning := nomatch hrunning

/-- What a contract says holds in every run whose steps meet the condition. -/
theorem Kept.sound (hv : K.Kept C Beside) (h : workerMachine.ReachableWhen C m)
    (hstarts : ∀ row status around, K.Inv (.ofRow row status around) ∧
      K.Idle (.ofRow row status around)) : K.Sound m := by
  apply h.invariant_of
  · rintro s ⟨row, status, around, rfl⟩
    exact sound_ofState (hstarts row status around).1 (hstarts row status around).2
  · intro s a t hs hsound hc hn
    exact hsound.step hv (WorkerSystem.takesTurns_of_reachable hs) hc hn

theorem Sound.next (hv : K.Valid C) (h : K.Sound m) (hturns : m.TakesTurns) (hc : C m a)
    (hn : workerMachine.next m a = some t) : K.Sound t := h.step hv.kept hturns hc hn

theorem Valid.sound (hv : K.Valid C) (h : workerMachine.ReachableWhen C m)
    (hstarts : ∀ row status around, K.Inv (.ofRow row status around) ∧
      K.Idle (.ofRow row status around)) : K.Sound m := hv.kept.sound h hstarts

end WorkerContract
end SteamBee.Steam
