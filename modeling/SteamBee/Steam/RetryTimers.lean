import SteamBee.Steam.WorkerFrames

/-! The timers for the retries of a worker, the record of what their callbacks call, and what the
parts of the handlers do to both. -/
namespace SteamBee.Steam
open Schedule (DesiredState)
open Transition (Async Discipline)

variable {s t u : WorkerState} {α : Type}

/-! ## What holds of the timers -/

/-- The pending timers are those that the fields of the worker point to; one of the two fields is
empty. -/
structure Timed (s : WorkerState) : Prop where
  fresh : ∀ id timer, s.timers.lookup id = some timer → id < s.drawn
  reconnect : ∀ id, s.worker.reconnectTimer = some id →
    ∃ timer g d, s.timers.lookup id = some timer ∧ timer.retry = .reconnect g d
  conflict : ∀ id, s.worker.sessionConflictTimer = some id →
    ∃ timer g r, s.timers.lookup id = some timer ∧ timer.retry = .sessionConflict g r
  pending : ∀ id timer, s.timers.lookup id = some timer →
    s.worker.reconnectTimer = some id ∨ s.worker.sessionConflictTimer = some id
  single : s.worker.reconnectTimer = none ∨ s.worker.sessionConflictTimer = none

structure Unarmed (s : WorkerState) : Prop where
  reconnect : s.worker.reconnectTimer = none
  conflict : s.worker.sessionConflictTimer = none

def Retry.intentGeneration : Retry → ℕ
  | .reconnect g _ | .sessionConflict g _ => g

/-- Nothing has ended the retries since `halts`, as long as the intent is that of `g`. -/
structure Dated (s : WorkerState) (g halts : ℕ) : Prop where
  drawn : g ≤ s.worker.intentGeneration
  current : g = s.worker.intentGeneration → s.worker.desiredState = .running →
    s.trace.halts = halts

/-- What a callback has called was called before anything ended the retries. -/
structure Vouched (s : WorkerState) : Prop where
  logOns : ∀ call ∈ s.trace.logOns, ∀ halts, call.caller = .retry halts → call.halts = halts
  reports : ∀ call ∈ s.trace.reports, ∀ halts, call.caller = .retry halts → call.halts = halts

structure Lawful (s : WorkerState) : Prop where
  timed : Timed s
  dated : ∀ id timer, s.timers.lookup id = some timer →
    Dated s timer.retry.intentGeneration timer.halts
  vouched : Vouched s

def Free (s : WorkerState) : Prop := ∀ halts, s.trace.caller ≠ .retry halts

/-- A callback runs while nothing has ended the retries. -/
def Sincere (s : WorkerState) : Prop :=
  ∀ halts, s.trace.caller = .retry halts →
    s.worker.desiredState = .running ∧ s.trace.halts = halts

theorem Timed.empty_of_unarmed (h : Timed s) (hu : Unarmed s) (id : TimerId) :
    s.timers.lookup id = none := by
  rw [Option.eq_none_iff_forall_not_mem]
  intro timer htimer
  rcases h.pending id timer htimer with hfield | hfield
  · rw [hu.reconnect] at hfield
    cases hfield
  · rw [hu.conflict] at hfield
    cases hfield

/-- The fields do not point to one timer. -/
theorem Timed.distinct (h : Timed s) {id : TimerId} (hr : s.worker.reconnectTimer = some id) :
    s.worker.sessionConflictTimer = none :=
  h.single.resolve_left fun hnone => nomatch hnone.symm.trans hr

/-! ## What a step may do -/

/-- Within an intent a running worker has been running, and nothing has ended the retries. -/
structure Succeeds (s t : WorkerState) : Prop where
  grows : s.worker.intentGeneration ≤ t.worker.intentGeneration
  current : t.worker.intentGeneration = s.worker.intentGeneration →
    t.worker.desiredState = .running →
      s.worker.desiredState = .running ∧ t.trace.halts = s.trace.halts

theorem Succeeds.refl (s : WorkerState) : Succeeds s s := ⟨le_rfl, fun _ hr => ⟨hr, rfl⟩⟩

theorem Succeeds.trans (h : Succeeds s t) (h' : Succeeds t u) : Succeeds s u := by
  refine ⟨h.grows.trans h'.grows, fun hg hr => ?_⟩
  have hgrows := h.grows
  have hgrows' := h'.grows
  obtain ⟨hrunning, hhalts'⟩ := h'.current (by omega) hr
  obtain ⟨hbefore, hhalts⟩ := h.current (by omega) hrunning
  exact ⟨hbefore, hhalts'.trans hhalts⟩

theorem Dated.succeeds {g halts : ℕ} (h : Dated s g halts) (hst : Succeeds s t) :
    Dated t g halts := by
  have hgrows := hst.grows
  have hdrawn := h.drawn
  refine ⟨by omega, fun hg hr => ?_⟩
  obtain ⟨hrunning, hhalts⟩ := hst.current (by omega) hr
  rw [hhalts]
  exact h.current (by omega) hrunning

/-- A part of a handler that arms no timer. -/
structure Ebbs (s t : WorkerState) : Prop where
  caller : t.trace.caller = s.trace.caller
  quiescing : t.worker.quiescing = s.worker.quiescing
  succeeds : Succeeds s t
  timed : Timed s → Timed t
  unarmed : Unarmed s → Unarmed t
  timers : ∀ id timer, t.timers.lookup id = some timer → s.timers.lookup id = some timer
  vouched : Free s → Vouched s → Vouched t

/-- The part leaves a running worker running, and what it calls a callback may call. -/
structure Endures (s t : WorkerState) : Prop extends Ebbs s t where
  lasts : s.worker.desiredState = .running →
    t.worker.desiredState = .running ∧ t.trace.halts = s.trace.halts
  sincere : Sincere s → Vouched s → Vouched t

theorem Free.same (h : Free s) (hcaller : t.trace.caller = s.trace.caller) : Free t := by
  unfold Free
  rw [hcaller]
  exact h

theorem Free.sincere (h : Free s) : Sincere s := fun halts hcaller => absurd hcaller (h halts)

theorem Sincere.endures (h : Sincere s) (hst : Endures s t) : Sincere t := by
  intro halts hcaller
  rw [hst.caller] at hcaller
  obtain ⟨hrunning, hhalts⟩ := h halts hcaller
  obtain ⟨hrunning', hhalts'⟩ := hst.lasts hrunning
  exact ⟨hrunning', hhalts'.trans hhalts⟩

theorem Ebbs.refl (s : WorkerState) : Ebbs s s :=
  ⟨rfl, rfl, .refl s, id, id, fun _ _ => id, fun _ => id⟩

theorem Ebbs.trans (h : Ebbs s t) (h' : Ebbs t u) : Ebbs s u where
  caller := h'.caller.trans h.caller
  quiescing := h'.quiescing.trans h.quiescing
  succeeds := h.succeeds.trans h'.succeeds
  timed hs := h'.timed (h.timed hs)
  unarmed hs := h'.unarmed (h.unarmed hs)
  timers id timer htimer := h.timers id timer (h'.timers id timer htimer)
  vouched hfree hs := h'.vouched (hfree.same h.caller) (h.vouched hfree hs)

theorem Endures.refl (s : WorkerState) : Endures s s :=
  ⟨.refl s, fun hr => ⟨hr, rfl⟩, fun _ => id⟩

theorem Endures.trans (h : Endures s t) (h' : Endures t u) : Endures s u where
  toEbbs := h.toEbbs.trans h'.toEbbs
  lasts hr := by
    obtain ⟨hrunning, hhalts⟩ := h.lasts hr
    obtain ⟨hrunning', hhalts'⟩ := h'.lasts hrunning
    exact ⟨hrunning', hhalts'.trans hhalts⟩
  sincere hsincere hs := h'.sincere (hsincere.endures h) (h.sincere hsincere hs)

instance : Std.Refl Ebbs := ⟨Ebbs.refl⟩

instance : IsTrans WorkerState Ebbs := ⟨fun _ _ _ => Ebbs.trans⟩

instance : Std.Refl Endures := ⟨Endures.refl⟩

instance : IsTrans WorkerState Endures := ⟨fun _ _ _ => Endures.trans⟩

theorem ebbs_of_endures {x : WorkerAsync α} (hx : x.Keeps Endures) : x.Keeps Ebbs :=
  hx.mono fun _ _ => Endures.toEbbs

/-! ### The parts -/

structure RetryView where
  desiredState : DesiredState
  intentGeneration : ℕ
  quiescing : Bool
  reconnectTimer : Option TimerId
  sessionConflictTimer : Option TimerId
  timers : Table TimerId RetryTimer
  drawn : ℕ
  caller : Caller
  halts : ℕ
  logOns : List LogOnCall
  reports : List GamesReport

def WorkerState.retryView (s : WorkerState) : RetryView :=
  ⟨s.worker.desiredState, s.worker.intentGeneration, s.worker.quiescing, s.worker.reconnectTimer,
    s.worker.sessionConflictTimer, s.timers, s.drawn, s.trace.caller, s.trace.halts,
    s.trace.logOns, s.trace.reports⟩

section View
variable (h : t.retryView = s.retryView)
include h

theorem timed_of_view (hs : Timed s) : Timed t := by
  have hreconnect : t.worker.reconnectTimer = _ := congrArg RetryView.reconnectTimer h
  have hconflict : t.worker.sessionConflictTimer = _ := congrArg RetryView.sessionConflictTimer h
  have htimers : t.timers = _ := congrArg RetryView.timers h
  have hdrawn : t.drawn = _ := congrArg RetryView.drawn h
  constructor
  case fresh =>
    rw [htimers, hdrawn]
    exact hs.fresh
  case reconnect =>
    rw [htimers, hreconnect]
    exact hs.reconnect
  case conflict =>
    rw [htimers, hconflict]
    exact hs.conflict
  case pending =>
    rw [htimers, hreconnect, hconflict]
    exact hs.pending
  case single =>
    rw [hreconnect, hconflict]
    exact hs.single

theorem unarmed_of_view (hs : Unarmed s) : Unarmed t :=
  ⟨(congrArg RetryView.reconnectTimer h).trans hs.reconnect,
    (congrArg RetryView.sessionConflictTimer h).trans hs.conflict⟩

theorem vouched_of_view (hs : Vouched s) : Vouched t := by
  have hlogOns : t.trace.logOns = _ := congrArg RetryView.logOns h
  have hreports : t.trace.reports = _ := congrArg RetryView.reports h
  constructor
  · rw [hlogOns]
    exact hs.logOns
  · rw [hreports]
    exact hs.reports

/-- A part that leaves all of it alone. -/
theorem endures_of_view : Endures s t := by
  have hdesired : t.worker.desiredState = _ := congrArg RetryView.desiredState h
  have hgeneration : t.worker.intentGeneration = _ := congrArg RetryView.intentGeneration h
  have htimers : t.timers = _ := congrArg RetryView.timers h
  have hhalts : t.trace.halts = _ := congrArg RetryView.halts h
  constructor
  case toEbbs =>
    constructor
    case caller => exact congrArg RetryView.caller h
    case quiescing => exact congrArg RetryView.quiescing h
    case succeeds => exact ⟨hgeneration.ge, fun _ hr => ⟨hdesired.symm.trans hr, hhalts⟩⟩
    case timed => exact timed_of_view h
    case unarmed => exact unarmed_of_view h
    case timers =>
      rw [htimers]
      exact fun _ _ => id
    case vouched => exact fun _ => vouched_of_view h
  case lasts => exact fun hr => ⟨hdesired.trans hr, hhalts⟩
  case sincere => exact fun _ => vouched_of_view h

end View

/-- Timers that go away. -/
theorem endures_of_timed (hview : { t with
      worker.reconnectTimer := s.worker.reconnectTimer
      worker.sessionConflictTimer := s.worker.sessionConflictTimer
      timers := s.timers }.retryView = s.retryView)
    (htimed : Timed s → Timed t) (hunarmed : Unarmed s → Unarmed t)
    (htimers : ∀ id timer, t.timers.lookup id = some timer → s.timers.lookup id = some timer) :
    Endures s t := by
  have h := endures_of_view hview
  constructor
  case toEbbs =>
    constructor
    case caller => exact h.caller
    case quiescing => exact h.quiescing
    case succeeds => exact ⟨h.succeeds.grows, h.succeeds.current⟩
    case timed => exact htimed
    case unarmed => exact hunarmed
    case timers => exact htimers
    case vouched =>
      exact fun hfree hs => ⟨(h.vouched hfree hs).logOns, (h.vouched hfree hs).reports⟩
  case lasts => exact h.lasts
  case sincere =>
    exact fun hsincere hs => ⟨(h.sincere hsincere hs).logOns, (h.sincere hsincere hs).reports⟩

structure Drops (s t : WorkerState) (id : TimerId) : Prop where
  timers : t.timers = s.timers.erase id
  drawn : t.drawn = s.drawn
  reconnect : ∀ other, t.worker.reconnectTimer = some other ↔
    s.worker.reconnectTimer = some other ∧ other ≠ id
  conflict : ∀ other, t.worker.sessionConflictTimer = some other ↔
    s.worker.sessionConflictTimer = some other ∧ other ≠ id

theorem Drops.lookup {id other : TimerId} {timer : RetryTimer} (h : Drops s t id) :
    t.timers.lookup other = some timer ↔ s.timers.lookup other = some timer ∧ other ≠ id := by
  rw [h.timers, Table.lookup_erase_eq]
  split_ifs with heq
  · simp [heq]
  · simp [heq]

theorem Drops.reconnect_none {id : TimerId} (h : Drops s t id)
    (hnone : s.worker.reconnectTimer = none) : t.worker.reconnectTimer = none := by
  rw [Option.eq_none_iff_forall_not_mem]
  intro other hother
  rw [((h.reconnect other).mp hother).1] at hnone
  cases hnone

theorem Drops.conflict_none {id : TimerId} (h : Drops s t id)
    (hnone : s.worker.sessionConflictTimer = none) : t.worker.sessionConflictTimer = none := by
  rw [Option.eq_none_iff_forall_not_mem]
  intro other hother
  rw [((h.conflict other).mp hother).1] at hnone
  cases hnone

theorem Drops.timed {id : TimerId} (h : Drops s t id) (hs : Timed s) : Timed t := by
  constructor
  case fresh =>
    intro other timer htimer
    rw [h.drawn]
    exact hs.fresh other timer (h.lookup.mp htimer).1
  case reconnect =>
    intro other hother
    obtain ⟨hfield, hne⟩ := (h.reconnect other).mp hother
    obtain ⟨timer, g, d, htimer, hretry⟩ := hs.reconnect other hfield
    exact ⟨timer, g, d, h.lookup.mpr ⟨htimer, hne⟩, hretry⟩
  case conflict =>
    intro other hother
    obtain ⟨hfield, hne⟩ := (h.conflict other).mp hother
    obtain ⟨timer, g, r, htimer, hretry⟩ := hs.conflict other hfield
    exact ⟨timer, g, r, h.lookup.mpr ⟨htimer, hne⟩, hretry⟩
  case pending =>
    intro other timer htimer
    obtain ⟨htimer, hne⟩ := h.lookup.mp htimer
    rcases hs.pending other timer htimer with hfield | hfield
    · exact .inl ((h.reconnect other).mpr ⟨hfield, hne⟩)
    · exact .inr ((h.conflict other).mpr ⟨hfield, hne⟩)
  case single => exact hs.single.imp h.reconnect_none h.conflict_none

theorem Drops.unarmed {id : TimerId} (h : Drops s t id) (hs : Unarmed s) : Unarmed t :=
  ⟨h.reconnect_none hs.reconnect, h.conflict_none hs.conflict⟩

/-! ### The timers are cleared -/

theorem drops_reconnect (hs : Timed s) {id : TimerId} (hfield : s.worker.reconnectTimer = some id) :
    Drops s { s with timers := s.timers.erase id, worker.reconnectTimer := none } id where
  timers := rfl
  drawn := rfl
  reconnect other := by simp [hfield, eq_comm]
  conflict other := by simp [hs.distinct hfield]

theorem drops_sessionConflict (hs : Timed s) {id : TimerId}
    (hfield : s.worker.sessionConflictTimer = some id) :
    Drops s { s with timers := s.timers.erase id, worker.sessionConflictTimer := none } id where
  timers := rfl
  drawn := rfl
  reconnect other := by
    have hnone : s.worker.reconnectTimer = none :=
      hs.single.resolve_right fun hnone => nomatch hnone.symm.trans hfield
    simp [hnone]
  conflict other := by simp [hfield, eq_comm]

/-- A timer that the fields do not point to is none that is pending. -/
theorem drops_expired (hs : Timed s) {id : TimerId}
    (hreconnect : s.worker.reconnectTimer ≠ some id ∨ ∃ timer g r,
      s.timers.lookup id = some timer ∧ timer.retry = .sessionConflict g r)
    (hconflict : s.worker.sessionConflictTimer ≠ some id ∨ ∃ timer g d,
      s.timers.lookup id = some timer ∧ timer.retry = .reconnect g d) :
    Drops s { s with timers := s.timers.erase id } id where
  timers := rfl
  drawn := rfl
  reconnect other := by
    refine ⟨fun hother => ⟨hother, ?_⟩, And.left⟩
    rintro rfl
    obtain ⟨timer, g, d, htimer, hretry⟩ := hs.reconnect other hother
    rcases hreconnect with hne | ⟨timer', g', r', htimer', hretry'⟩
    · exact hne hother
    · rw [htimer'] at htimer
      obtain rfl := Option.some.inj htimer
      rw [hretry'] at hretry
      cases hretry
  conflict other := by
    refine ⟨fun hother => ⟨hother, ?_⟩, And.left⟩
    rintro rfl
    obtain ⟨timer, g, r, htimer, hretry⟩ := hs.conflict other hother
    rcases hconflict with hne | ⟨timer', g', d', htimer', hretry'⟩
    · exact hne hother
    · rw [htimer'] at htimer
      obtain rfl := Option.some.inj htimer
      rw [hretry'] at hretry
      cases hretry

theorem lookup_of_erase {table : Table TimerId RetryTimer} {id other : TimerId}
    {timer : RetryTimer} (h : (table.erase id).lookup other = some timer) :
    table.lookup other = some timer := by
  rw [Table.lookup_erase_eq] at h
  split_ifs at h
  exact h

theorem endures_clearReconnect (s : WorkerState) : Endures s s.clearReconnect := by
  unfold WorkerState.clearReconnect WorkerState.clearTimeout
  cases hfield : s.worker.reconnectTimer with
  | none =>
    apply endures_of_view
    simp only [WorkerState.retryView, hfield]
  | some id =>
    refine endures_of_timed ?_ (fun hs => (drops_reconnect hs hfield).timed hs) ?_ ?_
    · simp only [WorkerState.retryView, hfield]
    · exact fun hu => nomatch hfield.symm.trans hu.reconnect
    · exact fun _ _ => lookup_of_erase

theorem endures_clearSessionConflictTimer (s : WorkerState) :
    Endures s s.clearSessionConflictTimer := by
  unfold WorkerState.clearSessionConflictTimer WorkerState.clearTimeout
  cases hfield : s.worker.sessionConflictTimer with
  | none =>
    apply endures_of_view
    simp only [WorkerState.retryView, hfield]
  | some id =>
    refine endures_of_timed ?_ (fun hs => (drops_sessionConflict hs hfield).timed hs) ?_ ?_
    · simp only [WorkerState.retryView, hfield]
    · exact fun hu => nomatch hfield.symm.trans hu.conflict
    · exact fun _ _ => lookup_of_erase

theorem endures_resetSessionConflict (s : WorkerState) : Endures s s.resetSessionConflict :=
  endures_of_view rfl

theorem endures_clearRetryTimers (s : WorkerState) : Endures s s.clearRetryTimers :=
  (endures_clearReconnect s).trans (endures_clearSessionConflictTimer _)

/-- The retries end. -/
theorem endures_clearRetries (s : WorkerState) :
    Endures s s.clearRetryTimers.resetSessionConflict :=
  (endures_clearRetryTimers s).trans (endures_resetSessionConflict _)

/-- Farming and the retries end. -/
theorem endures_clearAll (s : WorkerState) :
    Endures s (s.clearFarmingSelection false).clearRetryTimers.resetSessionConflict := by
  have hfarming : Endures s (s.clearFarmingSelection false) := endures_of_view rfl
  exact hfarming.trans (endures_clearRetries _)

theorem endures_beginReconnect (s : WorkerState) : Endures s s.beginReconnect := by
  have hcleared := ((endures_clearReconnect s).trans (endures_clearSessionConflictTimer _)).trans
    (endures_resetSessionConflict _)
  exact hcleared.trans (endures_of_view rfl)

theorem endures_beginSessionConflict (s : WorkerState) (source : ConflictMode) :
    Endures s (s.beginSessionConflict source) := by
  have hcleared := (endures_clearReconnect s).trans (endures_clearSessionConflictTimer _)
  exact hcleared.trans (endures_of_view rfl)

theorem unarmed_beginReconnect (s : WorkerState) : Unarmed s.beginReconnect := by
  constructor <;> simp [WorkerState.beginReconnect, WorkerState.resetSessionConflict]

theorem unarmed_beginSessionConflict (s : WorkerState) (source : ConflictMode) :
    Unarmed (s.beginSessionConflict source) := by
  constructor <;> simp [WorkerState.beginSessionConflict]

/-! ### The client is called, and the intent changes -/

/-- The calls that are new are made by the caller that runs. -/
theorem endures_of_calls (hview : { t with
      trace.logOns := s.trace.logOns, trace.reports := s.trace.reports }.retryView = s.retryView)
    (hlogOns : ∀ call ∈ t.trace.logOns, call ∈ s.trace.logOns ∨
      call.caller = s.trace.caller ∧ call.halts = s.trace.halts)
    (hreports : ∀ call ∈ t.trace.reports, call ∈ s.trace.reports ∨
      call.caller = s.trace.caller ∧ call.halts = s.trace.halts) : Endures s t := by
  have h := endures_of_view hview
  have hvouched (hsincere : Sincere s) (hs : Vouched s) : Vouched t := by
    constructor
    · intro call hcall halts hcaller
      rcases hlogOns call hcall with hold | ⟨hnew, hhalts⟩
      · exact hs.logOns call hold halts hcaller
      · exact hhalts.trans (hsincere halts (hnew.symm.trans hcaller)).2
    · intro call hcall halts hcaller
      rcases hreports call hcall with hold | ⟨hnew, hhalts⟩
      · exact hs.reports call hold halts hcaller
      · exact hhalts.trans (hsincere halts (hnew.symm.trans hcaller)).2
  constructor
  case toEbbs =>
    constructor
    case caller => exact h.caller
    case quiescing => exact h.quiescing
    case succeeds => exact ⟨h.succeeds.grows, h.succeeds.current⟩
    case timed =>
      intro hs
      have htimed := h.timed hs
      exact ⟨htimed.fresh, htimed.reconnect, htimed.conflict, htimed.pending, htimed.single⟩
    case unarmed => exact fun hu => ⟨(h.unarmed hu).reconnect, (h.unarmed hu).conflict⟩
    case timers => exact h.timers
    case vouched => exact fun hfree => hvouched hfree.sincere
  case lasts => exact h.lasts
  case sincere => exact hvouched

theorem endures_reportGames (s : WorkerState) (payload : List PlayedEntry) :
    Endures s (s.reportGames payload) := by
  refine endures_of_calls rfl (fun call hcall => .inl hcall) fun call hcall => ?_
  rcases List.mem_cons.mp hcall with rfl | hcall
  · exact .inr ⟨rfl, rfl⟩
  · exact .inl hcall

theorem endures_callLogOn (s : WorkerState) : Endures s s.callLogOn := by
  refine endures_of_calls rfl (fun call hcall => ?_) fun call hcall => .inl hcall
  rcases List.mem_cons.mp hcall with rfl | hcall
  · exact .inr ⟨rfl, rfl⟩
  · exact .inl hcall

/-- A part that changes the intent at most. -/
theorem ebbs_of_succeeds (hsucceeds : Succeeds s t)
    (hview : { t with
      worker.intentGeneration := s.worker.intentGeneration
      worker.desiredState := s.worker.desiredState
      trace.halts := s.trace.halts }.retryView = s.retryView) : Ebbs s t := by
  have h := endures_of_view hview
  constructor
  case caller => exact h.caller
  case quiescing => exact h.quiescing
  case succeeds => exact hsucceeds
  case timed =>
    intro hs
    have htimed := h.timed hs
    exact ⟨htimed.fresh, htimed.reconnect, htimed.conflict, htimed.pending, htimed.single⟩
  case unarmed => exact fun hu => ⟨(h.unarmed hu).reconnect, (h.unarmed hu).conflict⟩
  case timers => exact h.timers
  case vouched => exact fun hfree hs => ⟨(h.vouched hfree hs).logOns, (h.vouched hfree hs).reports⟩

/-- Another intent ends what was current. -/
theorem succeeds_of_lt (h : s.worker.intentGeneration < t.worker.intentGeneration) :
    Succeeds s t := ⟨h.le, fun hg => absurd hg h.ne'⟩

theorem ebbs_supersede (s : WorkerState) : Ebbs s s.supersede :=
  ebbs_of_succeeds (succeeds_of_lt (Nat.lt_succ_self _)) rfl

theorem ebbs_withRow {account : WorkerRow}
    (h : account.desiredState = .running → s.worker.desiredState = .running) :
    Ebbs s (s.withRow account) := ebbs_of_succeeds ⟨le_rfl, fun _ hr => ⟨h hr, rfl⟩⟩ rfl

theorem ebbs_withDesiredState (s : WorkerState) (desiredState : DesiredState) :
    Ebbs s (s.withDesiredState desiredState) := by
  unfold WorkerState.withDesiredState
  dsimp only
  split_ifs with hsame
  · exact ebbs_of_succeeds (succeeds_of_lt (Nat.lt_succ_self _)) rfl
  · obtain rfl := not_not.mp hsame
    exact .refl s

theorem withDesiredState_self (s : WorkerState) :
    s.withDesiredState s.worker.desiredState = s := by
  unfold WorkerState.withDesiredState
  simp

theorem endures_withRunning (s : WorkerState) : Endures s (s.withDesiredState .running) := by
  refine { ebbs_withDesiredState s .running with lasts := ?_, sincere := ?_ }
  · intro hr
    have hsame := withDesiredState_self s
    rw [hr] at hsame
    rw [hsame]
    exact ⟨hr, rfl⟩
  · intro _ hs
    unfold WorkerState.withDesiredState
    dsimp only
    split_ifs
    · exact ⟨hs.logOns, hs.reports⟩
    · exact ⟨hs.logOns, hs.reports⟩

/-! ## The handlers that arm no timer -/

theorem endures_awaitOk (point : WorkerAwait) : (awaitOk point).Keeps Endures :=
  .bind (.await point) fun _ => .ite (.pure ()) .throw

theorem endures_tick : tick.Keeps Endures := .bind (.await _) fun _ => .pure ()

theorem endures_enforceLimit (appIds : List AppId) (customTitle : Option String) :
    (enforceLimit appIds customTitle).Keeps Endures := by
  unfold enforceLimit
  split
  · exact .pure ()
  · exact .throw

theorem endures_setRunning : (setDesiredState .running).Keeps Endures :=
  .bind (.modify endures_withRunning) fun _ => endures_awaitOk _

theorem ebbs_setDesiredState (desiredState : DesiredState) :
    (setDesiredState desiredState).Keeps Ebbs :=
  .bind (.modify fun s => ebbs_withDesiredState s _) fun _ => ebbs_of_endures (endures_awaitOk _)

theorem endures_setStatus (status : AccountStatus) (error : Option String) :
    (setStatus status error).Keeps Endures := by
  refine .bind .get fun s => .ite endures_tick ?_
  exact .bind (.modify fun s => endures_of_view rfl) fun _ => endures_awaitOk _

theorem endures_selectedGamesPayload : selectedGamesPayload.Keeps Endures := by
  refine .bind .get fun s => ?_
  cases s.worker.farmingAppIds with
  | some appIds =>
    exact .bind (endures_enforceLimit _ _) fun _ => .bind endures_tick fun _ => .pure _
  | none =>
    refine .ite (.bind endures_tick fun _ => .pure _) ?_
    refine .bind (endures_awaitOk _) fun _ => .bind .get fun s => ?_
    exact .bind (endures_enforceLimit _ _) fun _ => .pure _

theorem endures_applyGames (guarded : Bool) : (applyGames guarded).Keeps Endures := by
  have hreport (payload : List PlayedEntry) :
      (Async.modify fun s : WorkerState => s.reportGames payload : WorkerAsync Unit).Keeps
        Endures := .modify fun s => endures_reportGames s payload
  refine .bind .get fun s => .ite (.pure ()) (.ite ?_ (.ite ?_ ?_))
  · exact .bind (hreport _) fun _ => .bind (endures_setStatus _ _) fun _ => .pure ()
  · exact .bind (hreport _) fun _ => .bind (endures_setStatus _ _) fun _ => .pure ()
  · refine .bind endures_selectedGamesPayload fun payload => .bind .get fun s => ?_
    exact .ite (.pure ()) (.bind (hreport _) fun _ => endures_setStatus _ _)

theorem endures_logOn : logOn.Keeps Endures := by
  refine .bind .get fun s => .bind (.modify endures_callLogOn) fun _ => .ite ?_ (.pure ())
  exact .modify fun s => endures_of_view rfl

theorem endures_startNow : startNow.Keeps Endures := by
  refine .bind .get fun s => .ite (.pure ()) (.ite (.pure ()) ?_)
  cases s.around.token with
  | unreadable => exact .throw
  | missing => exact endures_setStatus _ _
  | present =>
    refine .bind (.modify fun s => endures_of_view rfl) fun _ => ?_
    refine .bind endures_setRunning fun _ => .bind (endures_setStatus _ _) fun _ => ?_
    refine .bind (.attempt (.bind .get fun s => .ite (.pure ()) ?_)) fun result => ?_
    · exact .bind (.modify fun s => endures_of_view rfl) fun _ => endures_logOn
    · exact .bind (.modify fun s => endures_of_view rfl) fun _ => .ite .throw (.pure ())

theorem ebbs_awaitOk (point : WorkerAwait) : (awaitOk point).Keeps Ebbs :=
  ebbs_of_endures (endures_awaitOk point)

theorem ebbs_setStatus (status : AccountStatus) (error : Option String) :
    (setStatus status error).Keeps Ebbs := ebbs_of_endures (endures_setStatus status error)

/-- A part that leaves what the retries rest on alone. -/
theorem ebbs_modify {f : WorkerState → WorkerState} (h : ∀ s, (f s).retryView = s.retryView) :
    (Async.modify f : WorkerAsync Unit).Keeps Ebbs :=
  .modify fun s => (endures_of_view (h s)).toEbbs

theorem ebbs_reportLogOff (s : WorkerState) :
    Ebbs s ((s.reportGames []).logOff.withConnected false) := by
  have hoff : Endures (s.reportGames []) ((s.reportGames []).logOff.withConnected false) :=
    endures_of_view rfl
  exact ((endures_reportGames s []).trans hoff).toEbbs

theorem ebbs_stopNow : stopNow.Keeps Ebbs := by
  refine .bind (.modify fun s => (endures_clearAll s).toEbbs) fun _ => ?_
  refine .bind (ebbs_awaitOk _) fun _ => .bind (ebbs_awaitOk _) fun _ => ?_
  refine .bind (ebbs_setDesiredState _) fun _ => ?_
  exact .bind (.modify ebbs_reportLogOff) fun _ => ebbs_setStatus _ _

theorem ebbs_shutdownNow : shutdownNow.Keeps Ebbs := by
  have hrest (paused : Option Unit) : (do
      Async.modify fun s => (s.clearRetryTimers.resetSessionConflict.reportGames []).logOff
      awaitOk .logOff
      tick
      Async.modify fun s => s.withConnected false
      setStatus .disconnected none
      if paused.isNone then Async.throw : WorkerAsync Unit).Keeps Ebbs := by
    refine .bind (.modify fun s => ?_) fun _ => ?_
    · have hoff : Endures (s.clearRetryTimers.resetSessionConflict.reportGames [])
          (s.clearRetryTimers.resetSessionConflict.reportGames []).logOff := endures_of_view rfl
      exact (((endures_clearRetries s).trans (endures_reportGames _ [])).trans hoff).toEbbs
    refine .bind (ebbs_awaitOk _) fun _ => .bind (ebbs_of_endures endures_tick) fun _ => ?_
    refine .bind (ebbs_modify fun _ => rfl) fun _ => .bind (ebbs_setStatus _ _) fun _ => ?_
    exact .ite .throw (.pure ())
  refine .bind .get fun s => ?_
  exact .ite (.bind (.attempt (ebbs_setDesiredState _)) hrest) (.bind (.pure _) hrest)

theorem ebbs_pauseNow : pauseNow.Keeps Ebbs := by
  refine .bind .get fun s => .ite (.pure ()) ?_
  refine .bind (.modify fun s => (endures_clearAll s).toEbbs) fun _ => ?_
  refine .bind (ebbs_awaitOk _) fun _ => .bind .get fun s => .ite (.pure ()) ?_
  refine .bind (ebbs_modify fun _ => rfl) fun _ => .bind (ebbs_setDesiredState _) fun _ => ?_
  refine .bind .get fun s => .ite (.pure ()) ?_
  exact .bind (.modify fun s => (endures_reportGames s []).toEbbs) fun _ => ebbs_setStatus _ _

theorem ebbs_forceDisconnectForSafety (message : String) :
    (forceDisconnectForSafety message).Keeps Ebbs := by
  refine .bind .get fun s => .ite (.pure ()) (.bind (.modify fun s => ?_) fun _ => ?_)
  · have hpaused : Endures (s.clearFarmingSelection false).clearRetryTimers.resetSessionConflict
        ((s.clearFarmingSelection false).clearRetryTimers.resetSessionConflict.withManuallyPaused
          true) := endures_of_view rfl
    exact ((endures_clearAll s).trans hpaused).toEbbs
  refine .bind (.attempt (ebbs_awaitOk _)) fun cleared => ?_
  refine .bind (.attempt (ebbs_setDesiredState _)) fun desired => ?_
  refine .bind .get fun s => .ite (.pure ()) ?_
  refine .bind (.modify ebbs_reportLogOff) fun _ => ?_
  exact .bind (.attempt (ebbs_setStatus _ _)) fun written => .ite .throw (.pure ())

theorem ebbs_clearAndDisconnect (s : WorkerState) {f : WorkerState → WorkerState}
    (hf : ∀ s, (f s).retryView = s.retryView) :
    Ebbs s (f s.clearRetryTimers.resetSessionConflict) :=
  ((endures_clearRetries s).trans (endures_of_view (hf _))).toEbbs

theorem ebbs_markSafetyAttention (message : String) : (markSafetyAttention message).Keeps Ebbs := by
  refine .bind (.modify fun s => ?_) fun _ => .bind (ebbs_setDesiredState _) fun _ => ?_
  · exact ebbs_clearAndDisconnect s (f := fun s => (s.withConnected false).withManuallyPaused true)
      fun _ => rfl
  · exact .bind (ebbs_awaitOk _) fun _ => ebbs_setStatus _ _

/-- A resume starts a worker that is not connected. -/
theorem endures_startOrApply : (do
    if (← Async.get).worker.connected = false then startNow else applyGames false :
      WorkerAsync Unit).Keeps Endures :=
  .bind .get fun _ => .ite endures_startNow (endures_applyGames _)

theorem endures_resumeNow : resumeNow.Keeps Endures :=
  .bind (.modify fun _ => endures_of_view rfl) fun _ => .bind endures_setRunning fun _ =>
    endures_startOrApply

theorem endures_resumeForFarming : resumeForFarming.Keeps Endures :=
  .bind (.modify fun _ => endures_of_view rfl) fun _ => .bind endures_setRunning fun _ =>
    endures_startOrApply

theorem endures_applyFarmingSelection (appIds : List AppId) :
    (applyFarmingSelection appIds).Keeps Endures := by
  refine .bind .get fun s => .ite .throw (.bind (endures_enforceLimit _ _) fun _ => ?_)
  exact .bind (.modify fun s => endures_of_view rfl) fun _ => endures_applyGames _

theorem ebbs_loseConnection (decision : RetryDecision) : (loseConnection decision).Keeps Ebbs := by
  refine .bind .get fun s => .bind (ebbs_modify fun _ => rfl) fun _ => ?_
  refine .ite (ebbs_modify fun _ => rfl) (.ite ?_ (.pure ()))
  exact .bind (ebbs_modify fun _ => rfl) fun _ => ebbs_setDesiredState _

theorem ebbs_handleTerminalFailure (decision : RetryDecision) (message : String) :
    (handleTerminalFailure decision message).Keeps Ebbs := by
  refine .bind (.modify fun s => ?_) fun _ => .bind (ebbs_awaitOk _) fun _ => ?_
  · exact ebbs_clearAndDisconnect s (f := fun s => (s.withConnected false).withBlocked false)
      fun _ => rfl
  · exact .bind (ebbs_setDesiredState _) fun _ => ebbs_setStatus _ _

theorem ebbs_onLoggedOn : onLoggedOn.Keeps Ebbs := by
  refine .bind (.modify fun s => ?_) fun _ => ?_
  · have hconnected : Endures s (s.withConnected true) := endures_of_view rfl
    have hreconnect := hconnected.trans (endures_clearReconnect _)
    have hattempt : Endures (s.withConnected true).clearReconnect
        { (s.withConnected true).clearReconnect with worker.reconnectAttempt := 0 } :=
      endures_of_view rfl
    have hcleared := (hreconnect.trans hattempt).trans (endures_clearSessionConflictTimer _)
    exact (hcleared.trans (endures_resetSessionConflict _)).toEbbs
  refine .bind (ebbs_awaitOk _) fun _ => .bind (ebbs_awaitOk _) fun _ => ?_
  refine .bind (ebbs_awaitOk _) fun _ => .bind .get fun s => .ite (.pure ()) ?_
  exact .bind (ebbs_setStatus _ _) fun _ => ebbs_of_endures (endures_applyGames false)

/-! ### A timer is armed -/

theorem Timed.lookup_setTimeout (hs : Timed s) (hu : Unarmed s) {retry : Retry} {delayMs : ℕ}
    {id : TimerId} {timer : RetryTimer}
    (h : (s.setTimeout retry delayMs).timers.lookup id = some timer) :
    id = s.drawn ∧ timer = ⟨retry, delayMs, s.trace.halts⟩ := by
  unfold WorkerState.setTimeout at h
  rw [Table.lookup_insert_eq] at h
  split_ifs at h with hid
  · exact ⟨hid, (Option.some.inj h).symm⟩
  · rw [hs.empty_of_unarmed hu] at h
    cases h

theorem Timed.armReconnect (hs : Timed s) (hu : Unarmed s) (g : ℕ) (decision : RetryDecision)
    (delayMs : ℕ) : Timed (s.armReconnect g decision delayMs) := by
  constructor
  case fresh =>
    intro id timer htimer
    rw [(hs.lookup_setTimeout hu htimer).1]
    exact Nat.lt_succ_self _
  case reconnect =>
    intro id hfield
    obtain rfl := Option.some.inj hfield
    exact ⟨_, g, decision, AList.lookup_insert _, rfl⟩
  case conflict =>
    intro id hfield
    exact nomatch hu.conflict.symm.trans hfield
  case pending =>
    intro id timer htimer
    rw [(hs.lookup_setTimeout hu htimer).1]
    exact .inl rfl
  case single => exact .inr hu.conflict

theorem Timed.armSessionConflict (hs : Timed s) (hu : Unarmed s) (delayMs : ℕ)
    (resetCycle : Bool) : Timed (s.armSessionConflict delayMs resetCycle) := by
  constructor
  case fresh =>
    intro id timer htimer
    rw [(hs.lookup_setTimeout hu htimer).1]
    exact Nat.lt_succ_self _
  case reconnect =>
    intro id hfield
    exact nomatch hu.reconnect.symm.trans hfield
  case conflict =>
    intro id hfield
    obtain rfl := Option.some.inj hfield
    exact ⟨_, _, resetCycle, AList.lookup_insert _, rfl⟩
  case pending =>
    intro id timer htimer
    rw [(hs.lookup_setTimeout hu htimer).1]
    exact .inr rfl
  case single => exact .inl hu.reconnect

theorem Lawful.armReconnect (hs : Lawful s) (hu : Unarmed s) {g : ℕ}
    (hg : g ≤ s.worker.intentGeneration) (decision : RetryDecision) (delayMs : ℕ) :
    Lawful (s.armReconnect g decision delayMs) where
  timed := hs.timed.armReconnect hu g decision delayMs
  dated id timer htimer := by
    obtain ⟨-, rfl⟩ := hs.timed.lookup_setTimeout hu htimer
    exact ⟨hg, fun _ _ => rfl⟩
  vouched := ⟨hs.vouched.logOns, hs.vouched.reports⟩

theorem Lawful.armSessionConflict (hs : Lawful s) (hu : Unarmed s) (delayMs : ℕ)
    (resetCycle : Bool) : Lawful (s.armSessionConflict delayMs resetCycle) where
  timed := hs.timed.armSessionConflict hu delayMs resetCycle
  dated id timer htimer := by
    obtain ⟨-, rfl⟩ := hs.timed.lookup_setTimeout hu htimer
    exact ⟨le_rfl, fun _ _ => rfl⟩
  vouched := ⟨hs.vouched.logOns, hs.vouched.reports⟩

end SteamBee.Steam
