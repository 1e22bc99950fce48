import SteamBee.Web.InventoryPrices

/-! The polling of estimates is bounded, and it never stalls. -/
namespace SteamBee.Web.Prices
variable {config : Config} {now : ℕ} {ids : List String} {overview : Overview} {s t : PollState}
  {notes newer between older : List Note}

/-! ## Repairs -/

/-- There was a repair since the last read that succeeded and the last retry. -/
def spent : List Note → Bool
  | [] => false
  | .repair :: _ => true
  | _ :: _ => false

/-- No repair follows another. -/
def Paced : List Note → Prop
  | [] => True
  | .repair :: notes => spent notes = false ∧ Paced notes
  | _ :: notes => Paced notes

theorem paced_of_append (h : Paced (newer ++ notes)) : Paced notes := by
  induction newer with
  | nil => exact h
  | cons note newer ih =>
    apply ih
    cases note with
    | repair => exact h.2
    | read => exact h
    | retry => exact h

/-- Between two repairs a read has succeeded, or there was a retry. -/
theorem mem_between_of_paced (h : Paced (newer ++ .repair :: between ++ .repair :: older)) :
    Note.read ∈ between ∨ Note.retry ∈ between := by
  rw [List.append_assoc, List.cons_append] at h
  have hunspent := (paced_of_append h).1
  cases between with
  | nil => cases hunspent
  | cons note between =>
    cases note with
    | repair => cases hunspent
    | read => exact Or.inl List.mem_cons_self
    | retry => exact Or.inr List.mem_cons_self

/-! ## What changes only what is shown -/

/-- The two states differ in the estimates, and in what is known of when to ask for them. -/
structure SameControl (s t : PollState) : Prop where
  shown : t.shown = s.shown
  repairUsed : t.repairUsed = s.repairUsed
  inFlight : t.inFlight = s.inFlight
  timer : t.timer = s.timer
  requests : t.requests = s.requests
  waiting : t.waiting = s.waiting
  notes : t.notes = s.notes

theorem SameControl.refl (s : PollState) : SameControl s s := ⟨rfl, rfl, rfl, rfl, rfl, rfl, rfl⟩

theorem SameControl.trans {u : PollState} (h : SameControl s t) (h' : SameControl t u) :
    SameControl s u :=
  ⟨h'.shown.trans h.shown, h'.repairUsed.trans h.repairUsed, h'.inFlight.trans h.inFlight,
    h'.timer.trans h.timer, h'.requests.trans h.requests, h'.waiting.trans h.waiting,
    h'.notes.trans h.notes⟩

theorem sameControl_acceptRow (now : ℕ) (overview : Overview) (s : PollState) (id : String) :
    SameControl s (acceptRow now overview s id) := by
  unfold acceptRow
  split
  next => exact ⟨rfl, rfl, rfl, rfl, rfl, rfl, rfl⟩
  next =>
    dsimp only
    split <;> exact ⟨rfl, rfl, rfl, rfl, rfl, rfl, rfl⟩

theorem sameControl_acceptRows (now : ℕ) (overview : Overview) (ids : List String)
    (s : PollState) : SameControl s (ids.foldl (acceptRow now overview) s) := by
  induction ids generalizing s with
  | nil => exact .refl s
  | cons id ids ih => exact (sameControl_acceptRow now overview s id).trans (ih _)

/-! ## The invariant -/

/-- One `pump` at most waits, and while it does the next one starts no request. -/
structure Single (s : PollState) : Prop where
  alone : s.waiting.length ≤ 1
  busy : s.waiting ≠ [] → s.inFlight = true
  budget : spent s.notes = true → s.repairUsed = true
  paced : Paced s.notes

/-- A timer is set where there may be something to ask for. -/
def Armed (config : Config) (s : PollState) : Prop :=
  config.enabled = true → s.shown = true → s.timer.isSome = true

/-- No visible variant is to be asked for at any time. -/
def Settled (s : PollState) : Prop := ∀ id ∈ eligible s, nextCheck (s.records id) = none

structure Sound (config : Config) (s : PollState) : Prop extends Single s where
  armed : Armed config s ∨ s.inFlight = false ∧ Settled s

theorem Single.of_same (h : Single s) (hsame : SameControl s t) : Single t := by
  constructor
  case alone => rw [hsame.waiting]; exact h.alone
  case busy => rw [hsame.waiting, hsame.inFlight]; exact h.busy
  case budget => rw [hsame.notes, hsame.repairUsed]; exact h.budget
  case paced => rw [hsame.notes]; exact h.paced

theorem armed_arm (config : Config) (now delay : ℕ) (s : PollState) :
    Armed config (arm config now delay s) := by
  intro henabled hshown
  have hboth : (config.enabled && s.shown) = true := by
    rw [henabled]
    exact hshown
  unfold arm
  rw [if_pos hboth]
  rfl

theorem Single.arm (h : Single s) (config : Config) (now delay : ℕ) :
    Sound config (arm config now delay s) :=
  ⟨⟨h.alone, h.busy, h.budget, h.paced⟩, Or.inl (armed_arm config now delay s)⟩

structure Resumed (config : Config) (s : PollState) : Prop where
  waiting : s.waiting = []
  inFlight : s.inFlight = true
  armed : Armed config s
  budget : spent s.notes = true → s.repairUsed = true
  paced : Paced s.notes

theorem Resumed.of_same (h : Resumed config s) (hsame : SameControl s t) : Resumed config t := by
  constructor
  case waiting => exact hsame.waiting.trans h.waiting
  case inFlight => exact hsame.inFlight.trans h.inFlight
  case armed =>
    intro henabled hshown
    rw [hsame.timer]
    exact h.armed henabled (hsame.shown.symm.trans hshown)
  case budget => rw [hsame.notes, hsame.repairUsed]; exact h.budget
  case paced => rw [hsame.notes]; exact h.paced

theorem Resumed.finish (h : Resumed config s) : Sound config (finish config now s) := by
  apply Single.arm
  constructor
  case alone =>
    show s.waiting.length ≤ 1
    rw [h.waiting]
    exact Nat.zero_le 1
  case busy => exact fun hne => absurd h.waiting hne
  case budget => exact h.budget
  case paced => exact h.paced

/-- A `pump` that waits again. -/
theorem Resumed.await (h : Resumed config s) (await : Await) (notes : List Note)
    (hbudget : spent notes = true → t.repairUsed = true) (hpaced : Paced notes)
    (hshown : t.shown = s.shown) (htimer : t.timer = s.timer) (hflight : t.inFlight = s.inFlight)
    (hwaiting : t.waiting = await :: s.waiting) (hnotes : t.notes = notes) : Sound config t := by
  refine ⟨⟨?_, ?_, ?_, ?_⟩, Or.inl ?_⟩
  · rw [hwaiting, h.waiting]
    exact le_rfl
  · intro _
    exact hflight.trans h.inFlight
  · rw [hnotes]
    exact hbudget
  · rw [hnotes]
    exact hpaced
  · intro henabled htshown
    rw [htimer]
    exact h.armed henabled (hshown.symm.trans htshown)

/-! ## Steps -/

theorem sound_request (h : Single s) (hidle : s.inFlight = false) (config : Config) (now : ℕ)
    (ids : List String) : Sound config (request config now ids s) := by
  have hnone : s.waiting = [] := by
    by_contra hne
    rw [h.busy hne] at hidle
    cases hidle
  refine ⟨⟨?_, fun _ => rfl, h.budget, h.paced⟩, Or.inl ?_⟩
  · show s.waiting.length + 1 ≤ 1
    rw [hnone]
    exact le_rfl
  · exact armed_arm config now retryDelay _

/-- When there is nothing to ask for now, the timer waits for the first time at which there is. -/
theorem sound_choose (h : Single s) (hidle : s.inFlight = false) (config : Config) (now : ℕ) :
    Sound config (choose config now s) := by
  unfold choose
  dsimp only
  split
  next =>
    split
    next hnone =>
      refine ⟨h, Or.inr ⟨hidle, ?_⟩⟩
      intro id hid
      rw [List.min?_eq_none_iff, List.filterMap_eq_nil_iff] at hnone
      exact hnone id hid
    next => exact h.arm config now _
  next => exact sound_request h hidle config now _

theorem sound_pump (h : Single s) : Sound config (pump config now s) := by
  unfold pump
  split
  next hoff =>
    refine ⟨h, Or.inl ?_⟩
    intro henabled hshown
    rw [henabled, hshown] at hoff
    cases hoff
  next =>
    have hexpired : Single (expire now s) := h.of_same ⟨rfl, rfl, rfl, rfl, rfl, rfl, rfl⟩
    dsimp only
    split
    next => exact hexpired.arm config now _
    next hfree =>
      split
      next => exact hexpired.arm config now _
      next =>
        have hnoted : Single (noteUnknown (expire now s)) :=
          hexpired.of_same ⟨rfl, rfl, rfl, rfl, rfl, rfl, rfl⟩
        apply sound_choose hnoted
        simp only [Bool.or_eq_true, not_or, Bool.not_eq_true] at hfree
        exact hfree.1

theorem Resumed.fail (h : Resumed config s) (request : ℕ) (ids : List String) (cause : Cause) :
    Sound config (fail config now request ids cause s) := by
  have hmarked : Resumed config (markFailure now ids cause s) :=
    h.of_same ⟨rfl, rfl, rfl, rfl, rfl, rfl, rfl⟩
  unfold Prices.fail
  split
  next => exact h.finish
  next =>
    split
    next hrepair =>
      have hunspent : spent s.notes = false := by
        cases hspent : spent s.notes with
        | false => rfl
        | true =>
          rw [h.budget hspent, Bool.not_true, Bool.and_false] at hrepair
          cases hrepair
      exact hmarked.await .contextRecovery (.repair :: s.notes) (fun _ => rfl)
        ⟨hunspent, h.paced⟩ rfl rfl rfl rfl rfl
    next => exact hmarked.finish

theorem Resumed.accept (h : Resumed config s) : Resumed config (accept now ids overview s) := by
  have hrows : Resumed config (ids.foldl (acceptRow now overview) (observe overview s)) := by
    have hobserved : Resumed config (observe overview s) :=
      h.of_same ⟨rfl, rfl, rfl, rfl, rfl, rfl, rfl⟩
    exact hobserved.of_same (sameControl_acceptRows now overview ids _)
  refine ⟨hrows.waiting, hrows.inFlight, hrows.armed, ?_, hrows.paced⟩
  -- a read that succeeds is noted, so that no repair is left
  intro hspent
  cases hspent

theorem Resumed.respond (h : Resumed config s) (request : ℕ) (ids : List String)
    (overview : Overview) (recovers : Bool) :
    Sound config (respond config now request ids overview recovers s) := by
  have hchanged : Resumed config (rulesChanged now s) :=
    h.of_same ⟨rfl, rfl, rfl, rfl, rfl, rfl, rfl⟩
  unfold Prices.respond
  split
  next => exact h.finish
  next =>
    split
    next => exact h.fail request ids .other
    next =>
      split
      next =>
        split
        next =>
          exact hchanged.await (.rulesRecovery request ids) s.notes h.budget h.paced rfl rfl rfl rfl
            rfl
        next => exact hchanged.finish
      next => exact h.accept.finish

theorem Resumed.resume (h : Resumed config s) {await : Await} {outcome : Outcome}
    (hnext : resume config now s await outcome = some t) : Sound config t := by
  have hrepaired : Resumed config { s with repairing := false } :=
    h.of_same ⟨rfl, rfl, rfl, rfl, rfl, rfl, rfl⟩
  cases await with
  | overview request ids =>
    cases outcome with
    | response overview recovers =>
      obtain rfl := Option.some.inj hnext
      exact h.respond request ids overview recovers
    | resolved => cases hnext
    | rejected cause =>
      obtain rfl := Option.some.inj hnext
      exact h.fail request ids cause
  | rulesRecovery request ids =>
    cases outcome with
    | response overview recovers => cases hnext
    | resolved =>
      obtain rfl := Option.some.inj hnext
      exact hrepaired.finish
    | rejected cause =>
      obtain rfl := Option.some.inj hnext
      exact hrepaired.fail request ids cause
  | contextRecovery =>
    cases outcome with
    | response overview recovers => cases hnext
    | resolved =>
      obtain rfl := Option.some.inj hnext
      exact hrepaired.finish
    | rejected cause =>
      obtain rfl := Option.some.inj hnext
      exact hrepaired.finish

theorem Sound.visibilityChanged (h : Sound config s) (now : ℕ) (shown : Bool) :
    Sound config (visibilityChanged config now { s with shown }) := by
  have hsame : Single { s with shown } := ⟨h.alone, h.busy, h.budget, h.paced⟩
  unfold Prices.visibilityChanged
  split
  next => exact hsame.arm config now 150
  next hhidden =>
    refine ⟨⟨h.alone, h.busy, h.budget, h.paced⟩, Or.inl ?_⟩
    intro _ hshown
    exact absurd hshown hhidden

theorem Sound.onVisibleVariantsChange (h : Sound config s) (now : ℕ) (ids : List String) :
    Sound config (onVisibleVariantsChange config now ids s) := by
  unfold Prices.onVisibleVariantsChange
  dsimp only
  split
  next => exact h
  next =>
    apply Single.arm
    exact ⟨h.alone, h.busy, h.budget, h.paced⟩

theorem Sound.retryImpl (h : Sound config s) (now : ℕ) (id : Option String) :
    Sound config (retryImpl config now id s) := by
  apply Single.arm
  refine ⟨h.alone, h.busy, ?_, h.paced⟩
  intro hspent
  cases hspent

/-- While a `pump` waits the timer is set. -/
theorem Sound.resumed (h : Sound config s) {index : ℕ} {await : Await}
    (hindex : s.waiting[index]? = some await) :
    Resumed config { s with waiting := s.waiting.eraseIdx index } := by
  have hlt : index < s.waiting.length := (List.getElem?_eq_some_iff.mp hindex).1
  have hflight : s.inFlight = true := h.busy (List.ne_nil_of_length_pos (Nat.zero_lt_of_lt hlt))
  constructor
  case waiting =>
    apply List.eq_nil_of_length_eq_zero
    have halone := h.alone
    rw [List.length_eraseIdx_of_lt hlt]
    omega
  case inFlight => exact hflight
  case armed =>
    rcases h.armed with harmed | ⟨hidle, -⟩
    · exact harmed
    · rw [hflight] at hidle
      cases hidle
  case budget => exact h.budget
  case paced => exact h.paced

theorem sound_next (h : Sound config s) {event : ℕ × PollEvent}
    (hnext : (pollMachine config).next s event = some t) : Sound config t := by
  obtain ⟨now, event⟩ := event
  cases event with
  | visibilityChange shown =>
    obtain rfl := Option.some.inj hnext
    exact h.visibilityChanged now shown
  | visibleVariants ids =>
    obtain rfl := Option.some.inj hnext
    exact h.onVisibleVariantsChange now ids
  | retry id =>
    obtain rfl := Option.some.inj hnext
    exact h.retryImpl now id
  | fire =>
    obtain ⟨delay, -, rfl⟩ := Option.map_eq_some_iff.mp hnext
    exact sound_pump ⟨h.alone, h.busy, h.budget, h.paced⟩
  | settle index outcome =>
    obtain ⟨await, hindex, hresume⟩ := Option.bind_eq_some_iff.mp hnext
    exact (h.resumed hindex).resume hresume

theorem sound_of_reachable (h : (pollMachine config).Reachable s) : Sound config s := by
  apply h.invariant
  · rintro _ ⟨found, now, hfresh, rfl⟩
    apply Single.arm
    have hwaiting : (expire now found).waiting = [] := hfresh.waiting
    have hnotes : (expire now found).notes = [] := hfresh.notes
    refine ⟨?_, ?_, ?_, ?_⟩
    · rw [hwaiting]
      exact Nat.zero_le 1
    · exact fun hne => absurd hwaiting hne
    · rw [hnotes]
      exact fun hspent => nomatch hspent
    · rw [hnotes]
      trivial
  · intro s event t hs _ hnext
    exact sound_next hs hnext

/-! ## Requests -/

theorem requests_fail (request : ℕ) (ids : List String) (cause : Cause) :
    (fail config now request ids cause s).requests = s.requests := by
  unfold fail
  split
  next => rfl
  next => split <;> rfl

theorem requests_respond (request : ℕ) (ids : List String) (recovers : Bool) :
    (respond config now request ids overview recovers s).requests = s.requests := by
  unfold respond
  split
  next => rfl
  next =>
    split
    next => exact requests_fail request ids .other
    next =>
      split
      next => split <;> rfl
      next => exact (sameControl_acceptRows now overview ids (observe overview s)).requests

theorem requests_resume {await : Await} {outcome : Outcome}
    (h : resume config now s await outcome = some t) : t.requests = s.requests := by
  unfold resume at h
  split at h
  next => rw [← Option.some.inj h, requests_respond]
  next => rw [← Option.some.inj h, requests_fail]
  next => rw [← Option.some.inj h]; rfl
  next => rw [← Option.some.inj h, requests_fail]
  next => rw [← Option.some.inj h]; rfl
  next => rw [← Option.some.inj h]; rfl
  next => cases h

/-- A `pump` starts one request at most, and only when it may. -/
theorem requests_pump (h : (pump config now s).requests ≠ s.requests) :
    (pump config now s).requests = s.requests + 1 ∧ s.shown = true ∧ s.cooldownUntil ≤ now := by
  unfold pump choose at *
  dsimp only at *
  split at h
  next => exact absurd rfl h
  next hon =>
    rw [if_neg hon]
    split at h
    next => exact absurd rfl h
    next hfree =>
      rw [if_neg hfree]
      split at h
      next => exact absurd rfl h
      next hcool =>
        rw [if_neg hcool]
        split at h
        next => split at h <;> exact absurd rfl h
        next hsome =>
          rw [if_neg hsome]
          refine ⟨rfl, ?_, Nat.le_of_not_lt hcool⟩
          simp only [Bool.not_eq_true', Bool.not_eq_false, Bool.and_eq_true] at hon
          exact hon.2

/-- A request starts when the timer fires, in a visible document after the cooldown. -/
theorem requests_next {event : PollEvent}
    (hnext : (pollMachine config).next s (now, event) = some t) (h : t.requests ≠ s.requests) :
    t.requests = s.requests + 1 ∧ s.shown = true ∧ s.cooldownUntil ≤ now := by
  cases event with
  | visibilityChange shown =>
    obtain rfl := Option.some.inj hnext
    cases shown <;> exact absurd rfl h
  | visibleVariants ids =>
    obtain rfl := Option.some.inj hnext
    unfold onVisibleVariantsChange at h
    dsimp only at h
    split at h <;> exact absurd rfl h
  | retry id =>
    obtain rfl := Option.some.inj hnext
    exact absurd rfl h
  | fire =>
    obtain ⟨delay, -, rfl⟩ := Option.map_eq_some_iff.mp hnext
    exact requests_pump h
  | settle index outcome =>
    obtain ⟨await, -, hresume⟩ := Option.bind_eq_some_iff.mp hnext
    exact absurd (requests_resume hresume) h

def requestsInFlight (s : PollState) : List ℕ :=
  s.waiting.filterMap fun await =>
    match await with
    | .overview request _ => some request
    | _ => none

/-- In every run there is one request in flight at most, none starts in a hidden document or
before the end of the cooldown, a repair follows another only after a read that has succeeded or a
retry, and a timer is set as long as a visible variant is to be asked for at some time. -/
theorem polling_bounded (config : Config) :
    (∀ s, (pollMachine config).Reachable s →
      (requestsInFlight s).length ≤ 1 ∧
      (∀ newer between older, s.notes = newer ++ .repair :: between ++ .repair :: older →
        Note.read ∈ between ∨ Note.retry ∈ between) ∧
      (config.enabled = true → s.shown = true →
        (∃ id ∈ s.visible, isVariantId id = true ∧ (nextCheck (s.records id)).isSome = true) →
        s.timer.isSome = true)) ∧
    ∀ s now event t, (pollMachine config).Reachable s →
      (pollMachine config).next s (now, event) = some t → t.requests ≠ s.requests →
      t.requests = s.requests + 1 ∧ s.shown = true ∧ s.cooldownUntil ≤ now := by
  refine ⟨?_, fun s now event t _ hnext => requests_next hnext⟩
  intro s hreachable
  have hsound := sound_of_reachable hreachable
  refine ⟨(List.length_filterMap_le _ _).trans hsound.alone, ?_, ?_⟩
  · intro newer between older hnotes
    have hpaced := hsound.paced
    rw [hnotes] at hpaced
    exact mem_between_of_paced hpaced
  · rintro henabled hshown ⟨id, hid, hvalid, hcheck⟩
    rcases hsound.armed with harmed | ⟨-, hsettled⟩
    · exact harmed henabled hshown
    · rw [hsettled id (List.mem_filter.mpr ⟨hid, hvalid⟩)] at hcheck
      cases hcheck

def cardFound : PollState where
  shown := true
  visible := ["753:6:440:1"]
  records := fun _ => none
  wallet := none
  observedRules := none
  cooldownUntil := 0
  repairUsed := false
  inFlight := false
  repairing := false
  timer := none
  requests := 0
  aborted := []
  waiting := []
  notes := []

def cardConfig : Config := ⟨"1", none, true, none⟩

def contextExpired : Outcome := .rejected (.api "INVENTORY_PRICE_CONTEXT_EXPIRED" 409)

def repairedTwice : List (ℕ × PollEvent) :=
  [(200, .fire), (300, .settle 0 contextExpired), (400, .settle 0 .resolved), (500, .retry none),
    (700, .fire), (800, .settle 0 contextExpired)]

def repairedCard : PollState :=
  ((pollMachine cardConfig).exec (arm cardConfig 0 150 (expire 0 cardFound)) repairedTwice).getD
    cardFound

theorem polling_bounded_repairs : (pollMachine cardConfig).Reachable repairedCard ∧
    repairedCard.notes = [.repair, .retry, .repair] ∧
    (requestsInFlight repairedCard).length ≤ 1 ∧
    (Note.read ∈ [Note.retry] ∨ Note.retry ∈ [Note.retry]) ∧
    repairedCard.timer.isSome = true := by
  have hreachable : (pollMachine cardConfig).Reachable repairedCard :=
    Transition.Machine.reachable_exec ⟨cardFound, 0, ⟨rfl, rfl, rfl, rfl, rfl, rfl, rfl⟩, rfl⟩
      (by decide +kernel)
  have hnotes : repairedCard.notes = [.repair, .retry, .repair] := by decide +kernel
  obtain ⟨hsingle, hrepairs, harmed⟩ := (polling_bounded cardConfig).1 repairedCard hreachable
  refine ⟨hreachable, hnotes, hsingle, hrepairs [] [.retry] [] hnotes, ?_⟩
  exact harmed rfl (by decide +kernel) ⟨"753:6:440:1", by decide +kernel, by decide +kernel,
    by decide +kernel⟩

end SteamBee.Web.Prices
