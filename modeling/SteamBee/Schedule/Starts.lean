import SteamBee.Schedule.Steps

/-! The scheduler starts a window once for each stretch of transitions that it wins, pauses
only what it has started, and waits after transitions that failed. -/
namespace SteamBee.Schedule

/-- Nothing fails and nothing is held; the process does not end in the transition. -/
structure Ports.Quiet (ports : Ports) : Prop where
  answers : ¬ports.Rejects
  survives : ¬ports.Crashes
  activeHold : ports.activeHold ≠ .returns true
  holdAfterPreset : ports.holdAfterPreset ≠ .returns true
  skipLookup : ∀ id, ports.skipLookupFails id = false

def Action.Quiet : Action → Prop
  | .runAccount _ ports => ports.Quiet
  | _ => True

def lastWinner (records : List TransitionRecord) : Option WindowId :=
  records.head?.bind (·.winner)

/-- A window is started by the first transition that it wins and left alone by the next ones. -/
def StartsOnce (r : TransitionRecord) (older : List TransitionRecord) : Prop :=
  ∀ w, r.winner = some w →
    (lastWinner older = some w → r.calls = []) ∧
      (lastWinner older ≠ some w → ∃ presetId, r.calls = [.applyPreset presetId, .resumeOrStart])

/-- The times of the failures of a transition since its account was started, stopped or
cleared, or another of its transitions failed; newest first. -/
def consecutiveFailures (accountId : AccountId) (key : RetryKey) : List Event → List ℤ
  | [] => []
  | .transition r :: older =>
    if r.accountId = accountId then
      match r.attempt, r.ended with
      | some tried, .failed =>
        if tried = key then r.now :: consecutiveFailures accountId key older else []
      | some _, .done => []
      | _, _ => consecutiveFailures accountId key older
    else consecutiveFailures accountId key older
  | .cleared other :: older =>
    if other = accountId then [] else consecutiveFailures accountId key older
  | .restarted :: _ => []
  | _ :: older => consecutiveFailures accountId key older

def failureAfter (key : RetryKey) : List ℤ → Option FailedTransition
  | [] => none
  | failedAt :: earlier => some ⟨key, earlier.length + 1,
      failedAt + min (scheduleIntervalMs * 2 ^ earlier.length) maxRetryDelayMs⟩

namespace Coordinator
open ScheduleRecord
variable {intl : Intl} {s t : Coordinator} {a : Action} {ports : Ports} {accountId : AccountId}
  {entries : List ScheduleEntry} {now : ℤ} {w : WindowId}

structure Followed (s : Coordinator) : Prop where
  failed : ∀ accountId, s.failedTransitions.lookup accountId = none
  isOpen_iff : ∀ id row w, s.rows.lookup id = some row →
    (row.IsOpen w ↔
      lastWinner (transitionsOf row.accountId s.history) = some w ∧ w.scheduleId = id)
  drawn : ∀ accountId w, lastWinner (transitionsOf accountId s.history) = some w →
    w.scheduleId < s.drawn
  once : ∀ accountId, History.Each StartsOnce (transitionsOf accountId s.history)

/-- The same transitions on rows with the same markers. -/
theorem Followed.congr (h : s.Followed)
    (hfailed : ∀ accountId, t.failedTransitions.lookup accountId = none)
    (hrows : ∀ id row', t.rows.lookup id = some row' → s.drawn ≤ id ∧ (∀ w, ¬row'.IsOpen w) ∨
      ∃ row, s.rows.lookup id = some row ∧ SameMarkers row row')
    (hdrawn : s.drawn ≤ t.drawn)
    (hhistory : ∀ accountId, transitionsOf accountId t.history = transitionsOf accountId s.history) :
    t.Followed := by
  constructor
  case failed => exact hfailed
  case isOpen_iff =>
    intro id row' w hrow'
    rw [hhistory]
    rcases hrows id row' hrow' with ⟨hnew, hclosed⟩ | ⟨row, hrow, haccount, hsame⟩
    · refine ⟨fun hopen => absurd hopen (hclosed w), ?_⟩
      rintro ⟨hlast, rfl⟩
      exact absurd (h.drawn row'.accountId w hlast) (Nat.not_lt.mpr hnew)
    · rw [hsame, haccount]
      exact h.isOpen_iff id row w hrow
  case drawn =>
    intro accountId w hlast
    rw [hhistory] at hlast
    exact Nat.lt_of_lt_of_le (h.drawn accountId w hlast) hdrawn
  case once =>
    intro accountId
    rw [hhistory]
    exact h.once accountId

/-- A quiet transition is done, and it starts the winner unless its window is open. -/
theorem Shape.quiet {p : Progress} (hp : Shape s accountId entries now ports p) (hq : ports.Quiet)
    (hfailed : ∀ accountId, s.failedTransitions.lookup accountId = none)
    (hcommits : s.Failure accountId entries ports → ports.Rejects) :
    p.ended = .done ∧ (∀ other, p.state.failedTransitions.lookup other = none) ∧
      ∀ winner next, winningWindow entries = some (winner, next) →
        (s.Continues accountId winner next → p.calls = []) ∧
          (¬s.Continues accountId winner next →
            ∃ presetId, p.calls = [.applyPreset presetId, .resumeOrStart]) := by
  have herased (other : AccountId) :
      (s.failedTransitions.erase accountId).lookup other = none := by
    rw [Table.lookup_erase_eq, hfailed]
    exact ite_self none
  cases hp with
  | held h => exact absurd h hq.activeHold
  | refused h => exact absurd (hcommits h) hq.answers
  | crashed h => exact absurd h hq.survives
  | backingOff h =>
    unfold isBackingOff at h
    rw [hfailed] at h
    cases h
  | nothing hwin =>
    refine ⟨rfl, hfailed, fun winner next hwin' => ?_⟩
    rw [hwin] at hwin'
    cases hwin'
  | kept hwin hcont =>
    refine ⟨rfl, hfailed, fun winner next hwin' => ⟨fun _ => rfl, fun hnot => ?_⟩⟩
    rw [hwin] at hwin'
    obtain ⟨rfl, rfl⟩ := Prod.mk.inj (Option.some.inj hwin')
    exact absurd hcont hnot
  | stopsShort hhold hkey hback hcalls hended =>
    rcases hended with ⟨-, hheld⟩ | ⟨-, hcrash, -⟩
    · exact absurd hheld hq.holdAfterPreset
    · exact absurd hcrash hq.survives
  | fails hhold hkey hback hcalls h => exact absurd (hcommits h) hq.answers
  | @started winner next rows hhold hhold' hwin hnot hback hrows =>
    refine ⟨rfl, herased, fun winner' next' hwin' => ?_⟩
    rw [hwin] at hwin'
    obtain ⟨rfl, rfl⟩ := Prod.mk.inj (Option.some.inj hwin')
    exact ⟨fun hcont => absurd hcont hnot, fun _ => ⟨winner.presetId, rfl⟩⟩
  | stopped hhold hwin =>
    refine ⟨rfl, herased, fun winner next hwin' => ?_⟩
    rw [hwin] at hwin'
    cases hwin'

/-- The window of the winner is open when it has won the transition before. -/
theorem Followed.continues_iff (h : s.Followed) (hm : s.Marked) {winner : ScheduleRecord}
    {next : WindowId}
    (hwin : winningWindow (s.evaluateSchedules intl ports accountId now) = some (winner, next)) :
    s.Continues accountId winner next ↔
      lastWinner (transitionsOf accountId s.history) = some next := by
  obtain ⟨⟨id, hrow⟩, rfl, -, hown, -⟩ := winningWindow_spec hwin
  obtain ⟨hid, -⟩ := hm.ids id winner hrow
  have hiff := h.isOpen_iff id winner next hrow
  constructor
  · rintro ⟨hopen, -⟩
    exact (hiff.mp hopen).1
  · intro hlast
    have hopen : winner.IsOpen next := hiff.mpr ⟨hlast, hown.trans hid⟩
    refine ⟨hopen, ?_⟩
    cases hmem : s.activeWindows.lookup winner.accountId with
    | none => exact .inr rfl
    | some w =>
      rw [hm.memory winner.accountId w id winner next hmem hrow rfl hopen]
      exact .inl rfl

theorem Followed.run (h : s.Followed) (hm : s.Marked) {tick : Tick} {p : Progress}
    (hq : ports.Quiet) (hp : Shape (s.takes tick accountId) accountId
      (s.evaluateSchedules intl ports accountId tick.now) tick.now ports p)
    (hl : (s.takes tick accountId).Leaves accountId
      ((winningWindow (s.evaluateSchedules intl ports accountId tick.now)).map (·.2)) p)
    (hran : Ran s (recordOf intl s accountId tick.now ports p) p t) : t.Followed := by
  obtain ⟨hdone, hfailed, hcalls⟩ := hp.quiet hq h.failed (hm.takes tick accountId).rejects_of_failure
  obtain ⟨hmoves, -⟩ := hl.done hdone
  cases hran with
  | dies hcrash =>
    rw [hdone] at hcrash
    cases hcrash
  | goes =>
    -- what is recorded of this account is the winner, and nothing of the others
    have hthis : transitionsOf accountId
        (.transition (recordOf intl s accountId tick.now ports p) :: s.history) =
          recordOf intl s accountId tick.now ports p :: transitionsOf accountId s.history :=
      transitionsOf_same rfl s.history
    have hother {other : AccountId} (hne : accountId ≠ other) : transitionsOf other
        (.transition (recordOf intl s accountId tick.now ports p) :: s.history) =
          transitionsOf other s.history := transitionsOf_other hne s.history
    constructor
    case failed => exact hfailed
    case isOpen_iff =>
      intro id row' w hrow'
      obtain ⟨row, hrow, -, haccount, hkept⟩ := hmoves.row id row' hrow'
      dsimp only
      by_cases hsame : accountId = row'.accountId
      · subst hsame
        rw [hthis]
        exact hmoves.isOpen_iff id row' w hrow' rfl
      · rw [hother hsame, hkept fun heq => hsame (haccount.trans heq).symm]
        exact h.isOpen_iff id row w hrow
    case drawn =>
      intro account w hlast
      dsimp only at hlast ⊢
      rw [show p.state.drawn = s.drawn from hl.drawn]
      by_cases hsame : accountId = account
      · subst hsame
        rw [hthis] at hlast
        obtain ⟨row', hrow', -⟩ := hmoves.isSome w hlast
        obtain ⟨row, hrow, -⟩ := hmoves.row w.scheduleId row' hrow'
        exact (hm.ids w.scheduleId row hrow).2
      · rw [hother hsame] at hlast
        exact h.drawn account w hlast
    case once =>
      intro account
      dsimp only
      by_cases hsame : accountId = account
      · subst hsame
        rw [hthis]
        refine ⟨fun w hw => ?_, h.once accountId⟩
        obtain ⟨⟨winner, next⟩, hwin, rfl⟩ := Option.map_eq_some_iff.mp hw
        have hiff := h.continues_iff hm hwin
        obtain ⟨hlater, hnow⟩ := hcalls winner next hwin
        exact ⟨fun hlast => hlater (hiff.mpr hlast), fun hlast => hnow fun hcont =>
          hlast (hiff.mp hcont)⟩
      · rw [hother hsame]
        exact h.once account

theorem Followed.step (h : s.Followed) (hm : s.Marked) (hq : a.Quiet)
    (hn : s.next intl a = some t) : t.Followed := by
  have hrows (id : ScheduleId) (row : ScheduleRecord) (hrow : s.rows.lookup id = some row) :
      s.drawn ≤ id ∧ (∀ w, ¬row.IsOpen w) ∨
        ∃ row₀, s.rows.lookup id = some row₀ ∧ SameMarkers row₀ row :=
    .inr ⟨row, hrow, sameMarkers_refl row⟩
  cases hm.effect hn with
  | edited hdrawn hold hkept => exact h.congr h.failed hold hdrawn fun _ => rfl
  | @cleared _ accountId skips hcause =>
    refine h.congr (fun other => ?_) hrows (Nat.le_refl _) fun _ => rfl
    show (s.failedTransitions.erase accountId).lookup other = none
    rw [Table.lookup_erase_eq, h.failed]
    exact ite_self none
  | restarted => exact h.congr (fun _ => AList.lookup_empty _) hrows (Nat.le_refl _) fun _ => rfl
  | began => exact h.congr h.failed hrows (Nat.le_refl _) fun _ => rfl
  | ended => exact h.congr h.failed hrows (Nat.le_refl _) fun _ => rfl
  | ran _ _ hp hl hran => exact h.run hm hq hp hl hran

theorem Followed.of_reachable
    (h : (scheduleMachine intl).ReachableWhen (fun _ a => a.Quiet) s) : s.Followed := by
  refine h.invariant_of (fun s hs => ?_) fun s a t hr hs hq hn =>
    hs.step (Marked.of_reachable hr) hq hn
  obtain rfl : s = Coordinator.empty := hs
  refine ⟨fun _ => AList.lookup_empty _, fun id row w hrow => ?_, fun _ _ hlast => ?_, fun _ => trivial⟩
  · rw [show Coordinator.empty.rows = ∅ from rfl, AList.lookup_empty] at hrow
    cases hrow
  · cases hlast

/-- The calls of a stretch of transitions with one winner. -/
theorem calls_of_stretch {stretch older : List TransitionRecord}
    (h : History.Each StartsOnce (stretch ++ older)) (hne : stretch ≠ [])
    (hwinner : ∀ r ∈ stretch, r.winner = some w) (hfirst : lastWinner older ≠ some w) :
    ∃ presetId, stretch.flatMap (·.calls) = [.applyPreset presetId, .resumeOrStart] := by
  induction stretch with
  | nil => exact absurd rfl hne
  | cons r stretch ih =>
    obtain ⟨hstarts, hrest⟩ := h
    obtain ⟨hlater, hnow⟩ := hstarts w (hwinner r List.mem_cons_self)
    cases stretch with
    | nil =>
      obtain ⟨presetId, hcalls⟩ := hnow hfirst
      exact ⟨presetId, by rw [List.flatMap_singleton, hcalls]⟩
    | cons r' stretch =>
      have hlast : lastWinner (r' :: stretch ++ older) = some w :=
        hwinner r' (List.mem_cons_of_mem _ List.mem_cons_self)
      rw [List.flatMap_cons, hlater hlast, List.nil_append]
      exact ih hrest (by simp) fun r hr => hwinner r (List.mem_cons_of_mem _ hr)

def HasWindow (s : Coordinator) (accountId : AccountId) (w : WindowId) : Prop :=
  s.activeWindows.lookup accountId = some w ∨ s.OpenIn accountId w

def StartedIn (history : List Event) (accountId : AccountId) (w : WindowId) : Prop :=
  ∃ r, .transition r ∈ history ∧ r.accountId = accountId ∧ r.winner = some w ∧ r.ended = .done ∧
    .resumeOrStart ∈ r.calls

theorem StartedIn.mono {history history' : List Event} (h : StartedIn history accountId w)
    (hsub : history ⊆ history') : StartedIn history' accountId w := by
  obtain ⟨r, hr, hrest⟩ := h
  exact ⟨r, hsub hr, hrest⟩

def Owned (s : Coordinator) : Prop :=
  ∀ accountId w, s.HasWindow accountId w → StartedIn s.history accountId w

theorem Owned.congr (h : s.Owned) (hhas : ∀ accountId w, t.HasWindow accountId w →
    s.HasWindow accountId w) (hhistory : s.history ⊆ t.history) : t.Owned :=
  fun accountId w hw => (h accountId w (hhas accountId w hw)).mono hhistory

theorem OpenIn.of_rows (hrows : ∀ id row', t.rows.lookup id = some row' → (∀ w, ¬row'.IsOpen w) ∨
    ∃ row, s.rows.lookup id = some row ∧ SameMarkers row row') (h : t.OpenIn accountId w) :
    s.OpenIn accountId w := by
  obtain ⟨id, row', hrow', haccount, hopen⟩ := h
  rcases hrows id row' hrow' with hclosed | ⟨row, hrow, hsame, hiff⟩
  · exact absurd hopen (hclosed w)
  · exact ⟨id, row, hrow, hsame.symm.trans haccount, (hiff w).mp hopen⟩

/-- What is done with a winner: its window was open, or it was started. -/
theorem Shape.continues_or_starts {p : Progress} (hp : Shape s accountId entries now ports p)
    (hdone : p.ended = .done) {winner : ScheduleRecord} {next : WindowId}
    (hwin : winningWindow entries = some (winner, next)) :
    s.Continues accountId winner next ∨ .resumeOrStart ∈ p.calls := by
  cases hp with
  | held => cases hdone
  | refused => cases hdone
  | crashed => cases hdone
  | backingOff => cases hdone
  | nothing hnone =>
    rw [hnone] at hwin
    cases hwin
  | kept hwin' hcont =>
    rw [hwin'] at hwin
    obtain ⟨rfl, rfl⟩ := Prod.mk.inj (Option.some.inj hwin)
    exact .inl hcont
  | stopsShort hhold hkey hback hcalls hended =>
    obtain rfl : _ = Ended.done := hdone
    rcases hended with ⟨hheld, -⟩ | ⟨hcrash, -⟩
    · cases hheld
    · cases hcrash
  | fails => cases hdone
  | started => exact .inr (by simp)
  | stopped hhold hnone =>
    rw [hnone] at hwin
    cases hwin

theorem Owned.run (h : s.Owned) {tick : Tick} {p : Progress}
    (hp : Shape (s.takes tick accountId) accountId
      (s.evaluateSchedules intl ports accountId tick.now) tick.now ports p)
    (hl : (s.takes tick accountId).Leaves accountId
      ((winningWindow (s.evaluateSchedules intl ports accountId tick.now)).map (·.2)) p)
    (hran : Ran s (recordOf intl s accountId tick.now ports p) p t) : t.Owned := by
  cases hran with
  | dies hcrash =>
    obtain ⟨hrows, -⟩ := hl.unchanged (by rw [hcrash]; simp)
    refine h.congr (fun account w hw => ?_)
      (List.subset_cons_of_subset _ (List.subset_cons_of_subset _ (List.Subset.refl _)))
    rcases hw with hmem | hopen
    · cases (AList.lookup_empty account).symm.trans hmem
    · refine .inr (hopen.of_rows fun id row' hrow' => .inr ⟨row', ?_, sameMarkers_refl row'⟩)
      exact (congrArg (AList.lookup id) hrows).symm.trans hrow'
  | goes =>
    have hkept : s.history ⊆ .transition (recordOf intl s accountId tick.now ports p) :: s.history :=
      List.subset_cons_of_subset _ (List.Subset.refl _)
    by_cases hdone : p.ended = .done
    · obtain ⟨hmoves, hmem⟩ := hl.done hdone
      intro account w hw
      by_cases hsame : account = accountId
      · subst hsame
        have hwinner : (winningWindow (s.evaluateSchedules intl ports account tick.now)).map (·.2) =
            some w := by
          rcases hw with hactive | ⟨id, row', hrow', haccount, hopen⟩
          · exact hmem.symm.trans hactive
          · exact ((hmoves.isOpen_iff id row' w hrow' haccount).mp hopen).1
        obtain ⟨⟨winner, next⟩, hwin, rfl⟩ := Option.map_eq_some_iff.mp hwinner
        rcases hp.continues_or_starts hdone hwin with hcont | hstarts
        · obtain ⟨⟨id, hrow⟩, haccount, -⟩ := winningWindow_spec hwin
          exact (h account next (.inr ⟨id, winner, hrow, haccount, hcont.1⟩)).mono hkept
        · exact ⟨_, List.mem_cons_self, rfl, hwinner, hdone, hstarts⟩
      · refine (h account w ?_).mono hkept
        rcases hw with hactive | ⟨id, row', hrow', haccount, hopen⟩
        · exact .inl ((hl.others account hsame).1.symm.trans hactive)
        · obtain ⟨row, hrow, -, haccount', heq⟩ := hmoves.row id row' hrow'
          obtain rfl := heq fun hthis => hsame (haccount.symm.trans (haccount'.trans hthis))
          exact .inr ⟨id, row', hrow, haccount, hopen⟩
    · obtain ⟨hrows, hactive⟩ := hl.unchanged hdone
      refine h.congr (fun account w hw => ?_) hkept
      rcases hw with hmem | hopen
      · exact .inl ((congrArg (AList.lookup account) hactive).symm.trans hmem)
      · refine .inr (hopen.of_rows fun id row' hrow' => .inr ⟨row', ?_, sameMarkers_refl row'⟩)
        exact (congrArg (AList.lookup id) hrows).symm.trans hrow'

theorem Owned.step (h : s.Owned) (hm : s.Marked) (hn : s.next intl a = some t) : t.Owned := by
  cases hm.effect hn with
  | edited hdrawn hold hkept =>
    refine h.congr (fun account w hw => ?_) (List.Subset.refl _)
    rcases hw with hmem | hopen
    · exact .inl hmem
    · exact .inr (hopen.of_rows fun id row' hrow' => (hold id row' hrow').imp_left And.right)
  | @cleared _ accountId skips hcause =>
    refine h.congr (fun account w hw => ?_) (List.subset_cons_of_subset _ (List.Subset.refl _))
    rcases hw with hmem | hopen
    · have hmem : (s.activeWindows.erase accountId).lookup account = some w := hmem
      rw [Table.lookup_erase_eq] at hmem
      split at hmem
      next => cases hmem
      next => exact .inl hmem
    · exact .inr hopen
  | restarted =>
    refine h.congr (fun account w hw => ?_) (List.subset_cons_of_subset _ (List.Subset.refl _))
    rcases hw with hmem | hopen
    · cases (AList.lookup_empty account).symm.trans hmem
    · exact .inr hopen
  | began => exact h.congr (fun _ _ hw => hw) (List.subset_cons_of_subset _ (List.Subset.refl _))
  | ended => exact h.congr (fun _ _ hw => hw) (List.subset_cons_of_subset _ (List.Subset.refl _))
  | ran _ _ hp hl hran => exact h.run hp hl hran

theorem Owned.of_reachable (h : (scheduleMachine intl).Reachable s) : s.Owned := by
  refine h.invariant_of (fun s hs => ?_) fun s a t hr hs _ hn =>
    hs.step (Marked.of_reachable hr) hn
  obtain rfl : s = Coordinator.empty := hs
  rintro account w (hmem | ⟨id, row, hrow, -⟩)
  · cases (AList.lookup_empty account).symm.trans hmem
  · cases (AList.lookup_empty id).symm.trans hrow

inductive FailuresAfter (s : Coordinator) (accountId : AccountId) (now : ℤ) (p : Progress) : Prop where
  | kept (hstate : p.state.failedTransitions = s.failedTransitions)
    (h : p.attempt = none ∨ p.ended = .held ∨ p.ended = .crashed)
  | failed {key : RetryKey} (hattempt : p.attempt = some key) (hended : p.ended = .failed)
    (hstate : p.state.failedTransitions =
      (s.recordTransitionFailure accountId key now).failedTransitions)
  | done {key : RetryKey} (hattempt : p.attempt = some key) (hended : p.ended = .done)
    (hstate : p.state.failedTransitions = s.failedTransitions.erase accountId)

theorem Shape.failuresAfter {p : Progress} (hp : Shape s accountId entries now ports p) :
    FailuresAfter s accountId now p := by
  cases hp with
  | held => exact .kept rfl (.inl rfl)
  | refused => exact .kept rfl (.inl rfl)
  | crashed => exact .kept rfl (.inl rfl)
  | backingOff => exact .kept rfl (.inl rfl)
  | nothing => exact .kept rfl (.inl rfl)
  | kept => exact .kept rfl (.inl rfl)
  | stopsShort hhold hkey hback hcalls hended =>
    rcases hended with ⟨hheld, -⟩ | ⟨hcrash, -⟩
    · exact .kept rfl (.inr (.inl hheld))
    · exact .kept rfl (.inr (.inr hcrash))
  | fails => exact .failed rfl rfl rfl
  | started => exact .done rfl rfl rfl
  | stopped => exact .done rfl rfl rfl

/-- An attempt is made after the back-off of its transition. -/
theorem Shape.not_isBackingOff {p : Progress} (hp : Shape s accountId entries now ports p)
    {key : RetryKey} (hattempt : p.attempt = some key) : s.isBackingOff accountId key now = false := by
  cases hp with
  | held => cases hattempt
  | refused => cases hattempt
  | crashed => cases hattempt
  | backingOff => cases hattempt
  | nothing => cases hattempt
  | kept => cases hattempt
  | stopsShort hhold hkey hback =>
    obtain rfl := Option.some.inj hattempt
    exact hback
  | fails hhold hkey hback =>
    obtain rfl := Option.some.inj hattempt
    exact hback
  | started hhold hhold' hwin hnot hback =>
    obtain rfl := Option.some.inj hattempt
    exact hback
  | stopped hhold hwin hnot hback =>
    obtain rfl := Option.some.inj hattempt
    exact hback

def Remembers (s : Coordinator) : Prop :=
  ∀ accountId key, ((s.failedTransitions.lookup accountId).filter fun f => f.key = key) =
    failureAfter key (consecutiveFailures accountId key s.history)

theorem recordTransitionFailure_lookup {key key' : RetryKey} {times : List ℤ}
    (h : ((s.failedTransitions.lookup accountId).filter fun f => f.key = key) =
      failureAfter key times) :
    (((s.recordTransitionFailure accountId key' now).failedTransitions.lookup accountId).filter
      fun f => f.key = key) = failureAfter key (if key' = key then now :: times else []) := by
  unfold recordTransitionFailure
  dsimp only
  rw [AList.lookup_insert]
  by_cases hkey : key' = key
  · subst hkey
    rw [if_pos rfl, Option.filter_some_pos (by simp)]
    cases hlookup : s.failedTransitions.lookup accountId with
    | none =>
      rw [hlookup] at h
      cases times with
      | nil => rfl
      | cons => cases h
    | some previous =>
      rw [hlookup] at h
      dsimp only
      by_cases hprevious : previous.key = key'
      · rw [Option.filter_some_pos (by simpa using hprevious)] at h
        cases times with
        | nil => cases h
        | cons failedAt earlier =>
          rw [if_pos hprevious, Option.some.inj h]
          rfl
      · rw [Option.filter_some_neg (by simpa using hprevious)] at h
        cases times with
        | nil =>
          rw [if_neg hprevious]
          rfl
        | cons => cases h
  · rw [if_neg hkey, Option.filter_some_neg (by simpa using hkey)]
    rfl

theorem Remembers.forget (hfailed : t.failedTransitions = ∅) {older : List Event}
    (hhistory : t.history = .restarted :: older) : t.Remembers := by
  intro account key
  rw [hfailed, hhistory, AList.lookup_empty]
  rfl

theorem Remembers.run (h : s.Remembers) {tick : Tick} {p : Progress}
    (hp : Shape (s.takes tick accountId) accountId
      (s.evaluateSchedules intl ports accountId tick.now) tick.now ports p)
    (hl : (s.takes tick accountId).Leaves accountId
      ((winningWindow (s.evaluateSchedules intl ports accountId tick.now)).map (·.2)) p)
    (hran : Ran s (recordOf intl s accountId tick.now ports p) p t) : t.Remembers := by
  cases hran with
  | dies => exact .forget rfl rfl
  | goes hgoes =>
    intro account key
    show ((p.state.failedTransitions.lookup account).filter fun f => f.key = key) = _
    unfold consecutiveFailures
    by_cases hsame : accountId = account
    · subst hsame
      rw [show (recordOf intl s accountId tick.now ports p).accountId = accountId from rfl,
        if_pos rfl, show (recordOf intl s accountId tick.now ports p).attempt = p.attempt from rfl,
        show (recordOf intl s accountId tick.now ports p).ended = p.ended from rfl]
      cases hp.failuresAfter with
      | kept hstate hquiet =>
        rw [hstate]
        rcases hquiet with hattempt | hended | hended
        · rw [hattempt]
          exact h accountId key
        · rw [hended]
          cases p.attempt with
          | none => exact h accountId key
          | some tried => exact h accountId key
        · exact absurd hended hgoes
      | failed hattempt hended hstate =>
        rw [hattempt, hended, hstate]
        exact recordTransitionFailure_lookup (s := s) (h accountId key)
      | done hattempt hended hstate =>
        rw [hattempt, hended, hstate, AList.lookup_erase]
        rfl
    · rw [if_neg (show ¬(recordOf intl s accountId tick.now ports p).accountId = account from hsame),
        (hl.others account (Ne.symm hsame)).2]
      exact h account key

theorem Remembers.step (h : s.Remembers) (hm : s.Marked) (hn : s.next intl a = some t) :
    t.Remembers := by
  cases hm.effect hn with
  | edited => exact h
  | @cleared _ accountId skips hcause =>
    intro account key
    show (((s.failedTransitions.erase accountId).lookup account).filter fun f => f.key = key) =
      failureAfter key (if accountId = account then [] else consecutiveFailures account key s.history)
    rw [Table.lookup_erase_eq]
    by_cases hsame : account = accountId
    · rw [if_pos hsame, if_pos hsame.symm]
      rfl
    · rw [if_neg hsame, if_neg (Ne.symm hsame)]
      exact h account key
  | restarted => exact .forget rfl rfl
  | began => exact h
  | ended => exact h
  | ran _ _ hp hl hran => exact h.run hp hl hran

theorem Remembers.of_reachable (h : (scheduleMachine intl).Reachable s) : s.Remembers := by
  refine h.invariant_of (fun s hs => ?_) fun s a t hr hs _ hn =>
    hs.step (Marked.of_reachable hr) hn
  obtain rfl : s = Coordinator.empty := hs
  intro account key
  rw [show Coordinator.empty.failedTransitions = ∅ from rfl, AList.lookup_empty]
  rfl

theorem Attempts.not_idle {key : RetryKey} {calls : List PortCall}
    (hkey : s.Attempts accountId entries key) (hcalls : CallsOf ports key calls)
    (hpause : .pause ∈ calls) : ¬s.Idle accountId entries := by
  cases hkey with
  | start => exact absurd hpause hcalls.1
  | pause hwin hnot => exact hnot

theorem Attempts.winner {key : RetryKey} {calls : List PortCall}
    (hkey : s.Attempts accountId entries key) (hcalls : CallsOf ports key calls) {call : PortCall}
    (hmem : call ∈ calls) (hne : call ≠ .pause) :
    (∃ winner next, winningWindow entries = some (winner, next)) ∧
      (call = .resumeOrStart → ports.holdAfterPreset = .returns false) := by
  cases hkey with
  | start hwin hnot =>
    refine ⟨⟨_, _, hwin⟩, ?_⟩
    rintro rfl
    exact hcalls.2 hmem
  | pause =>
    rcases hcalls with rfl | rfl
    · cases hmem
    · exact absurd (List.mem_singleton.mp hmem) hne

/-- An account is paused when a window is open. -/
theorem Shape.not_idle {p : Progress} (hp : Shape s accountId entries now ports p)
    (hpause : .pause ∈ p.calls) : ¬s.Idle accountId entries := by
  cases hp with
  | held => cases hpause
  | refused => cases hpause
  | crashed => cases hpause
  | backingOff => cases hpause
  | nothing => cases hpause
  | kept => cases hpause
  | stopsShort hhold hkey hback hcalls => exact hkey.not_idle hcalls hpause
  | fails hhold hkey hback hcalls => exact hkey.not_idle hcalls hpause
  | started => simp at hpause
  | stopped hhold hwin hnot => exact hnot

/-- A start has a winner and no hold. -/
theorem Shape.winner {p : Progress} (hp : Shape s accountId entries now ports p) {call : PortCall}
    (hmem : call ∈ p.calls) (hne : call ≠ .pause) :
    ports.activeHold = .returns false ∧
      (∃ winner next, winningWindow entries = some (winner, next)) ∧
      (call = .resumeOrStart → ports.holdAfterPreset = .returns false) := by
  cases hp with
  | held => cases hmem
  | refused => cases hmem
  | crashed => cases hmem
  | backingOff => cases hmem
  | nothing => cases hmem
  | kept => cases hmem
  | stopsShort hhold hkey hback hcalls => exact ⟨hhold, hkey.winner hcalls hmem hne⟩
  | fails hhold hkey hback hcalls => exact ⟨hhold, hkey.winner hcalls hmem hne⟩
  | started hhold hhold' hwin => exact ⟨hhold, ⟨_, _, hwin⟩, fun _ => hhold'⟩
  | stopped hhold hwin hnot hback hcalls =>
    rcases hcalls with rfl | ⟨rfl, -⟩
    · exact absurd (List.mem_singleton.mp hmem) hne
    · cases hmem

theorem hasWindow_of_not_idle
    (h : ¬s.Idle accountId (s.evaluateSchedules intl ports accountId now)) :
    ∃ w, s.HasWindow accountId w := by
  cases hmem : s.activeWindows.lookup accountId with
  | some w => exact ⟨w, .inl hmem⟩
  | none =>
    have hopen : openScheduleWindows (s.evaluateSchedules intl ports accountId now) ≠ [] :=
      fun hnone => h ⟨hmem, hnone⟩
    obtain ⟨ow, how⟩ := List.exists_mem_of_ne_nil _ hopen
    obtain ⟨id, row, hrow, haccount, -, hisOpen⟩ := mem_openScheduleWindows.mp how
    exact ⟨ow.windowId, .inr ⟨id, row, hrow, haccount, hisOpen⟩⟩

theorem Remembers.retryAt (h : s.Remembers) {key : RetryKey} {failedAt : ℤ} {earlier : List ℤ}
    (hback : s.isBackingOff accountId key now = false)
    (hfailures : consecutiveFailures accountId key s.history = failedAt :: earlier) :
    failedAt + min (scheduleIntervalMs * 2 ^ earlier.length) maxRetryDelayMs ≤ now := by
  have hmem := h accountId key
  rw [hfailures] at hmem
  obtain ⟨hlookup, -⟩ := Option.filter_eq_some_iff.mp hmem
  unfold isBackingOff at hback
  rw [hlookup] at hback
  simpa using hback

/-- In runs without failures and holds the calls of a stretch of transitions with one winner
are one preset and one start, whatever restarts and edits fall between. In every run an
account is paused only while a window is open that was started by the scheduler; a start has
no hold and no window that was looked up as skipped; and an attempt waits for the back-off of
the consecutive failures of its transition. -/
theorem acts_on_own_windows (intl : Intl) :
    (∀ s, (scheduleMachine intl).ReachableWhen (fun _ a => a.Quiet) s →
      ∀ accountId w newer stretch older,
        transitionsOf accountId s.history = newer ++ stretch ++ older → stretch ≠ [] →
        (∀ r ∈ stretch, r.winner = some w) → lastWinner older ≠ some w →
        ∃ presetId, stretch.flatMap (·.calls) = [.applyPreset presetId, .resumeOrStart]) ∧
    ∀ s, (scheduleMachine intl).Reachable s → ∀ accountId ports tick t, s.tick = some tick →
      s.next intl (.runAccount accountId ports) = some t →
      ∃ r, (t.history = .transition r :: s.history ∨
          t.history = .restarted :: .transition r :: s.history) ∧
        r.accountId = accountId ∧ r.now = tick.now ∧
        (.pause ∈ r.calls →
          ∃ w, s.HasWindow accountId w ∧ StartedIn s.history accountId w) ∧
        (∀ call ∈ r.calls, call ≠ .pause → ports.activeHold = .returns false ∧
          (call = .resumeOrStart → ports.holdAfterPreset = .returns false) ∧
          ∃ w, r.winner = some w ∧ (ports.skipLookupFails w.scheduleId = false →
            (accountId, w.scheduleId, w) ∉ s.skips)) ∧
        ∀ key failedAt earlier, r.attempt = some key →
          consecutiveFailures accountId key s.history = failedAt :: earlier →
          failedAt + min (scheduleIntervalMs * 2 ^ earlier.length) maxRetryDelayMs ≤ r.now := by
  refine ⟨fun s h accountId w newer stretch older hsplit hne hwinner hfirst => ?_, ?_⟩
  · have honce := (Followed.of_reachable h).once accountId
    rw [hsplit, List.append_assoc] at honce
    exact calls_of_stretch honce.of_append hne hwinner hfirst
  · intro s h accountId ports tick t htick hn
    have hm := Marked.of_reachable h
    have howned := Owned.of_reachable h
    have hremembers := Remembers.of_reachable h
    obtain ⟨tick', p, htick', -, hp, hl, hran⟩ := hm.ran hn
    obtain rfl : tick = tick' := Option.some.inj (htick.symm.trans htick')
    refine ⟨recordOf intl s accountId tick.now ports p, ?_, rfl, rfl, fun hpause => ?_,
      fun call hcall hne => ?_, fun key failedAt earlier hattempt hfailures => ?_⟩
    · cases hran with
      | goes => exact .inl rfl
      | dies => exact .inr rfl
    · obtain ⟨w, hw⟩ := hasWindow_of_not_idle (hp.not_idle hpause)
      exact ⟨w, hw, howned accountId w hw⟩
    · obtain ⟨hhold, ⟨winner, next, hwin⟩, hhold'⟩ := hp.winner hcall hne
      obtain ⟨-, -, -, hown, hskip⟩ := winningWindow_spec hwin
      refine ⟨hhold, hhold', next, congrArg (Option.map Prod.snd) hwin, fun hlookup => ?_⟩
      rw [hown] at hlookup ⊢
      exact of_decide_eq_false (hskip hlookup)
    · exact Remembers.retryAt (s := s) hremembers (hp.not_isBackingOff hattempt) hfailures

def refusingStart : Ports := { finePorts with resumeOrStart := .rejects }

theorem finePorts_quiet : finePorts.Quiet := by
  refine ⟨?_, ?_, ?_, ?_, fun _ => rfl⟩
  · simp [Ports.Rejects, finePorts]
  · simp [Ports.Crashes, finePorts]
  · simp [finePorts]
  · simp [finePorts]

def retried : List Action :=
  [createMorning, .beginTick 36000000, .runAccount 1 refusingStart, .endTick, .beginTick 36060000]

/-- The window of the morning is started before a restart and left alone after it; a start that
has failed is tried again after a minute. -/
theorem acts_on_own_windows_morning :
    (∃ presetId, (transitionsOf 1 (stateAfter [createMorning, .beginTick 36000000,
      .runAccount 1 finePorts, .endTick, .restart, .beginTick 36060000,
      .runAccount 1 finePorts]).history).flatMap (·.calls) = [.applyPreset presetId, .resumeOrStart]) ∧
    consecutiveFailures 1 (.start 0 morning) (stateAfter retried).history = [36000000] ∧
    (36000000 : ℤ) + min (scheduleIntervalMs * 2 ^ 0) maxRetryDelayMs ≤ 36060000 := by
  refine ⟨?_, by decide, ?_⟩
  · refine (acts_on_own_windows greenwich).1 _ (Transition.Machine.reachableWhen_exec ?_ rfl (by decide))
      1 morning [] _ [] (List.append_nil _).symm (by decide) (by decide) (by decide)
    simp [Action.Quiet, finePorts_quiet, createMorning]
  · have hr : (scheduleMachine greenwich).Reachable (stateAfter retried) :=
      Transition.Machine.reachable_exec rfl (by decide)
    obtain ⟨r, hhistory, -, -, -, -, hback⟩ := (acts_on_own_windows greenwich).2 _ hr 1 finePorts
      ⟨36060000, [1]⟩ (stateAfter (retried ++ [.runAccount 1 finePorts])) (by decide) rfl
    obtain rfl : r = ⟨1, 36060000, false, some morning, some (.start 0 morning),
        [.applyPreset 5, .resumeOrStart], .done⟩ := by
      rcases hhistory with hhistory | hhistory
      · exact Event.transition.inj (List.cons.inj hhistory).1.symm
      · cases (List.cons.inj hhistory).1
    exact hback (.start 0 morning) 36000000 [] rfl (by decide)

/-- A restart clears the back-off of a start that has failed, and a restart within a start,
before it is committed, repeats it. -/
theorem restart_forgets :
    (∃ s r r', (scheduleMachine greenwich).Reachable s ∧ transitionsOf 1 s.history = [r', r] ∧
      .cleared 1 ∉ s.history ∧ r.attempt = some (.start 0 morning) ∧ r.ended = .failed ∧
      r'.attempt = some (.start 0 morning) ∧ r'.now < r.now + scheduleIntervalMs) ∧
    ∃ s, (scheduleMachine greenwich).Reachable s ∧
      (∀ r ∈ transitionsOf 1 s.history, r.winner = some morning) ∧
      (transitionsOf 1 s.history).flatMap (·.calls) =
        [.applyPreset 5, .resumeOrStart, .applyPreset 5, .resumeOrStart] := by
  refine ⟨⟨stateAfter [createMorning, .beginTick 36000000, .runAccount 1 refusingStart, .restart,
      .beginTick 36001000, .runAccount 1 finePorts],
    ⟨1, 36000000, false, some morning, some (.start 0 morning),
      [.applyPreset 5, .resumeOrStart], .failed⟩,
    ⟨1, 36001000, false, some morning, some (.start 0 morning),
      [.applyPreset 5, .resumeOrStart], .done⟩, ?_, by decide, by decide, rfl, rfl, rfl, by decide⟩,
    stateAfter [createMorning, .beginTick 36000000,
      .runAccount 1 { finePorts with commitStartedWindow := .crashes }, .beginTick 36060000,
      .runAccount 1 finePorts], ?_, by decide, by decide⟩
  · exact Transition.Machine.reachable_exec rfl (by decide)
  · exact Transition.Machine.reachable_exec rfl (by decide)

end Coordinator
end SteamBee.Schedule
