import SteamBee.Schedule.Starts

/-! What the scheduler has started is paused by the end of the first tick without a winner, as
long as the window of every started account is in memory or in a row. -/
namespace SteamBee.Schedule

def TransitionRecord.Stops (r : TransitionRecord) : Prop :=
  .pause ∈ r.calls ∨ r.attempt = some .pause ∧ r.ended = .done

def Opened : List TransitionRecord → Prop
  | [] => False
  | r :: older => .resumeOrStart ∈ r.calls ∨ ¬r.Stops ∧ Opened older

def TransitionRecord.Excused (r : TransitionRecord) : Prop :=
  r.winner ≠ none ∨ r.ended = .held ∨ r.ended = .backingOff

def tickRecords (accountId : AccountId) : List Event → List TransitionRecord
  | [] => []
  | .tickBegan _ :: _ => []
  | .transition r :: older =>
    if r.accountId = accountId then r :: tickRecords accountId older
    else tickRecords accountId older
  | .tickEnded :: older => tickRecords accountId older
  | .cleared _ :: older => tickRecords accountId older
  | .restarted :: older => tickRecords accountId older

theorem tickRecords_same {accountId : AccountId} {r : TransitionRecord}
    (h : r.accountId = accountId) (history : List Event) :
    tickRecords accountId (.transition r :: history) = r :: tickRecords accountId history :=
  if_pos h

theorem tickRecords_other {accountId : AccountId} {r : TransitionRecord}
    (h : r.accountId ≠ accountId) (history : List Event) :
    tickRecords accountId (.transition r :: history) = tickRecords accountId history :=
  if_neg h

/-- No manual command, and no port that fails. -/
def Action.Unattended : Action → Prop
  | .clearAccount _ => False
  | .runAccount _ ports => ¬ports.Rejects
  | _ => True

namespace Coordinator
open ScheduleRecord
variable {intl : Intl} {s t : Coordinator} {a : Action} {ports : Ports} {accountId : AccountId}
  {entries : List ScheduleEntry} {now : ℤ} {w : WindowId}

/-- What the account has in memory it has in a row as well. -/
def Stored (s : Coordinator) (accountId : AccountId) : Prop :=
  s.activeWindows.lookup accountId ≠ none → ∃ w, s.OpenIn accountId w

/-- No started account loses its window from memory and rows: memory is cleared where a row
is open, an open row is deleted where the memory has a window, and the process does not end
between a start and its commit. -/
def KeepsWindows (s : Coordinator) : Action → Prop
  | .restart => ∀ accountId, s.Stored accountId
  | .skip scheduleId _ => ∀ row, s.rows.lookup scheduleId = some row → s.Stored row.accountId
  | .delete scheduleId => ∀ row w, s.rows.lookup scheduleId = some row → row.IsOpen w →
    s.activeWindows.lookup row.accountId ≠ none
  | .runAccount _ ports =>
    ports.commitStartedWindow ≠ .crashes ∧ (ports.Crashes → ∀ accountId, s.Stored accountId)
  | _ => True

/-- A transition without a failing port: it starts a winner and is done, and without a winner
it stops what is open. -/
theorem Shape.unattended {p : Progress} (hp : Shape s accountId entries now ports p)
    (hrejects : ¬ports.Rejects) (hcommit : ports.commitStartedWindow ≠ .crashes)
    (hcommits : s.Failure accountId entries ports → ports.Rejects) :
    p.ended ≠ .failed ∧ (p.ended = .crashed → ports.Crashes) ∧
      (.resumeOrStart ∈ p.calls → p.ended = .done) ∧
      (p.ended = .done → winningWindow entries = none →
        p.attempt = some .pause ∨ s.Idle accountId entries) := by
  cases hp with
  | held => exact ⟨by simp [finishes], by simp [finishes], by simp [finishes], by simp [finishes]⟩
  | refused h => exact absurd (hcommits h) hrejects
  | crashed h => exact ⟨by simp [finishes], fun _ => h, by simp [finishes], by simp [finishes]⟩
  | backingOff =>
    exact ⟨by simp [finishes], by simp [finishes], by simp [finishes], by simp [finishes]⟩
  | nothing hwin hidle =>
    exact ⟨by simp [finishes], by simp [finishes], fun _ => rfl, fun _ _ => .inr hidle⟩
  | kept hwin =>
    refine ⟨by simp [finishes], by simp [finishes], fun _ => rfl, fun _ hnone => ?_⟩
    rw [hwin] at hnone
    cases hnone
  | stopsShort hhold hkey hback hcalls hended =>
    rcases hended with ⟨rfl, hheld⟩ | ⟨rfl, hcrash, hlate⟩
    · refine ⟨by simp, by simp, fun hstart => ?_, by simp⟩
      have hfree := (hkey.winner hcalls hstart (by simp)).2 rfl
      rw [hheld] at hfree
      cases hfree
    · exact ⟨by simp, fun _ => hcrash, fun hstart => absurd (hlate hstart) hcommit, by simp⟩
  | fails hhold hkey hback hcalls h => exact absurd (hcommits h) hrejects
  | started hhold hhold' hwin =>
    refine ⟨by simp, by simp, fun _ => rfl, fun _ hnone => ?_⟩
    rw [hwin] at hnone
    cases hnone
  | stopped => exact ⟨by simp, by simp, fun _ => rfl, fun _ _ => .inl rfl⟩

theorem not_hasWindow_of_idle
    (h : s.Idle accountId (s.evaluateSchedules intl ports accountId now)) :
    ¬s.HasWindow accountId w := by
  rintro (hmem | ⟨id, row, hrow, haccount, hopen⟩)
  · rw [h.1] at hmem
    cases hmem
  · have how : (⟨row.id, w⟩ : OpenScheduleWindow) ∈
        openScheduleWindows (s.evaluateSchedules intl ports accountId now) :=
      mem_openScheduleWindows.mpr ⟨id, row, hrow, haccount, rfl, hopen⟩
    rw [h.2] at how
    cases how

/-- Started accounts have a window in memory or in a row; in a tick they have their turn still
to come, or have had it with a winner, a hold or a back-off. -/
structure Closing (s : Coordinator) : Prop where
  window : ∀ accountId, Opened (transitionsOf accountId s.history) → ∃ w, s.HasWindow accountId w
  tick : ∀ tick, s.tick = some tick → ∀ accountId, Opened (transitionsOf accountId s.history) →
    accountId ∈ tick.pending ∨ ∃ r ∈ tickRecords accountId s.history, r.Excused
  ended : ∀ older, s.history = .tickEnded :: older → ∀ accountId,
    Opened (transitionsOf accountId older) → ∃ r ∈ tickRecords accountId older, r.Excused

theorem mem_pending (h : s.HasWindow accountId w) :
    accountId ∈ (s.rows.listAccountIds ++ s.activeWindows.entries.map fun e => e.1).dedup := by
  rw [List.mem_dedup, List.mem_append]
  rcases h with hmem | ⟨id, row, hrow, haccount, -⟩
  · exact .inr (List.mem_map.mpr ⟨⟨accountId, w⟩, Table.lookup_eq_some_iff.mp hmem, rfl⟩)
  · refine .inl (List.mem_dedup.mpr (List.mem_map.mpr ⟨row, ?_, haccount⟩))
    exact Rows.mem_schedules.mpr ⟨id, hrow⟩

/-- The transitions of other accounts leave a window where it is. -/
theorem HasWindow.of_leaves {window : Option WindowId} {p : Progress}
    (hl : s.Leaves accountId window p) {other : AccountId} (hne : other ≠ accountId)
    (h : s.HasWindow other w) : p.state.HasWindow other w := by
  by_cases hdone : p.ended = .done
  · rcases h with hmem | ⟨id, row, hrow, haccount, hopen⟩
    · exact .inl ((hl.others other hne).1.trans hmem)
    · refine .inr ⟨id, row, (hl.done hdone).1.kept id row hrow ?_, haccount, hopen⟩
      rw [haccount]
      exact hne
  · obtain ⟨hrows, hactive⟩ := hl.unchanged hdone
    unfold HasWindow OpenIn
    rw [hrows, hactive]
    exact h

theorem Closing.run (h : s.Closing) {tick : Tick} {p : Progress} (htick : s.tick = some tick)
    (hrejects : ¬ports.Rejects) (hkeeps : s.KeepsWindows (.runAccount accountId ports))
    (hm : s.Marked)
    (hp : Shape (s.takes tick accountId) accountId
      (s.evaluateSchedules intl ports accountId tick.now) tick.now ports p)
    (hl : (s.takes tick accountId).Leaves accountId
      ((winningWindow (s.evaluateSchedules intl ports accountId tick.now)).map (·.2)) p)
    (hran : Ran s (recordOf intl s accountId tick.now ports p) p t) : t.Closing := by
  obtain ⟨hcommit, hstored⟩ := hkeeps
  obtain ⟨hfailed, hcrashes, hstarts, hcloses⟩ :=
    hp.unattended hrejects hcommit (hm.takes tick accountId).rejects_of_failure
  have hthis : transitionsOf accountId
      (.transition (recordOf intl s accountId tick.now ports p) :: s.history) =
        recordOf intl s accountId tick.now ports p :: transitionsOf accountId s.history :=
    transitionsOf_same rfl s.history
  have hother {other : AccountId} (hne : other ≠ accountId) : transitionsOf other
      (.transition (recordOf intl s accountId tick.now ports p) :: s.history) =
        transitionsOf other s.history := transitionsOf_other (Ne.symm hne) s.history
  -- a transition that is not done has started nothing
  have hbefore (hdone : p.ended ≠ .done)
      (hopened : Opened (recordOf intl s accountId tick.now ports p ::
        transitionsOf accountId s.history)) : Opened (transitionsOf accountId s.history) := by
    rcases hopened with hstart | ⟨-, hopened⟩
    · exact absurd (hstarts hstart) hdone
    · exact hopened
  -- a transition that is done without a winner has stopped the account, or found it stopped
  have hclosed (hdone : p.ended = .done)
      (hnone : winningWindow (s.evaluateSchedules intl ports accountId tick.now) = none) :
      ¬Opened (recordOf intl s accountId tick.now ports p ::
        transitionsOf accountId s.history) := by
    rintro (hstart | ⟨hstops, hopened⟩)
    · obtain ⟨-, ⟨winner, next, hwin⟩, -⟩ := hp.winner hstart (by simp)
      rw [hnone] at hwin
      cases hwin
    · rcases hcloses hdone hnone with hpause | hidle
      · exact hstops (.inr ⟨hpause, hdone⟩)
      · obtain ⟨w, hw⟩ := h.window accountId hopened
        exact not_hasWindow_of_idle (s := s) hidle hw
  cases hran with
  | dies hcrash =>
    have hdone : p.ended ≠ .done := by simp [hcrash]
    obtain ⟨hrows, -⟩ := hl.unchanged hdone
    refine ⟨fun account hopened => ?_, fun _ htick => (by cases htick), fun _ hhead => (by cases hhead)⟩
    have hopened : Opened (transitionsOf account s.history) := by
      by_cases hsame : account = accountId
      · subst hsame
        exact hbefore hdone (hthis ▸ hopened)
      · exact hother hsame ▸ hopened
    obtain ⟨w, hopen⟩ : ∃ w, s.OpenIn account w := by
      obtain ⟨w, hmem | hopen⟩ := h.window account hopened
      · exact hstored (hcrashes hcrash) account (by simp [hmem])
      · exact ⟨w, hopen⟩
    refine ⟨w, .inr ?_⟩
    unfold OpenIn
    dsimp only
    rw [hrows]
    exact hopen
  | goes hgoes =>
    refine ⟨fun account hopened => ?_, fun tick' htick' account hopened => ?_,
      fun _ hhead => (by cases hhead)⟩
    · by_cases hsame : account = accountId
      · subst hsame
        have hopened := hthis ▸ hopened
        by_cases hdone : p.ended = .done
        · cases hwin : winningWindow (s.evaluateSchedules intl ports account tick.now) with
          | none => exact absurd hopened (hclosed hdone hwin)
          | some pair =>
            have hmem := (hl.done hdone).2
            rw [hwin] at hmem
            exact ⟨pair.2, .inl hmem⟩
        · obtain ⟨w, hw⟩ := h.window account (hbefore hdone hopened)
          obtain ⟨hrows, hactive⟩ := hl.unchanged hdone
          refine ⟨w, ?_⟩
          unfold HasWindow OpenIn
          dsimp only
          rw [hrows, hactive]
          exact hw
      · obtain ⟨w, hw⟩ := h.window account (hother hsame ▸ hopened)
        exact ⟨w, HasWindow.of_leaves hl hsame hw⟩
    · obtain rfl : { tick with pending := tick.pending.erase accountId } = tick' :=
        Option.some.inj (hl.tick.symm.trans htick')
      by_cases hsame : account = accountId
      · subst hsame
        have hopened := hthis ▸ hopened
        refine .inr ⟨recordOf intl s account tick.now ports p, ?_, ?_⟩
        · have hhead : tickRecords account
              (.transition (recordOf intl s account tick.now ports p) :: s.history) =
                recordOf intl s account tick.now ports p :: tickRecords account s.history :=
            tickRecords_same rfl s.history
          dsimp only
          rw [hhead]
          exact List.mem_cons_self
        · show (winningWindow (s.evaluateSchedules intl ports account tick.now)).map (·.2) ≠ none ∨
            p.ended = .held ∨ p.ended = .backingOff
          cases hended : p.ended with
          | done =>
            refine .inl fun hnone => ?_
            exact hclosed hended (Option.map_eq_none_iff.mp hnone) hopened
          | held => exact .inr (.inl rfl)
          | backingOff => exact .inr (.inr rfl)
          | failed => exact absurd hended hfailed
          | crashed => exact absurd hended hgoes
      · rcases h.tick tick htick account (hother hsame ▸ hopened) with hpending | ⟨r, hr, hexcused⟩
        · exact .inl ((List.mem_erase_of_ne hsame).mpr hpending)
        · refine .inr ⟨r, ?_, hexcused⟩
          dsimp only
          rw [tickRecords_other (Ne.symm hsame)]
          exact hr

/-- The tick and the history go on without a transition. -/
theorem Closing.congr (h : s.Closing) {e : Event} (he : e.Silent) (hhistory : t.history = e :: s.history)
    (hwindow : ∀ accountId w, Opened (transitionsOf accountId s.history) →
      s.HasWindow accountId w → ∃ w', t.HasWindow accountId w')
    (htick : ∀ tick, t.tick = some tick → ∀ accountId, (∃ w, s.HasWindow accountId w) →
      Opened (transitionsOf accountId s.history) →
      accountId ∈ tick.pending ∨ ∃ r ∈ tickRecords accountId t.history, r.Excused)
    (hended : ∀ older, t.history = .tickEnded :: older → ∀ accountId,
      Opened (transitionsOf accountId older) → ∃ r ∈ tickRecords accountId older, r.Excused) :
    t.Closing := by
  have hsame (accountId : AccountId) :
      transitionsOf accountId t.history = transitionsOf accountId s.history := by
    rw [hhistory, transitionsOf_silent he]
  refine ⟨fun account hopened => ?_, fun tick ht account hopened => ?_, hended⟩
  · rw [hsame] at hopened
    obtain ⟨w, hw⟩ := h.window account hopened
    exact hwindow account w hopened hw
  · rw [hsame] at hopened
    exact htick tick ht account (h.window account hopened) hopened

theorem HasWindow.stored {accountId : AccountId} (h : s.HasWindow accountId w)
    (hstored : s.Stored accountId) : ∃ w, s.OpenIn accountId w := by
  rcases h with hmem | hopen
  · exact hstored (by simp [hmem])
  · exact ⟨w, hopen⟩

theorem Closing.step (h : s.Closing) (hm : s.Marked) (ha : a.Unattended) (hk : s.KeepsWindows a)
    (hn : s.next intl a = some t) : t.Closing := by
  cases hm.effect hn with
  | edited hdrawn hold hkept =>
    refine ⟨fun account hopened => ?_, h.tick, h.ended⟩
    obtain ⟨w, hmem | ⟨id, row, hrow, haccount, hopen⟩⟩ := h.window account hopened
    · exact ⟨w, .inl hmem⟩
    · rcases hkept id row hrow with rfl | ⟨row', hrow', hsame, hiff⟩
      · subst haccount
        obtain ⟨w', hw'⟩ := Option.ne_none_iff_exists'.mp (hk row w hrow hopen)
        exact ⟨w', .inl hw'⟩
      · exact ⟨w, .inr ⟨id, row', hrow', hsame.trans haccount, (hiff w).mpr hopen⟩⟩
  | @cleared _ accountId skips hcause =>
    have hstored : s.Stored accountId := by
      rcases hcause with rfl | ⟨id, w, row, rfl, hrow, rfl⟩
      · exact absurd ha id
      · exact hk row hrow
    refine h.congr (e := .cleared accountId) (fun r => by simp) rfl (fun account w _ hw => ?_)
      (fun tick ht account _ hopened => h.tick tick ht account hopened) fun _ hhead => (by cases hhead)
    by_cases hsame : account = accountId
    · subst hsame
      obtain ⟨w', hopen⟩ := hw.stored hstored
      exact ⟨w', .inr hopen⟩
    · rcases hw with hmem | hopen
      · refine ⟨w, .inl ?_⟩
        show (s.activeWindows.erase accountId).lookup account = some w
        rw [AList.lookup_erase_ne hsame]
        exact hmem
      · exact ⟨w, .inr hopen⟩
  | restarted =>
    refine h.congr (e := .restarted) (fun r => by simp) rfl (fun account w _ hw => ?_)
      (fun _ ht => by cases ht) fun _ hhead => (by cases hhead)
    obtain ⟨w', hopen⟩ := hw.stored (hk account)
    exact ⟨w', .inr hopen⟩
  | @began now htick =>
    refine h.congr (e := .tickBegan now) (fun r => by simp) rfl (fun account w _ hw => ⟨w, hw⟩)
      (fun tick ht account hw _ => ?_) fun _ hhead => (by cases hhead)
    obtain ⟨w, hw⟩ := hw
    obtain rfl := Option.some.inj ht
    exact .inl (mem_pending hw)
  | @ended tick htick hnone =>
    refine h.congr (e := .tickEnded) (fun r => by simp) rfl (fun account w _ hw => ⟨w, hw⟩)
      (fun _ ht => by cases ht) fun older hhead account hopened => ?_
    obtain rfl := (List.cons.inj hhead).2
    rcases h.tick tick htick account hopened with hpending | hexcused
    · rw [hnone] at hpending
      cases hpending
    · exact hexcused
  | ran htick _ hp hl hran => exact h.run htick ha hk hm hp hl hran

/-- In runs without manual commands and failing ports that keep the windows of started
accounts, every account that is still started when a tick ends has had a winner, a hold or a
back-off in it. -/
theorem starts_close (h : (scheduleMachine intl).ReachableWhen
      (fun s a => a.Unattended ∧ s.KeepsWindows a) s) {older : List Event}
    (hended : s.history = .tickEnded :: older) (accountId : AccountId)
    (hopened : Opened (transitionsOf accountId older)) :
    ∃ r ∈ tickRecords accountId older, r.Excused := by
  have hclosing : s.Closing := by
    refine h.invariant_of (fun s hs => ?_) fun s a t hr hs hc hn =>
      hs.step (Marked.of_reachable hr) hc.1 hc.2 hn
    obtain rfl : s = Coordinator.empty := hs
    exact ⟨fun _ hopened => hopened.elim, fun _ ht => (by cases ht), fun _ hhead => (by cases hhead)⟩
  exact hclosing.ended older hended accountId hopened

def throughMorning : List Action :=
  [createMorning, .beginTick 36000000, .runAccount 1 finePorts, .endTick, .beginTick 39600000,
    .runAccount 1 finePorts]

theorem starts_close_morning : ¬Opened (transitionsOf 1 (stateAfter throughMorning).history) := by
  have hcommit : finePorts.commitStartedWindow ≠ .crashes := by simp [finePorts]
  have hr : (scheduleMachine greenwich).ReachableWhen (fun s a => a.Unattended ∧ s.KeepsWindows a)
      (stateAfter (throughMorning ++ [.endTick])) := by
    refine Transition.Machine.reachableWhen_exec ?_ rfl (by decide)
    simp [throughMorning, createMorning, Action.Unattended, KeepsWindows, hcommit,
      finePorts_quiet.answers, finePorts_quiet.survives]
  have hended : (stateAfter (throughMorning ++ [.endTick])).history =
      .tickEnded :: (stateAfter throughMorning).history := rfl
  have hrecords : tickRecords 1 (stateAfter throughMorning).history =
      [⟨1, 39600000, false, none, some .pause, [.pause], .done⟩] := by decide
  intro hopened
  obtain ⟨r, hmem, hexcused⟩ := starts_close hr hended 1 hopened
  rw [hrecords] at hmem
  obtain rfl := List.mem_singleton.mp hmem
  simp [TransitionRecord.Excused] at hexcused

/-- A start whose schedule is deleted before a restart stays without a pause: the next tick
does not come to its account. -/
theorem deleted_start_stays : ∃ s older,
    (scheduleMachine greenwich).ReachableWhen (fun _ a => a.Unattended) s ∧
      s.history = .tickEnded :: older ∧ Opened (transitionsOf 1 older) ∧ tickRecords 1 older = [] := by
  refine ⟨stateAfter [createMorning, .beginTick 36000000, .runAccount 1 finePorts, .endTick,
    .delete 0, .restart, .beginTick 36060000, .endTick], _, ?_, rfl, .inl (by decide), by decide⟩
  refine Transition.Machine.reachableWhen_exec ?_ rfl (by decide)
  simp [createMorning, Action.Unattended, finePorts_quiet.answers]

end Coordinator
end SteamBee.Schedule
