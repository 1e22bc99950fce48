import SteamBee.Data.History
import SteamBee.Schedule.Markers

/-! What each step of the coordinator does to the rows, the memory and the history, and the
transitions that a history records. -/
namespace SteamBee.Schedule

def Event.transitionOf (accountId : AccountId) : Event → Option TransitionRecord
  | .transition r => if r.accountId = accountId then some r else none
  | _ => none

def transitionsOf (accountId : AccountId) (history : List Event) : List TransitionRecord :=
  history.filterMap (Event.transitionOf accountId)

def Event.Silent (e : Event) : Prop := ∀ r, e ≠ .transition r

theorem transitionsOf_silent {accountId : AccountId} {e : Event} (h : e.Silent)
    (history : List Event) : transitionsOf accountId (e :: history) = transitionsOf accountId history := by
  cases e with
  | transition r => exact absurd rfl (h r)
  | tickBegan => rfl
  | tickEnded => rfl
  | cleared => rfl
  | restarted => rfl

theorem transitionsOf_same {accountId : AccountId} {r : TransitionRecord}
    (h : r.accountId = accountId) (history : List Event) :
    transitionsOf accountId (.transition r :: history) = r :: transitionsOf accountId history :=
  List.filterMap_cons_some (if_pos h)

theorem transitionsOf_other {accountId : AccountId} {r : TransitionRecord}
    (h : r.accountId ≠ accountId) (history : List Event) :
    transitionsOf accountId (.transition r :: history) = transitionsOf accountId history :=
  List.filterMap_cons_none (if_neg h)

namespace Coordinator
open ScheduleRecord
variable {intl : Intl} {s t : Coordinator} {a : Action} {ports : Ports} {accountId : AccountId}
  {w : WindowId}

def SameMarkers (row row' : ScheduleRecord) : Prop :=
  row'.accountId = row.accountId ∧ ∀ w, row'.IsOpen w ↔ row.IsOpen w

inductive Ran (s : Coordinator) (r : TransitionRecord) (p : Progress) : Coordinator → Prop where
  | goes (h : p.ended ≠ .crashed) :
    Ran s r p { p.state with history := .transition r :: s.history }
  | dies (h : p.ended = .crashed) : Ran s r p { p.state with
      activeWindows := ∅
      failedTransitions := ∅
      tick := none
      history := .restarted :: .transition r :: s.history }

inductive Effect (intl : Intl) (s : Coordinator) : Action → Coordinator → Prop where
  | edited {a : Action} {rows : Rows} {drawn : ScheduleId} (hdrawn : s.drawn ≤ drawn)
    (hold : ∀ id row', rows.lookup id = some row' →
      s.drawn ≤ id ∧ (∀ w, ¬row'.IsOpen w) ∨
        ∃ row, s.rows.lookup id = some row ∧ SameMarkers row row')
    (hkept : ∀ id row, s.rows.lookup id = some row →
      a = .delete id ∨ ∃ row', rows.lookup id = some row' ∧ SameMarkers row row') :
    Effect intl s a { s with rows, drawn }
  | cleared {a : Action} {accountId : AccountId} {skips : List (AccountId × ScheduleId × WindowId)}
    (h : a = .clearAccount accountId ∨ ∃ id w row, a = .skip id w ∧ s.rows.lookup id = some row ∧
      row.accountId = accountId) :
    Effect intl s a (clearAccount { s with skips } accountId)
  | restarted : Effect intl s .restart s.restart
  | began {now : ℤ} (htick : s.tick = none) : Effect intl s (.beginTick now) { s with
      tick := some ⟨now, (s.rows.listAccountIds ++ s.activeWindows.entries.map fun e => e.1).dedup⟩
      history := .tickBegan now :: s.history }
  | ended {tick : Tick} (htick : s.tick = some tick) (hnone : tick.pending = []) :
    Effect intl s .endTick { s with tick := none, history := .tickEnded :: s.history }
  | ran {tick : Tick} {accountId : AccountId} {ports : Ports} {p : Progress} {t : Coordinator}
    (htick : s.tick = some tick) (hpending : accountId ∈ tick.pending)
    (hp : Shape (s.takes tick accountId) accountId
      (s.evaluateSchedules intl ports accountId tick.now) tick.now ports p)
    (hl : (s.takes tick accountId).Leaves accountId
      ((winningWindow (s.evaluateSchedules intl ports accountId tick.now)).map (·.2)) p)
    (hran : Ran s (recordOf intl s accountId tick.now ports p) p t) :
    Effect intl s (.runAccount accountId ports) t

theorem sameMarkers_refl (row : ScheduleRecord) : SameMarkers row row := ⟨rfl, fun _ => Iff.rfl⟩

theorem effect_create {row : ScheduleRecord} (h : s.Marked) (hnew : row.lastStartedWindow = none) :
    Effect intl s a { s with rows := s.rows.insert s.drawn row, drawn := s.drawn + 1 } := by
  refine .edited (Nat.le_succ _) (fun id row' hrow' => ?_) fun id row' hrow' => .inr ?_
  · rw [Table.lookup_insert_eq] at hrow'
    by_cases hid : id = s.drawn
    · rw [if_pos hid] at hrow'
      obtain rfl := Option.some.inj hrow'
      refine .inl ⟨le_of_eq hid.symm, fun w hopen => ?_⟩
      rw [hopen.1] at hnew
      cases hnew
    · rw [if_neg hid] at hrow'
      exact .inr ⟨row', hrow', sameMarkers_refl row'⟩
  · have hid : id ≠ s.drawn := Nat.ne_of_lt (h.ids id row' hrow').2
    exact ⟨row', by rw [Table.lookup_insert_eq, if_neg hid, hrow'], sameMarkers_refl row'⟩

theorem effect_update {scheduleId : ScheduleId} {row : ScheduleRecord}
    (hrow : s.rows.lookup scheduleId = some row) (update : ScheduleUpdate) (now : ℤ) :
    Effect intl s a { s with
      rows := s.rows.modify scheduleId fun row => update.apply row now } := by
  refine .edited (Nat.le_refl _) (fun id row' hrow' => .inr ?_) fun id row' hrow' => .inr ?_
  · rw [Table.lookup_modify] at hrow'
    by_cases hid : id = scheduleId
    · rw [if_pos hid, hrow] at hrow'
      obtain rfl := Option.some.inj hrow'
      exact ⟨row, hid ▸ hrow, rfl, fun _ => Iff.rfl⟩
    · rw [if_neg hid] at hrow'
      exact ⟨row', hrow', sameMarkers_refl row'⟩
  · by_cases hid : id = scheduleId
    · subst hid
      obtain rfl := Option.some.inj (hrow.symm.trans hrow')
      refine ⟨update.apply row now, ?_, rfl, fun _ => Iff.rfl⟩
      rw [Table.lookup_modify, if_pos rfl, hrow]
      rfl
    · exact ⟨row', by rw [Table.lookup_modify, if_neg hid, hrow'], sameMarkers_refl row'⟩

theorem effect_delete (scheduleId : ScheduleId) :
    Effect intl s (.delete scheduleId) { s with rows := s.rows.erase scheduleId } := by
  refine .edited (Nat.le_refl _) (fun id row' hrow' => .inr ?_) fun id row' hrow' => ?_
  · rw [Table.lookup_erase_eq] at hrow'
    by_cases hid : id = scheduleId
    · rw [if_pos hid] at hrow'
      cases hrow'
    · rw [if_neg hid] at hrow'
      exact ⟨row', hrow', sameMarkers_refl row'⟩
  · by_cases hid : id = scheduleId
    · exact .inl (by rw [hid])
    · exact .inr ⟨row', by rw [Table.lookup_erase_eq, if_neg hid, hrow'], sameMarkers_refl row'⟩

theorem Marked.ran (h : s.Marked) (hn : s.next intl (.runAccount accountId ports) = some t) :
    ∃ tick p, s.tick = some tick ∧ accountId ∈ tick.pending ∧
      Shape (s.takes tick accountId) accountId
        (s.evaluateSchedules intl ports accountId tick.now) tick.now ports p ∧
      (s.takes tick accountId).Leaves accountId
        ((winningWindow (s.evaluateSchedules intl ports accountId tick.now)).map (·.2)) p ∧
      Ran s (recordOf intl s accountId tick.now ports p) p t := by
  obtain ⟨tick, htick, hpending, rfl⟩ := runAccount_of_next hn
  obtain ⟨p, hp, hcase⟩ := runAccount_eq intl (s.takes tick accountId) accountId tick.now ports
  have hl := (h.takes tick accountId).leaves hp
  have hhistory : p.state.history = s.history := hl.history
  refine ⟨tick, p, htick, hpending, hp, hl, ?_⟩
  rcases hcase with ⟨hgoes, heq⟩ | ⟨hdies, heq⟩
  · rw [heq, hhistory]
    exact .goes hgoes
  · rw [heq]
    unfold restart
    dsimp only
    rw [hhistory]
    exact .dies hdies

theorem Marked.effect (h : s.Marked) (hn : s.next intl a = some t) : Effect intl s a t := by
  cases a with
  | create accountId presetId name enabled weekdaysJson startTime endTime timezone now =>
    simp only [Coordinator.next] at hn
    split at hn
    next => cases hn
    next =>
      obtain rfl := Option.some.inj hn
      exact effect_create h rfl
  | update scheduleId update now =>
    simp only [Coordinator.next] at hn
    split at hn
    next row hrow =>
      split at hn
      next => cases hn
      next =>
        obtain rfl := Option.some.inj hn
        exact effect_update hrow update now
    next => cases hn
  | delete scheduleId =>
    obtain rfl := Option.some.inj hn
    exact effect_delete scheduleId
  | skip scheduleId windowId =>
    simp only [Coordinator.next] at hn
    split at hn
    next row hrow =>
      obtain rfl := Option.some.inj hn
      exact .cleared (.inr ⟨scheduleId, windowId, row, rfl, hrow, rfl⟩)
    next => cases hn
  | clearAccount accountId =>
    obtain rfl := Option.some.inj hn
    exact .cleared (.inl rfl)
  | restart =>
    obtain rfl := Option.some.inj hn
    exact .restarted
  | beginTick now =>
    simp only [Coordinator.next] at hn
    split at hn
    next htick =>
      obtain rfl := Option.some.inj hn
      exact .began htick
    next => cases hn
  | runAccount accountId ports =>
    obtain ⟨tick, p, htick, hpending, hp, hl, hran⟩ := h.ran hn
    exact .ran htick hpending hp hl hran
  | endTick =>
    simp only [Coordinator.next] at hn
    split at hn
    next tick htick =>
      split at hn
      next hnone =>
        obtain rfl := Option.some.inj hn
        exact .ended htick hnone
      next => cases hn
    next => cases hn

/-- The transactions of a transition change the rows that it has read. -/
theorem Marked.rejects_of_failure (h : s.Marked) {now : ℤ}
    (hf : s.Failure accountId (s.evaluateSchedules intl ports accountId now) ports) :
    ports.Rejects := by
  have hopen (ow : OpenScheduleWindow)
      (how : ow ∈ openScheduleWindows (s.evaluateSchedules intl ports accountId now)) :
      ∃ row, s.rows.lookup ow.scheduleId = some row ∧ row.accountId = accountId ∧
        row.lastStartedWindow = some ow.windowId := by
    obtain ⟨id, row, hrow, haccount, hsame, hopen⟩ := mem_openScheduleWindows.mp how
    rw [hsame, (h.ids id row hrow).1]
    exact ⟨row, hrow, haccount, hopen.1⟩
  rcases hf with hrejects | ⟨winner, next, hwin, hnone⟩ | hnone
  · exact hrejects
  · obtain ⟨⟨id, hrow⟩, haccount, henabled, -, -⟩ := winningWindow_spec hwin
    rw [← (h.ids id winner hrow).1] at hrow
    have hother (ow : OpenScheduleWindow)
        (how : ow ∈ otherWindows (s.evaluateSchedules intl ports accountId now) winner next) :=
      hopen ow (List.mem_of_mem_filter how)
    obtain ⟨rows, hrows⟩ : ∃ rows, s.rows.commitStartedWindow accountId ⟨winner.id, next⟩
        winner.updatedAt (otherWindows (s.evaluateSchedules intl ports accountId now) winner next) =
          some rows := Rows.commitStartedWindow_isSome hother hrow haccount henabled rfl
    rw [hrows] at hnone
    cases hnone
  · obtain ⟨rows, hrows⟩ := Rows.markWindowsStopped_isSome hopen
    rw [hrows] at hnone
    cases hnone

end Coordinator
end SteamBee.Schedule
