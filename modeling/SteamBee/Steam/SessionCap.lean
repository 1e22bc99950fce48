import Mathlib.Data.List.Chain
import SteamBee.Steam.BoostSessions

/-! What the session cap measures is the time since the current activity began, however often
its sessions were rotated. -/
namespace SteamBee.Steam

namespace BoostSession

abbrev Rotated (row next : BoostSession) : Prop :=
  row.stopReason = some .selectionChanged ∧ row.endedAt = some next.startedAt

/-- A session that did not end by a rotation and the next one are not of one millisecond. -/
abbrev Pauses (row next : BoostSession) : Prop :=
  row.stopReason ≠ some .selectionChanged → row.endedAt ≠ some next.startedAt

end BoostSession

/-- Rotations lead from the session `first` to one that is open, and none leads into it. -/
structure IsActivity (before : List BoostSession) (first : BoostSession)
    (later : List BoostSession) : Prop where
  chained : (first :: later).IsChain BoostSession.Rotated
  running : ∀ last ∈ (first :: later).getLast?, last.endedAt = none
  began : ∀ last ∈ before.getLast?, ¬ last.Rotated first

section Rows
variable {rows before later : List BoostSession} {first last : BoostSession}

/-- Every session of the activity but those that start with it has a shorter way back. By
induction along the chain: a session of no length hands on the one that leads to it. -/
theorem exists_rotatedInto {all : List BoostSession}
    (hended : ∀ row ∈ all, ∀ e, row.endedAt = some e → row.startedAt ≤ e) {start : ℕ}
    (hchain : (first :: later).IsChain BoostSession.Rotated)
    (hall : ∀ row ∈ first :: later, row ∈ all)
    (hfirst : start < first.startedAt → ∃ row ∈ all, row.Rotated first ∧
      row.startedAt < first.startedAt) :
    ∀ row ∈ first :: later, start < row.startedAt → ∃ old ∈ all, old.Rotated row ∧
      old.startedAt < row.startedAt := by
  induction later generalizing first with
  | nil =>
    intro row hrow hlt
    rw [List.mem_singleton.mp hrow] at hlt ⊢
    exact hfirst hlt
  | cons next later ih =>
    obtain ⟨hrotated, hchain⟩ := List.isChain_cons_cons.mp hchain
    intro row hrow
    rcases List.mem_cons.mp hrow with rfl | hrow
    · exact hfirst
    · apply ih hchain (fun other hother => hall other (List.mem_cons_of_mem _ hother)) ?_ row hrow
      intro hlt
      have hmem : first ∈ all := hall first List.mem_cons_self
      have hle : first.startedAt ≤ next.startedAt := hended first hmem _ hrotated.2
      rcases hle.lt_or_eq with hshort | hsame
      · exact ⟨first, hmem, hrotated, hshort⟩
      · obtain ⟨old, hold, hinto, hstart⟩ := hfirst (by omega)
        exact ⟨old, hold, ⟨hinto.1, hinto.2.trans (congrArg some hsame)⟩, by omega⟩

/-- The loop over the ended sessions finds its way back to `start`. By induction on the
sessions that are left. -/
theorem chainStart_eq {start current : ℕ} {l : List BoostSession}
    (hsorted : l.Pairwise fun left right => right.startedAt ≤ left.startedAt)
    (hle : start ≤ current)
    (hcurrent : start < current → ∃ row ∈ l, row.stopReason = some .selectionChanged ∧
      row.endedAt = some current ∧ row.startedAt < current)
    (hinto : ∀ row ∈ l, start < row.startedAt → ∃ old ∈ l, old.Rotated row ∧
      old.startedAt < row.startedAt)
    (hbefore : ∀ row ∈ l, row.startedAt < start → ∀ e, row.endedAt = some e → e < start) :
    chainStart current l = start := by
  induction l generalizing current with
  | nil =>
    rcases hle.lt_or_eq with hlt | heq
    · obtain ⟨row, hrow, -⟩ := hcurrent hlt
      cases hrow
    · exact heq.symm
  | cons row l ih =>
    obtain ⟨hrow, hsorted⟩ := List.pairwise_cons.mp hsorted
    have htail (other : BoostSession) (hother : other ∈ l) (hlt : start < other.startedAt) :
        ∃ old ∈ l, old.Rotated other ∧ old.startedAt < other.startedAt := by
      obtain ⟨old, hold, hrotated, hstart⟩ := hinto other (List.mem_cons_of_mem _ hother) hlt
      rcases List.mem_cons.mp hold with rfl | hold
      · have horder := hrow other hother
        omega
      · exact ⟨old, hold, hrotated, hstart⟩
    have hbefore' (other : BoostSession) (hother : other ∈ l) :=
      hbefore other (List.mem_cons_of_mem _ hother)
    rw [chainStart, List.foldl_cons, ← chainStart]
    split_ifs with htake
    · have hstart : start ≤ row.startedAt := by
        by_contra hlt
        have hend := hbefore row List.mem_cons_self (by omega) current htake.2.1
        omega
      apply ih hsorted hstart ?_ htail hbefore'
      intro hlt
      obtain ⟨old, hold, hrotated, hshort⟩ := hinto row List.mem_cons_self hlt
      rcases List.mem_cons.mp hold with rfl | hold
      · omega
      · exact ⟨old, hold, hrotated.1, hrotated.2, hshort⟩
    · apply ih hsorted hle ?_ htail hbefore'
      intro hlt
      obtain ⟨old, hold, hwitness⟩ := hcurrent hlt
      rcases List.mem_cons.mp hold with rfl | hold
      · exact absurd hwitness htake
      · exact ⟨old, hold, hwitness⟩

/-- What came before the activity was over before it began. -/
theorem IsActivity.lt_of_before (h : IsActivity before first later)
    (hpairs : (before ++ first :: later).Pairwise BoostSession.Before)
    (hended : ∀ row ∈ before, ∀ e, row.endedAt = some e → row.startedAt ≤ e)
    (hpauses : (before ++ first :: later).IsChain BoostSession.Pauses) {row : BoostSession}
    (hrow : row ∈ before) {e : ℕ} (he : row.endedAt = some e) : e < first.startedAt := by
  rcases List.eq_nil_or_concat' before with rfl | ⟨init, last, rfl⟩
  · cases hrow
  · have hlast : last ∈ (init ++ [last]).getLast? := by simp
    have hpause : last.Pauses first :=
      (List.isChain_append.mp hpauses).2.2 last hlast first (by simp)
    obtain ⟨hinit, -, hcross⟩ := List.pairwise_append.mp hpairs
    have hmem : last ∈ init ++ [last] := List.mem_append_right _ (List.mem_singleton_self last)
    obtain ⟨stop, hstop, hle⟩ := hcross last hmem first List.mem_cons_self
    have hlt : stop < first.startedAt := by
      rcases hle.lt_or_eq with hlt | heq
      · exact hlt
      · have hstop : last.endedAt = some first.startedAt := hstop.trans (congrArg some heq)
        by_cases hreason : last.stopReason = some .selectionChanged
        · exact absurd ⟨hreason, hstop⟩ (h.began last hlast)
        · exact absurd hstop (hpause hreason)
    rcases List.mem_append.mp hrow with hrow | hrow
    · obtain ⟨stop', hstop', hle'⟩ :=
        (List.pairwise_append.mp hinit).2.2 row hrow last (List.mem_singleton_self last)
      obtain rfl : e = stop' := Option.some.inj (he.symm.trans hstop')
      have hle' : e ≤ last.startedAt := hle'
      have hstart := hended last hmem stop hstop
      omega
    · rw [List.mem_singleton.mp hrow] at he
      obtain rfl : e = stop := Option.some.inj (he.symm.trans hstop)
      exact hlt

/-- Rows that end with an open session end with an activity. By induction on the rows before
it, from the last. -/
theorem exists_isActivity (rows : List BoostSession) (last : BoostSession)
    (hopen : last.endedAt = none) : ∃ before first later,
      rows ++ [last] = before ++ first :: later ∧ IsActivity before first later := by
  suffices ∃ before first later, rows ++ [last] = before ++ first :: later ∧
      (first :: later).IsChain BoostSession.Rotated ∧ (first :: later).getLast? = some last ∧
      ∀ last ∈ before.getLast?, ¬ last.Rotated first by
    obtain ⟨before, first, later, heq, hchain, hlast, hbegan⟩ := this
    refine ⟨before, first, later, heq, hchain, fun row hrow => ?_, hbegan⟩
    rw [hlast] at hrow
    rw [← Option.some.inj hrow]
    exact hopen
  clear hopen
  induction rows using List.reverseRecOn generalizing last with
  | nil => exact ⟨[], last, [], rfl, .singleton last, rfl, fun row hrow => (by cases hrow)⟩
  | append_singleton rows row ih =>
    by_cases hrotated : row.Rotated last
    · obtain ⟨before, first, later, heq, hchain, hlast, hbegan⟩ := ih row
      refine ⟨before, first, later ++ [last], ?_, ?_, ?_, hbegan⟩
      · rw [heq, List.append_assoc, List.cons_append]
      · rw [← List.cons_append, List.isChain_append]
        refine ⟨hchain, .singleton last, fun x hx y hy => ?_⟩
        rw [hlast] at hx
        rw [← Option.some.inj hx, ← Option.some.inj hy]
        exact hrotated
      · rw [← List.cons_append, List.getLast?_concat]
    · refine ⟨rows ++ [row], last, [], rfl, .singleton last, rfl, fun other hother => ?_⟩
      rw [List.getLast?_concat] at hother
      rw [← Option.some.inj hother]
      exact hrotated

/-- The activity begins with its first session. -/
theorem IsActivity.first_le (hpairs : (before ++ first :: later).Pairwise BoostSession.Before)
    (hended : ∀ row ∈ before ++ first :: later, ∀ e, row.endedAt = some e → row.startedAt ≤ e)
    {row : BoostSession} (hrow : row ∈ first :: later) : first.startedAt ≤ row.startedAt := by
  rcases List.mem_cons.mp hrow with rfl | hrow
  · exact le_rfl
  · have hactivity := (List.pairwise_append.mp hpairs).2.1
    obtain ⟨e, he, hle⟩ := (List.pairwise_cons.mp hactivity).1 row hrow
    have hfirst : first ∈ before ++ first :: later :=
      List.mem_append_right _ List.mem_cons_self
    exact (hended first hfirst e he).trans hle

/-- One session is open, the last of the activity. -/
theorem IsActivity.exists_open (h : IsActivity before first later)
    (hpairs : (before ++ first :: later).Pairwise BoostSession.Before) :
    ∃ last ∈ first :: later,
      ((before ++ first :: later).filter fun row => row.endedAt.isNone) = [last] := by
  rcases List.eq_nil_or_concat' (first :: later) with hnil | ⟨init, last, heq⟩
  · cases hnil
  have hopen : last.endedAt = none := by
    apply h.running last
    rw [heq, List.getLast?_concat]
    rfl
  refine ⟨last, heq ▸ List.mem_append_right _ (List.mem_singleton_self last), ?_⟩
  rw [heq, ← List.append_assoc] at hpairs ⊢
  have hnone : ((before ++ init).filter fun row => row.endedAt.isNone) = [] := by
    refine List.filter_eq_nil_iff.mpr fun row hrow => ?_
    obtain ⟨e, he, -⟩ := (List.pairwise_append.mp hpairs).2.2 row hrow last
      (List.mem_singleton_self last)
    have he : row.endedAt = some e := he
    simp [he]
  rw [List.filter_append, hnone, List.nil_append, List.filter_singleton, hopen]
  rfl

/-- The measure of the rows of an account, in whatever order they are read. -/
theorem IsActivity.continuousSessionMs_eq (h : IsActivity before first later)
    (hpairs : (before ++ first :: later).Pairwise BoostSession.Before)
    (hended : ∀ row ∈ before ++ first :: later, ∀ e, row.endedAt = some e → row.startedAt ≤ e)
    (hpauses : (before ++ first :: later).IsChain BoostSession.Pauses)
    {sessions : List BoostSession} (hperm : sessions.Perm (before ++ first :: later)) (now : ℕ) :
    continuousSessionMs sessions now = now - first.startedAt := by
  have hmem (row : BoostSession) (hrow : row ∈ first :: later) :
      row ∈ before ++ first :: later := List.mem_append_right _ hrow
  have hbefore (row : BoostSession) (hrow : row ∈ before) (e : ℕ) (he : row.endedAt = some e) :
      e < first.startedAt := by
    exact h.lt_of_before hpairs (fun row hrow => hended row (List.mem_append_left _ hrow)) hpauses
      hrow he
  obtain ⟨last, hlast, hopen⟩ := h.exists_open hpairs
  have hopen : (sessions.filter fun row => row.endedAt.isNone) = [last] :=
    List.perm_singleton.mp ((hperm.filter _).trans (.of_eq hopen))
  rw [continuousSessionMs, hopen]
  dsimp only [List.foldl_nil]
  congr 1
  have hprevious (row : BoostSession) : row ∈ (sessions.filter fun session =>
      session.endedAt.isSome).insertionSort (fun left right => right.startedAt ≤ left.startedAt) ↔
      row ∈ before ++ first :: later ∧ row.endedAt.isSome = true := by
    rw [List.mem_insertionSort, List.mem_filter, hperm.mem_iff]
  have hinto (row : BoostSession) (hrow : row ∈ before ++ first :: later)
      (hlt : first.startedAt < row.startedAt) : ∃ old ∈ (sessions.filter fun session =>
        session.endedAt.isSome).insertionSort (fun left right => right.startedAt ≤ left.startedAt),
        old.Rotated row ∧ old.startedAt < row.startedAt := by
    rcases List.mem_append.mp hrow with hold | hactive
    · obtain ⟨e, he, -⟩ :=
        (List.pairwise_append.mp hpairs).2.2 row hold first List.mem_cons_self
      have hle := hended row hrow e he
      have hend := hbefore row hold e he
      omega
    · obtain ⟨old, hold, hrotated, hshort⟩ := exists_rotatedInto hended h.chained hmem
        (fun hlt => (absurd hlt (lt_irrefl _))) row hactive hlt
      have hsome : old.endedAt.isSome = true := Option.isSome_iff_exists.mpr ⟨_, hrotated.2⟩
      exact ⟨old, (hprevious old).mpr ⟨hold, hsome⟩, hrotated, hshort⟩
  apply chainStart_eq
  · exact List.pairwise_insertionSort _ _
  · exact IsActivity.first_le hpairs hended hlast
  · intro hlt
    obtain ⟨old, hold, hrotated, hshort⟩ := hinto last (hmem last hlast) hlt
    exact ⟨old, hold, hrotated.1, hrotated.2, hshort⟩
  · intro row hrow hlt
    exact hinto row ((hprevious row).mp hrow).1 hlt
  · intro row hrow hlt e he
    rcases List.mem_append.mp ((hprevious row).mp hrow).1 with hold | hactive
    · exact hbefore row hold e he
    · have hle := IsActivity.first_le hpairs hended hactive
      omega

end Rows

/-- The session cap measures the time since the current activity of the account began. -/
structure MeasuresActivity (s : Tracker) (accountId : AccountId) (sessions : List BoostSession) :
    Prop where
  measured : ∀ before first later, s.ofAccount accountId = before ++ first :: later →
    IsActivity before first later → ∀ now,
      continuousSessionMs sessions now = now - first.startedAt
  active : s.openSessions accountId ≠ [] → ∃ before first later,
    s.ofAccount accountId = before ++ first :: later ∧ IsActivity before first later
  stopped : s.openSessions accountId = [] → ∀ now, continuousSessionMs sessions now = 0

/-- An open session is the last row of its account. -/
theorem Tracker.Rows.ofAccount_eq {s : Tracker} (h : s.Rows) {accountId : AccountId}
    {row : BoostSession} (hrow : row ∈ s.openSessions accountId) :
    ∃ earlier, s.ofAccount accountId = earlier ++ [row] := by
  obtain ⟨hrow, hopen⟩ := List.mem_filter.mp hrow
  obtain ⟨earlier, rest, heq⟩ := List.append_of_mem hrow
  have hpairs := h.apart accountId
  rw [heq] at hpairs
  cases rest with
  | nil => exact ⟨earlier, heq⟩
  | cons next rest =>
    have hactive := (List.pairwise_append.mp hpairs).2.1
    obtain ⟨e, he, -⟩ := (List.pairwise_cons.mp hactive).1 next List.mem_cons_self
    have he : row.endedAt = some e := he
    rw [he] at hopen
    cases hopen

theorem measuresActivity_of_reachable {s : Tracker} (h : trackerMachine.Reachable s)
    (accountId : AccountId)
    (hpauses : (s.ofAccount accountId).IsChain BoostSession.Pauses)
    (sessions : List BoostSession) (hperm : sessions.Perm (s.ofAccount accountId)) :
    MeasuresActivity s accountId sessions := by
  have hrows := (Tracker.kept_of_reachable h).rows
  constructor
  case measured =>
    intro before first later heq hactivity now
    rw [heq] at hpauses hperm
    have hpairs := hrows.apart accountId
    rw [heq] at hpairs
    refine hactivity.continuousSessionMs_eq hpairs ?_ hpauses hperm now
    intro row hrow e he
    rw [← heq] at hrow
    exact (hrows.ended row (List.mem_filter.mp hrow).1 e he).1
  case active =>
    intro hopen
    obtain ⟨row, hrow⟩ := List.exists_mem_of_ne_nil _ hopen
    obtain ⟨earlier, heq⟩ := hrows.ofAccount_eq hrow
    rw [heq]
    exact exists_isActivity earlier row (Tracker.mem_openSessions.mp hrow).2.2
  case stopped =>
    intro hnone now
    have hempty : (sessions.filter fun row => row.endedAt.isNone) = [] :=
      List.perm_nil.mp ((hperm.filter _).trans (.of_eq hnone))
    rw [continuousSessionMs, hempty]

/-- A session is rotated at once, its successor ten seconds later, and the third one is stopped;
the fourth, after a second, is rotated once more. -/
def rotatedBee : Tracker :=
  (trackerMachine.exec ⟨∅, [], ∅, [], .down, 1000, 0⟩ (List.flatten [
    [.boot, .repair, .repair, .configure "bee" ⟨none, [], []⟩, .track "bee" .boosting (select 1)],
    .replicate 4 (.proceed "bee"), [.track "bee" .boosting (select 2)],
    .replicate 7 (.proceed "bee"), [.tick 10000, .track "bee" .boosting (select 3)],
    .replicate 7 (.proceed "bee"), [.tick 10000, .track "bee" .online none],
    .replicate 3 (.proceed "bee"), [.tick 1000, .track "bee" .boosting (select 4)],
    .replicate 4 (.proceed "bee"), [.track "bee" .boosting (select 5)],
    .replicate 7 (.proceed "bee"), [.tick 30000]])).getD ⟨∅, [], ∅, [], .down, 1000, 0⟩
where
  select (appId : ℕ) : Option BoostActivitySnapshot := some ⟨some .manual, some [appId]⟩

theorem measuresActivity_rotatedBee :
    MeasuresActivity rotatedBee "bee" (rotatedBee.ofAccount "bee") ∧
    (rotatedBee.ofAccount "bee").map (fun row => (row.startedAt, row.endedAt)) =
      [(1000, some 1000), (1000, some 11000), (11000, some 21000), (22000, some 22000),
        (22000, none)] ∧
    continuousSessionMs (rotatedBee.ofAccount "bee") rotatedBee.now = 30000 := by
  have hreachable : trackerMachine.Reachable rotatedBee :=
    Transition.Machine.reachable_exec ⟨_, _, rfl⟩ (by decide +kernel)
  have hpauses : (rotatedBee.ofAccount "bee").IsChain BoostSession.Pauses := by decide +kernel
  exact ⟨measuresActivity_of_reachable hreachable "bee" hpauses _ (.refl _), by decide +kernel,
    by decide +kernel⟩

end SteamBee.Steam
