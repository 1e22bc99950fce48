import SteamBee.Data.Intervals
import SteamBee.Steam.SafetyCoordinator

/-! The boost sessions of an account follow one another, whatever the tracker is called for
and wherever the process crashes. -/
namespace SteamBee.Steam

namespace BoostSession

abbrev Before : BoostSession → BoostSession → Prop :=
  Intervals.Before (fun row => row.startedAt) fun row => row.endedAt

abbrev ActiveAt : BoostSession → ℕ → Prop :=
  Intervals.Covers (fun row => row.startedAt) fun row => row.endedAt

end BoostSession

namespace Tracker
variable {s t : Tracker} {a : TrackerAction} {accountId other : AccountId} {row : BoostSession}
  {call : Tracking}

structure Rows (s : Tracker) : Prop where
  ids : (s.sessions.map fun row => row.id).Nodup
  drawn : ∀ row ∈ s.sessions, row.id < s.drawn
  started : ∀ row ∈ s.sessions, row.startedAt ≤ s.now
  seen : ∀ row ∈ s.sessions, ∀ t, row.lastSeenAt = some t → t ≤ s.now
  ended : ∀ row ∈ s.sessions, ∀ e, row.endedAt = some e → row.startedAt ≤ e ∧ e ≤ s.now
  apart : ∀ accountId, (s.ofAccount accountId).Pairwise BoostSession.Before

def Past (s : Tracker) (accountId : AccountId) (time : ℕ) : Prop :=
  ∀ row ∈ s.sessions, row.accountId = accountId →
    row.startedAt ≤ time ∧ ∀ e, row.endedAt = some e → e ≤ time

def NoneOpen (s : Tracker) (accountId : AccountId) : Prop :=
  ∀ row ∈ s.sessions, row.accountId = accountId → row.endedAt ≠ none

def MayInsert (s : Tracker) (accountId : AccountId) (session : NewSession) : Prop :=
  session.startedAt ≤ s.now ∧ s.Past accountId session.startedAt ∧ s.NoneOpen accountId

def CallKept (s : Tracker) (accountId : AccountId) : Tracking → Prop
  | .listing _ => True
  | .readingAccount _ existing | .readingPreset _ existing _ | .clearingPreset _ existing
  | .readingGames existing _ => existing = [] → s.NoneOpen accountId
  | .listingOpen _ endedAt next => endedAt ≤ s.now ∧ s.Past accountId endedAt ∧
      ∀ session, next = some session → session.startedAt = endedAt
  | .closing id rest _ endedAt next => endedAt ≤ s.now ∧ s.Past accountId endedAt ∧
      (∀ session, next = some session → session.startedAt = endedAt) ∧ rest = [] ∧ id < s.drawn ∧
      ∀ row ∈ s.sessions, (row.id = id → row.accountId = accountId ∧ row.endedAt = none) ∧
        (row.accountId = accountId → row.endedAt = none → row.id = id)
  | .inserting session | .recording (some session) => s.MayInsert accountId session
  | .recording none => True

def PhaseKept (s : Tracker) : Phase → Prop
  | .running => True
  | .down | .listing => s.calls = ∅ ∧ s.stamps = []
  | .repairing rest => s.calls = ∅ ∧ s.stamps = [] ∧ (rest.map fun row => row.id).Nodup ∧
      (∀ row ∈ s.sessions, row.endedAt = none → ∃ old ∈ rest, old.id = row.id) ∧
      ∀ old ∈ rest, (∀ t, old.lastSeenAt = some t → t ≤ s.now) ∧
        ∀ row ∈ s.sessions, row.id = old.id → row.endedAt = none ∧ row.startedAt = old.startedAt

structure Kept (s : Tracker) : Prop where
  rows : s.Rows
  stamps : ∀ t ∈ s.stamps, t ≤ s.now
  calls : ∀ accountId call, s.calls.lookup accountId = some call → s.CallKept accountId call
  phase : s.PhaseKept s.phase

/-! ## What happens to the rows -/

inductive RowStep (s t : Tracker) : Prop where
  | still (hsessions : t.sessions = s.sessions) (hdrawn : t.drawn = s.drawn)
  | marked (f : BoostSession → BoostSession) (hsessions : t.sessions = s.sessions.map f)
      (hdrawn : t.drawn = s.drawn) (hf : ∀ row, (f row).id = row.id ∧
        (f row).accountId = row.accountId ∧ (f row).startedAt = row.startedAt ∧
        (f row).endedAt = row.endedAt ∧ (f row).stopReason = row.stopReason)
      (hseen : ∀ row time, (f row).lastSeenAt = some time →
        row.lastSeenAt = some time ∨ time ≤ s.now)
  | closed (id : SessionId) (reason : StopReason) (endedAt : ℕ)
      (hsessions : t.sessions = (s.close id reason endedAt).sessions) (hdrawn : t.drawn = s.drawn)
      (hopen : ∀ row ∈ s.sessions, row.id = id → row.endedAt = none ∧ row.startedAt ≤ endedAt)
      (hnow : endedAt ≤ s.now)
  | inserted (accountId : AccountId) (session : NewSession)
      (hsessions : t.sessions = (s.insertSession accountId session).sessions)
      (hdrawn : t.drawn = s.drawn + 1) (hmay : s.MayInsert accountId session)
  | removed (accountId : AccountId)
      (hsessions : t.sessions = s.sessions.filter fun row => row.accountId ≠ accountId)
      (hdrawn : t.drawn = s.drawn)

theorem Rows.eq_of_id (h : s.Rows) {row row' : BoostSession} (hrow : row ∈ s.sessions)
    (hrow' : row' ∈ s.sessions) (hid : row.id = row'.id) : row = row' :=
  List.inj_on_of_nodup_map h.ids hrow hrow' hid

theorem Rows.still (h : s.Rows) (hsessions : t.sessions = s.sessions) (hdrawn : t.drawn = s.drawn)
    (hnow : s.now ≤ t.now) : t.Rows := by
  constructor
  case ids => exact hsessions ▸ h.ids
  case drawn => rw [hsessions, hdrawn]; exact h.drawn
  case started =>
    rw [hsessions]
    exact fun row hrow => (h.started row hrow).trans hnow
  case seen =>
    rw [hsessions]
    exact fun row hrow t ht => (h.seen row hrow t ht).trans hnow
  case ended =>
    rw [hsessions]
    intro row hrow e he
    exact ⟨(h.ended row hrow e he).1, (h.ended row hrow e he).2.trans hnow⟩
  case apart =>
    intro accountId
    have hsame : t.ofAccount accountId = s.ofAccount accountId := by
      rw [ofAccount, ofAccount, hsessions]
    exact hsame ▸ h.apart accountId

/-- Rows that change without moving in time. -/
theorem Rows.marked (h : s.Rows) {f : BoostSession → BoostSession}
    (hsessions : t.sessions = s.sessions.map f) (hdrawn : t.drawn = s.drawn)
    (hf : ∀ row, (f row).id = row.id ∧ (f row).accountId = row.accountId ∧
      (f row).startedAt = row.startedAt ∧ (f row).endedAt = row.endedAt ∧
      (f row).stopReason = row.stopReason)
    (hseen : ∀ row time, (f row).lastSeenAt = some time →
      row.lastSeenAt = some time ∨ time ≤ s.now)
    (hnow : s.now ≤ t.now) : t.Rows := by
  constructor
  case ids =>
    have hids : (s.sessions.map f).map (fun row => row.id) = s.sessions.map fun row => row.id := by
      rw [List.map_map]
      exact List.map_congr_left fun row _ => (hf row).1
    rw [hsessions, hids]
    exact h.ids
  case drawn =>
    rw [hsessions, hdrawn]
    intro row hrow
    obtain ⟨old, hold, rfl⟩ := List.mem_map.mp hrow
    rw [(hf old).1]
    exact h.drawn old hold
  case started =>
    rw [hsessions]
    intro row hrow
    obtain ⟨old, hold, rfl⟩ := List.mem_map.mp hrow
    rw [(hf old).2.2.1]
    exact (h.started old hold).trans hnow
  case seen =>
    rw [hsessions]
    intro row hrow time htime
    obtain ⟨old, hold, rfl⟩ := List.mem_map.mp hrow
    rcases hseen old time htime with hsame | hle
    · exact (h.seen old hold time hsame).trans hnow
    · exact hle.trans hnow
  case ended =>
    rw [hsessions]
    intro row hrow e he
    obtain ⟨old, hold, rfl⟩ := List.mem_map.mp hrow
    rw [(hf old).2.2.2.1] at he
    rw [(hf old).2.2.1]
    exact ⟨(h.ended old hold e he).1, (h.ended old hold e he).2.trans hnow⟩
  case apart =>
    intro accountId
    have hfilter : t.ofAccount accountId = (s.ofAccount accountId).map f := by
      rw [ofAccount, ofAccount, hsessions, List.filter_map]
      congr 1
      apply List.filter_congr
      intro row _
      simp [(hf row).2.1]
    rw [hfilter, List.pairwise_map]
    refine (h.apart accountId).imp ?_
    rintro x y ⟨e, he, hle⟩
    exact ⟨e, (hf x).2.2.2.1.trans he, hle.trans_eq (hf y).2.2.1.symm⟩

/-- An open session is the last one of its account. -/
theorem Rows.closed (h : s.Rows) {id : SessionId} {reason : StopReason} {endedAt : ℕ}
    (hsessions : t.sessions = (s.close id reason endedAt).sessions) (hdrawn : t.drawn = s.drawn)
    (hopen : ∀ row ∈ s.sessions, row.id = id → row.endedAt = none ∧ row.startedAt ≤ endedAt)
    (hle : endedAt ≤ s.now) (hnow : s.now ≤ t.now) : t.Rows := by
  have hmem (row : BoostSession) (hrow : row ∈ t.sessions) : ∃ old ∈ s.sessions,
      row.id = old.id ∧ row.accountId = old.accountId ∧ row.startedAt = old.startedAt ∧
      row.lastSeenAt = old.lastSeenAt ∧ (old.id = id ∧ row.endedAt = some endedAt ∨
        old.id ≠ id ∧ row.endedAt = old.endedAt) := by
    rw [hsessions] at hrow
    obtain ⟨old, hold, rfl⟩ := List.mem_map.mp hrow
    refine ⟨old, hold, ?_⟩
    split_ifs with hid
    · exact ⟨rfl, rfl, rfl, rfl, .inl ⟨hid, rfl⟩⟩
    · exact ⟨rfl, rfl, rfl, rfl, .inr ⟨hid, rfl⟩⟩
  constructor
  case ids =>
    have hids : (s.close id reason endedAt).sessions.map (fun row => row.id) =
        s.sessions.map fun row => row.id := by
      rw [close, List.map_map]
      refine List.map_congr_left fun row _ => ?_
      simp only [Function.comp_apply]
      split_ifs <;> rfl
    rw [hsessions, hids]
    exact h.ids
  case drawn =>
    intro row hrow
    obtain ⟨old, hold, hid, -⟩ := hmem row hrow
    rw [hid, hdrawn]
    exact h.drawn old hold
  case started =>
    intro row hrow
    obtain ⟨old, hold, -, -, hstart, -⟩ := hmem row hrow
    rw [hstart]
    exact (h.started old hold).trans hnow
  case seen =>
    intro row hrow time htime
    obtain ⟨old, hold, -, -, -, hseen, -⟩ := hmem row hrow
    rw [hseen] at htime
    exact (h.seen old hold time htime).trans hnow
  case ended =>
    intro row hrow e he
    obtain ⟨old, hold, -, -, hstart, -, hend⟩ := hmem row hrow
    rw [hstart]
    rcases hend with ⟨hid, hend⟩ | ⟨-, hend⟩
    · obtain rfl : endedAt = e := Option.some.inj (hend.symm.trans he)
      exact ⟨(hopen old hold hid).2, hle.trans hnow⟩
    · rw [hend] at he
      exact ⟨(h.ended old hold e he).1, (h.ended old hold e he).2.trans hnow⟩
  case apart =>
    intro accountId
    have hfilter : t.ofAccount accountId = (s.ofAccount accountId).map fun row =>
        if row.id = id then { row with endedAt := some endedAt, stopReason := some reason }
        else row := by
      rw [ofAccount, ofAccount, hsessions, close, List.filter_map]
      congr 1
      apply List.filter_congr
      intro row _
      simp only [Function.comp_apply]
      split_ifs <;> rfl
    rw [hfilter, List.pairwise_map]
    refine (h.apart accountId).imp_of_mem ?_
    rintro x y hx hy ⟨e, he, hstart⟩
    have hne : x.id ≠ id := by
      intro hid
      have hnone : x.endedAt = none := (hopen x (List.mem_filter.mp hx).1 hid).1
      have he : x.endedAt = some e := he
      rw [he] at hnone
      cases hnone
    refine ⟨e, by rw [if_neg hne]; exact he, ?_⟩
    split_ifs
    · exact hstart
    · exact hstart

theorem Rows.inserted (h : s.Rows) {session : NewSession}
    (hsessions : t.sessions = (s.insertSession accountId session).sessions)
    (hdrawn : t.drawn = s.drawn + 1) (hmay : s.MayInsert accountId session)
    (hnow : s.now ≤ t.now) : t.Rows := by
  obtain ⟨hle, hpast, hnone⟩ := hmay
  have hlast (P : BoostSession → Prop) (hold : ∀ row ∈ s.sessions, P row)
      (hnew : P ⟨s.drawn, accountId, session.presetId, session.appIds, session.startedAt, none,
        none, some session.startedAt⟩) : ∀ row ∈ t.sessions, P row := by
    rw [hsessions]
    intro row hrow
    rcases List.mem_append.mp hrow with hrow | hrow
    · exact hold row hrow
    · rw [List.mem_singleton.mp hrow]
      exact hnew
  constructor
  case ids =>
    rw [hsessions, insertSession, List.map_append, List.nodup_append]
    refine ⟨h.ids, List.nodup_singleton _, ?_⟩
    intro id hid id' hid'
    obtain ⟨row, hrow, rfl⟩ := List.mem_map.mp hid
    rw [List.mem_singleton.mp hid']
    exact (h.drawn row hrow).ne
  case drawn =>
    rw [hdrawn]
    exact hlast _ (fun row hrow => (h.drawn row hrow).trans (Nat.lt_succ_self _))
      (Nat.lt_succ_self _)
  case started =>
    exact hlast _ (fun row hrow => (h.started row hrow).trans hnow) (hle.trans hnow)
  case seen =>
    refine hlast _ (fun row hrow time htime => (h.seen row hrow time htime).trans hnow) ?_
    intro time htime
    exact Option.some.inj htime ▸ hle.trans hnow
  case ended =>
    refine hlast _ (fun row hrow e he =>
      ⟨(h.ended row hrow e he).1, (h.ended row hrow e he).2.trans hnow⟩) ?_
    intro e he
    cases he
  case apart =>
    intro other
    have hold := h.apart other
    rw [ofAccount, hsessions, insertSession, List.filter_append]
    rw [List.pairwise_append]
    refine ⟨hold, ?_, ?_⟩
    · exact (List.pairwise_singleton _ _).filter _
    · intro x hx y hy
      obtain ⟨hx, haccount⟩ := List.mem_filter.mp hx
      obtain ⟨hy, haccount'⟩ := List.mem_filter.mp hy
      obtain rfl := List.mem_singleton.mp hy
      have haccount : x.accountId = accountId :=
        (of_decide_eq_true haccount).trans (of_decide_eq_true haccount').symm
      obtain ⟨e, he⟩ := Option.ne_none_iff_exists'.mp (hnone x hx haccount)
      exact ⟨e, he, (hpast x hx haccount).2 e he⟩

theorem Rows.removed (h : s.Rows)
    (hsessions : t.sessions = s.sessions.filter fun row => row.accountId ≠ accountId)
    (hdrawn : t.drawn = s.drawn) (hnow : s.now ≤ t.now) : t.Rows := by
  have hold (row : BoostSession) (hrow : row ∈ t.sessions) : row ∈ s.sessions := by
    rw [hsessions] at hrow
    exact (List.mem_filter.mp hrow).1
  constructor
  case ids =>
    rw [hsessions]
    exact h.ids.sublist (List.filter_sublist.map _)
  case drawn => exact fun row hrow => hdrawn ▸ h.drawn row (hold row hrow)
  case started => exact fun row hrow => (h.started row (hold row hrow)).trans hnow
  case seen => exact fun row hrow time ht => (h.seen row (hold row hrow) time ht).trans hnow
  case ended =>
    intro row hrow e he
    have hend := h.ended row (hold row hrow) e he
    exact ⟨hend.1, hend.2.trans hnow⟩
  case apart =>
    intro other
    rw [ofAccount, hsessions]
    exact (h.apart other).sublist (List.filter_sublist.filter _)

/-- The step lemma of the rows. -/
theorem Rows.step (h : s.Rows) (hstep : RowStep s t) (hnow : s.now ≤ t.now) : t.Rows := by
  cases hstep with
  | still hsessions hdrawn => exact h.still hsessions hdrawn hnow
  | marked f hsessions hdrawn hf hseen => exact h.marked hsessions hdrawn hf hseen hnow
  | closed id reason endedAt hsessions hdrawn hopen hle =>
    exact h.closed hsessions hdrawn hopen hle hnow
  | inserted accountId session hsessions hdrawn hmay => exact h.inserted hsessions hdrawn hmay hnow
  | removed accountId hsessions hdrawn => exact h.removed hsessions hdrawn hnow

/-! ## What the calls rely on -/

/-- The rows of the account in `t`, and those that were there, are as they were in `s`. -/
def Carries (s t : Tracker) (accountId : AccountId) : Prop :=
  ∀ row ∈ t.sessions, row.accountId = accountId ∨ row.id < s.drawn →
    ∃ old ∈ s.sessions, old.id = row.id ∧ old.accountId = row.accountId ∧
      old.startedAt = row.startedAt ∧ (row.accountId = accountId → old.endedAt = row.endedAt)

theorem Carries.of_eq (hsessions : t.sessions = s.sessions) (accountId : AccountId) :
    s.Carries t accountId := by
  intro row hrow _
  exact ⟨row, hsessions ▸ hrow, rfl, rfl, rfl, fun _ => rfl⟩

theorem Carries.past (h : s.Carries t accountId) {time : ℕ} (hp : s.Past accountId time) :
    t.Past accountId time := by
  intro row hrow haccount
  obtain ⟨old, hold, -, hsame, hstart, hend⟩ := h row hrow (.inl haccount)
  rw [← hstart, ← hend haccount]
  exact hp old hold (hsame.trans haccount)

theorem Carries.noneOpen (h : s.Carries t accountId) (hn : s.NoneOpen accountId) :
    t.NoneOpen accountId := by
  intro row hrow haccount
  obtain ⟨old, hold, -, hsame, -, hend⟩ := h row hrow (.inl haccount)
  rw [← hend haccount]
  exact hn old hold (hsame.trans haccount)

theorem Carries.mayInsert (h : s.Carries t accountId) (hnow : s.now ≤ t.now)
    {session : NewSession} (hm : s.MayInsert accountId session) : t.MayInsert accountId session :=
  ⟨hm.1.trans hnow, h.past hm.2.1, h.noneOpen hm.2.2⟩

/-- A call goes on relying on rows that did not change. -/
theorem CallKept.frame (h : s.CallKept accountId call) (hc : s.Carries t accountId)
    (hnow : s.now ≤ t.now) (hdrawn : s.drawn ≤ t.drawn) : t.CallKept accountId call := by
  cases call with
  | listing => trivial
  | readingAccount | readingPreset | clearingPreset | readingGames =>
    exact fun hempty => hc.noneOpen (h hempty)
  | listingOpen reason endedAt next => exact ⟨h.1.trans hnow, hc.past h.2.1, h.2.2⟩
  | closing id rest reason endedAt next =>
    obtain ⟨hle, hpast, hnext, hrest, hid, hrows⟩ := h
    refine ⟨hle.trans hnow, hc.past hpast, hnext, hrest, hid.trans_le hdrawn, fun row hrow => ?_⟩
    constructor
    · intro heq
      obtain ⟨old, hold, holdId, hsame, -, hend⟩ := hc row hrow (.inr (heq ▸ hid))
      obtain ⟨haccount, hopen⟩ := (hrows old hold).1 (holdId.trans heq)
      have haccount : row.accountId = accountId := hsame.symm.trans haccount
      exact ⟨haccount, (hend haccount).symm.trans hopen⟩
    · intro haccount hopen
      obtain ⟨old, hold, holdId, hsame, -, hend⟩ := hc row hrow (.inl haccount)
      rw [← holdId]
      exact (hrows old hold).2 (hsame.trans haccount) ((hend haccount).trans hopen)
  | inserting session => exact hc.mayInsert hnow h
  | recording next =>
    cases next with
    | none => trivial
    | some session => exact hc.mayInsert hnow h

theorem Carries.of_marked {f : BoostSession → BoostSession}
    (hsessions : t.sessions = s.sessions.map f)
    (hf : ∀ row, (f row).id = row.id ∧ (f row).accountId = row.accountId ∧
      (f row).startedAt = row.startedAt ∧ (f row).endedAt = row.endedAt ∧
      (f row).stopReason = row.stopReason) : s.Carries t accountId := by
  intro row hrow _
  rw [hsessions] at hrow
  obtain ⟨old, hold, rfl⟩ := List.mem_map.mp hrow
  obtain ⟨hid, haccount, hstart, hend, -⟩ := hf old
  exact ⟨old, hold, hid.symm, haccount.symm, hstart.symm, fun _ => hend.symm⟩

theorem Carries.of_removed
    (hsessions : t.sessions = s.sessions.filter fun row => row.accountId ≠ other) :
    s.Carries t accountId := by
  intro row hrow _
  rw [hsessions] at hrow
  exact ⟨row, (List.mem_filter.mp hrow).1, rfl, rfl, rfl, fun _ => rfl⟩

/-- The session of another account ends. -/
theorem Carries.of_closed {id : SessionId} {reason : StopReason} {endedAt : ℕ}
    (hsessions : t.sessions = (s.close id reason endedAt).sessions)
    (hother : ∀ row ∈ s.sessions, row.id = id → row.accountId ≠ accountId) :
    s.Carries t accountId := by
  intro row hrow _
  rw [hsessions] at hrow
  obtain ⟨old, hold, rfl⟩ := List.mem_map.mp hrow
  split_ifs with hid
  · exact ⟨old, hold, rfl, rfl, rfl, fun haccount => absurd haccount (hother old hold hid)⟩
  · exact ⟨old, hold, rfl, rfl, rfl, fun _ => rfl⟩

/-- Another account begins a session. -/
theorem Carries.of_inserted {session : NewSession}
    (hsessions : t.sessions = (s.insertSession other session).sessions)
    (hother : other ≠ accountId) : s.Carries t accountId := by
  intro row hrow hor
  rw [hsessions] at hrow
  rcases List.mem_append.mp hrow with hrow | hrow
  · exact ⟨row, hrow, rfl, rfl, rfl, fun _ => rfl⟩
  · rw [List.mem_singleton.mp hrow] at hor
    rcases hor with heq | hlt
    · exact absurd heq hother
    · exact absurd hlt (Nat.lt_irrefl _)

/-! ## The steps -/

theorem Kept.running (h : s.Kept) (hcall : s.calls.lookup accountId = some call) :
    s.phase = .running := by
  have hphase := h.phase
  cases hp : s.phase with
  | running => rfl
  | down | listing =>
    rw [hp] at hphase
    rw [hphase.1] at hcall
    cases hcall
  | repairing rest =>
    rw [hp] at hphase
    rw [hphase.1] at hcall
    cases hcall

/-- A call of the account goes on. -/
theorem Kept.called (h : s.Kept) (accountId : AccountId) (hphase : s.phase = .running)
    (hrow : RowStep s t)
    (hcarries : ∀ other, other ≠ accountId → s.Carries t other)
    (hcalls : ∀ other, other ≠ accountId → t.calls.lookup other = s.calls.lookup other)
    (hcall : ∀ call, t.calls.lookup accountId = some call → t.CallKept accountId call)
    (hstamps : t.stamps = s.stamps) (hphase' : t.phase = s.phase) (hnow : t.now = s.now)
    (hdrawn : s.drawn ≤ t.drawn) : t.Kept := by
  constructor
  case rows => exact h.rows.step hrow hnow.ge
  case stamps =>
    rw [hstamps, hnow]
    exact h.stamps
  case calls =>
    intro other call hother
    by_cases hsame : other = accountId
    · subst hsame
      exact hcall call hother
    · rw [hcalls other hsame] at hother
      exact (h.calls other call hother).frame (hcarries other hsame) hnow.ge hdrawn
  case phase =>
    rw [hphase', hphase]
    trivial

theorem Kept.await (h : s.Kept) (hphase : s.phase = .running) (hcall : s.CallKept accountId call) :
    (s.await accountId call).Kept := by
  refine h.called accountId hphase (.still rfl rfl) (fun other _ => .of_eq rfl other) ?_ ?_ rfl rfl
    rfl le_rfl
  · intro other hother
    exact AList.lookup_insert_ne hother
  · intro call' hcall'
    obtain rfl := Option.some.inj ((AList.lookup_insert _).symm.trans hcall')
    exact hcall.frame (.of_eq rfl accountId) le_rfl le_rfl

theorem Kept.finish (h : s.Kept) (hphase : s.phase = .running) (accountId : AccountId) :
    (s.finish accountId).Kept := by
  refine h.called accountId hphase (.still rfl rfl) (fun other _ => .of_eq rfl other) ?_ ?_ rfl rfl
    rfl le_rfl
  · intro other hother
    exact AList.lookup_erase_ne hother
  · intro call hcall
    cases (AList.lookup_erase _ _).symm.trans hcall

theorem Kept.afterEnd (h : s.Kept) (hphase : s.phase = .running) {next : Option NewSession}
    (hnext : ∀ session, next = some session → s.MayInsert accountId session) :
    (s.afterEnd accountId next).Kept := by
  cases next with
  | none => exact h.finish hphase accountId
  | some session =>
    have hkept : s.CallKept accountId (.inserting session) := hnext session rfl
    exact h.await hphase hkept

theorem Rows.past_now (h : s.Rows) (accountId : AccountId) : s.Past accountId s.now :=
  fun row hrow _ => ⟨h.started row hrow, fun e he => (h.ended row hrow e he).2⟩

theorem Kept.endBoostSession (h : s.Kept) (hphase : s.phase = .running) (reason : StopReason)
    {next : Option NewSession} (hnext : ∀ session, next = some session → session.startedAt = s.now) :
    (s.endBoostSession accountId reason s.now next).Kept := by
  have hkept : s.CallKept accountId (.listingOpen reason s.now next) :=
    ⟨le_rfl, h.rows.past_now accountId, hnext⟩
  exact h.await hphase hkept

theorem Kept.decideStart (h : s.Kept) (hphase : s.phase = .running) {existing : List BoostSession}
    (hexisting : existing = [] → s.NoneOpen accountId) (presetId : Option PresetId)
    (appIds : List ℕ) : (s.decideStart accountId existing presetId appIds).Kept := by
  unfold Tracker.decideStart
  dsimp only
  split_ifs with hunchanged hopen
  · exact h.finish hphase accountId
  · apply h.endBoostSession hphase
    intro session hsession
    rw [← Option.some.inj hsession]
  · have hkept : s.CallKept accountId (.inserting ⟨presetId, appIds, s.now⟩) :=
      ⟨le_rfl, h.rows.past_now accountId, hexisting (not_not.mp hopen)⟩
    exact h.await hphase hkept

theorem Kept.chooseApps (h : s.Kept) (hphase : s.phase = .running)
    (activity : Option BoostActivitySnapshot) {existing : List BoostSession}
    (hexisting : existing = [] → s.NoneOpen accountId) (presetId : Option PresetId) :
    (s.chooseApps accountId activity existing presetId).Kept := by
  unfold Tracker.chooseApps
  split
  next => exact h.decideStart hphase hexisting presetId _
  next =>
    split_ifs
    · exact h.decideStart hphase hexisting presetId _
    · have hkept : s.CallKept accountId (.readingGames existing presetId) := hexisting
      exact h.await hphase hkept

theorem mem_openSessions : row ∈ s.openSessions accountId ↔
    row ∈ s.sessions ∧ row.accountId = accountId ∧ row.endedAt = none := by
  simp only [openSessions, ofAccount, List.mem_filter, decide_eq_true_eq,
    Option.isNone_iff_eq_none, and_assoc]

theorem noneOpen_of_openSessions (h : s.openSessions accountId = []) : s.NoneOpen accountId := by
  intro row hrow haccount hopen
  have hmem := mem_openSessions.mpr ⟨hrow, haccount, hopen⟩
  rw [h] at hmem
  cases hmem

/-- An account has at most one open session. -/
theorem Rows.openSessions_length_le (h : s.Rows) (accountId : AccountId) :
    (s.openSessions accountId).length ≤ 1 := by
  have hpairs : (s.openSessions accountId).Pairwise BoostSession.Before :=
    (h.apart accountId).sublist List.filter_sublist
  by_contra hlong
  rw [Nat.not_le] at hlong
  match hopen : s.openSessions accountId with
  | [] | [_] =>
    rw [hopen] at hlong
    simp at hlong
  | first :: second :: rest =>
    rw [hopen] at hpairs
    obtain ⟨e, he, -⟩ := (List.pairwise_cons.mp hpairs).1 second List.mem_cons_self
    have hnone := (mem_openSessions.mp (hopen ▸ List.mem_cons_self)).2.2
    have he : first.endedAt = some e := he
    rw [he] at hnone
    cases hnone

/-- The update of the open session of a call. -/
theorem Kept.closing (h : s.Kept) (hphase : s.phase = .running) {id : SessionId}
    {reason : StopReason} {endedAt : ℕ} {next : Option NewSession}
    (hkept : s.CallKept accountId (.closing id [] reason endedAt next)) :
    ((s.close id reason endedAt).await accountId (.recording next)).Kept := by
  obtain ⟨hle, hpast, hnext, -, hid, hrows⟩ := hkept
  have hrow : RowStep s ((s.close id reason endedAt).await accountId (.recording next)) := by
    refine .closed id reason endedAt rfl rfl (fun row hrow heq => ?_) hle
    obtain ⟨haccount, hopen⟩ := (hrows row hrow).1 heq
    exact ⟨hopen, (hpast row hrow haccount).1⟩
  refine h.called accountId hphase hrow ?_ ?_ ?_ rfl rfl rfl le_rfl
  · intro other hother
    refine .of_closed rfl fun row hrow heq haccount => ?_
    exact hother (haccount.symm.trans ((hrows row hrow).1 heq).1)
  · intro other hother
    exact AList.lookup_insert_ne hother
  · intro call hcall
    obtain rfl := Option.some.inj ((AList.lookup_insert _).symm.trans hcall)
    cases next with
    | none => trivial
    | some session =>
      have hstart := hnext session rfl
      refine ⟨hstart ▸ hle, ?_, ?_⟩
      · intro row hrow haccount
        rw [hstart]
        obtain ⟨old, hold, rfl⟩ := List.mem_map.mp hrow
        split_ifs at haccount ⊢ with heq
        · exact ⟨(hpast old hold haccount).1, fun e he => (Option.some.inj he).symm.le⟩
        · exact hpast old hold haccount
      · intro row hrow haccount hopen
        obtain ⟨old, hold, rfl⟩ := List.mem_map.mp hrow
        split_ifs at haccount hopen with heq
        exact heq ((hrows old hold).2 haccount hopen)

theorem Kept.inserting (h : s.Kept) (hphase : s.phase = .running) {session : NewSession}
    (hmay : s.MayInsert accountId session) :
    ((s.insertSession accountId session).await accountId (.recording none)).Kept := by
  refine h.called accountId hphase (.inserted accountId session rfl rfl hmay) ?_ ?_ ?_ rfl rfl rfl
    (Nat.le_succ _)
  · exact fun other hother => .of_inserted rfl (Ne.symm hother)
  · intro other hother
    exact AList.lookup_insert_ne hother
  · intro call hcall
    obtain rfl := Option.some.inj ((AList.lookup_insert _).symm.trans hcall)
    trivial

theorem Kept.configure (h : s.Kept) (accounts : Table AccountId BoostAccount) :
    { s with accounts := accounts }.Kept := by
  constructor
  case rows => exact h.rows.still rfl rfl le_rfl
  case stamps => exact h.stamps
  case calls =>
    intro other call hcall
    exact (h.calls other call hcall).frame (.of_eq rfl other) le_rfl le_rfl
  case phase => exact h.phase

theorem Kept.proceed (h : s.Kept) (hn : s.proceed accountId = some t) : t.Kept := by
  obtain ⟨call, hcall, hn⟩ := Option.bind_eq_some_iff.mp hn
  have hphase := h.running hcall
  have hkept := h.calls accountId call hcall
  cases call with
  | listing activity =>
    obtain rfl := Option.some.inj hn
    have hnew : s.CallKept accountId (.readingAccount activity (s.openSessions accountId)) :=
      noneOpen_of_openSessions
    exact h.await hphase hnew
  | readingAccount activity existing =>
    dsimp only at hn
    split at hn
    next =>
      obtain rfl := Option.some.inj hn
      exact h.finish hphase accountId
    next account _ =>
      split at hn
      next presetId _ =>
        obtain rfl := Option.some.inj hn
        have hnew : s.CallKept accountId (.readingPreset activity existing presetId) := hkept
        exact h.await hphase hnew
      next =>
        obtain rfl := Option.some.inj hn
        exact h.chooseApps hphase activity hkept none
  | readingPreset activity existing presetId =>
    dsimp only at hn
    split_ifs at hn
    · obtain rfl := Option.some.inj hn
      exact h.chooseApps hphase activity hkept (some presetId)
    · obtain rfl := Option.some.inj hn
      have hnew : s.CallKept accountId (.clearingPreset activity existing) := hkept
      exact h.await hphase hnew
  | clearingPreset activity existing =>
    obtain rfl := Option.some.inj hn
    have hset := h.configure (s.accounts.modify accountId fun account =>
      { account with activePresetId := none })
    exact hset.chooseApps hphase activity hkept none
  | readingGames existing presetId =>
    obtain rfl := Option.some.inj hn
    exact h.decideStart hphase hkept presetId _
  | listingOpen reason endedAt next =>
    obtain ⟨hle, hpast, hnext⟩ := hkept
    dsimp only at hn
    split at hn
    next hempty =>
      obtain rfl := Option.some.inj hn
      apply h.afterEnd hphase
      intro session hsession
      have hstart := hnext session hsession
      exact ⟨hstart ▸ hle, hstart ▸ hpast, noneOpen_of_openSessions (List.map_eq_nil_iff.mp hempty)⟩
    next id rest hopen =>
      obtain rfl := Option.some.inj hn
      obtain ⟨row, rows, hrows, rfl, rfl⟩ := List.map_eq_cons_iff.mp hopen
      have hlength := h.rows.openSessions_length_le accountId
      rw [hrows, List.length_cons] at hlength
      obtain rfl : rows = [] := List.length_eq_zero_iff.mp (by omega)
      obtain ⟨hmem, haccount, hnone⟩ := mem_openSessions.mp (hrows ▸ List.mem_singleton_self row)
      have hnew : s.CallKept accountId (.closing row.id [] reason endedAt next) := by
        refine ⟨hle, hpast, hnext, rfl, h.rows.drawn row hmem, fun other hother => ⟨?_, ?_⟩⟩
        · intro heq
          obtain rfl := h.rows.eq_of_id hother hmem heq
          exact ⟨haccount, hnone⟩
        · intro hsame hopen
          have hin := mem_openSessions.mpr ⟨hother, hsame, hopen⟩
          rw [hrows] at hin
          rw [List.mem_singleton.mp hin]
      exact h.await hphase hnew
  | closing id rest reason endedAt next =>
    obtain rfl : rest = [] := hkept.2.2.2.1
    obtain rfl := Option.some.inj hn
    exact h.closing hphase hkept
  | inserting session =>
    dsimp only at hn
    split_ifs at hn
    · obtain rfl := Option.some.inj hn
      exact h.inserting hphase hkept
    · obtain rfl := Option.some.inj hn
      exact h.finish hphase accountId
  | recording next =>
    obtain rfl := Option.some.inj hn
    apply h.afterEnd hphase
    rintro session rfl
    exact hkept

/-- A step between the calls and outside of the repair. -/
theorem Kept.aside (h : s.Kept) (hrow : RowStep s t)
    (hcarries : ∀ accountId, s.Carries t accountId) (hcalls : t.calls = s.calls)
    (hstamps : ∀ time ∈ t.stamps, time ∈ s.stamps ∨ time ≤ s.now) (hnow : s.now ≤ t.now)
    (hdrawn : s.drawn ≤ t.drawn) (hphase : t.PhaseKept t.phase) : t.Kept := by
  constructor
  case rows => exact h.rows.step hrow hnow
  case stamps =>
    intro time htime
    rcases hstamps time htime with hold | hle
    · exact (h.stamps time hold).trans hnow
    · exact hle.trans hnow
  case calls =>
    intro accountId call hcall
    rw [hcalls] at hcall
    exact (h.calls accountId call hcall).frame (hcarries accountId) hnow hdrawn
  case phase => exact hphase

/-- The repair goes on relying on rows that did not change. -/
theorem PhaseKept.frame {phase : Phase} (h : s.PhaseKept phase) (hcalls : t.calls = s.calls)
    (hstamps : s.stamps = [] → t.stamps = []) (hnow : s.now ≤ t.now)
    (hrows : ∀ row ∈ t.sessions, ∃ old ∈ s.sessions, old.id = row.id ∧
      old.startedAt = row.startedAt ∧ old.endedAt = row.endedAt) : t.PhaseKept phase := by
  cases phase with
  | running => trivial
  | down | listing => exact ⟨hcalls.trans h.1, hstamps h.2⟩
  | repairing rest =>
    obtain ⟨hempty, hnone, hnodup, hall, hrest⟩ := h
    refine ⟨hcalls.trans hempty, hstamps hnone, hnodup, ?_, ?_⟩
    · intro row hrow hopen
      obtain ⟨old, hold, hid, -, hend⟩ := hrows row hrow
      rw [← hid]
      exact hall old hold (hend.trans hopen)
    · intro listed hlisted
      refine ⟨fun time htime => ((hrest listed hlisted).1 time htime).trans hnow, ?_⟩
      intro row hrow heq
      obtain ⟨old, hold, hid, hstart, hend⟩ := hrows row hrow
      obtain ⟨hopen, hsame⟩ := (hrest listed hlisted).2 old hold (hid.trans heq)
      exact ⟨hend.symm.trans hopen, hstart.symm.trans hsame⟩

theorem Kept.boot (h : s.Kept) (hn : s.boot = some t) : t.Kept := by
  unfold Tracker.boot at hn
  split_ifs at hn with hphase
  obtain rfl := Option.some.inj hn
  have hdown := h.phase
  rw [hphase] at hdown
  have hlisting : ({ s with phase := .listing } : Tracker).PhaseKept .listing := hdown
  exact h.aside (.still rfl rfl) (Carries.of_eq rfl) rfl (fun _ htime => .inl htime) le_rfl le_rfl
    hlisting

/-- One session that a crash left open ends at its last stamp. -/
theorem Kept.repair (h : s.Kept) (hn : s.repair = some t) : t.Kept := by
  unfold Tracker.repair at hn
  have hkept := h.phase
  split at hn
  next hphase =>
    obtain rfl := Option.some.inj hn
    rw [hphase] at hkept
    refine h.aside (.still rfl rfl) (Carries.of_eq rfl) rfl (fun _ htime => .inl htime) le_rfl le_rfl
      ⟨hkept.1, hkept.2, h.rows.ids.sublist (List.filter_sublist.map _), ?_, ?_⟩
    · intro row hrow hopen
      exact ⟨row, List.mem_filter.mpr ⟨hrow, by simp [hopen]⟩, rfl⟩
    · intro old hold
      obtain ⟨hold, hopen⟩ := List.mem_filter.mp hold
      refine ⟨h.rows.seen old hold, fun row hrow heq => ?_⟩
      obtain rfl := h.rows.eq_of_id hrow hold heq
      exact ⟨by simpa using hopen, rfl⟩
  next hphase =>
    obtain rfl := Option.some.inj hn
    exact h.aside (.still rfl rfl) (Carries.of_eq rfl) rfl (fun _ htime => .inl htime) le_rfl le_rfl
      trivial
  next old rest hphase =>
    obtain rfl := Option.some.inj hn
    rw [hphase] at hkept
    obtain ⟨hcalls, hstamps, hnodup, hall, hrest⟩ := hkept
    obtain ⟨hfresh, hnodup⟩ := List.nodup_cons.mp hnodup
    have hopen := (hrest old List.mem_cons_self).2
    have hend : ∀ row ∈ s.sessions, row.id = old.id → row.endedAt = none ∧
        row.startedAt ≤ max old.startedAt (old.lastSeenAt.getD old.startedAt) := by
      intro row hrow heq
      exact ⟨(hopen row hrow heq).1, (hopen row hrow heq).2.le.trans (le_max_left _ _)⟩
    by_cases hpresent : ∃ row ∈ s.sessions, row.id = old.id
    · obtain ⟨row, hrow, heq⟩ := hpresent
      have hstart : old.startedAt ≤ s.now := (hopen row hrow heq).2 ▸ h.rows.started row hrow
      have hlast : old.lastSeenAt.getD old.startedAt ≤ s.now := by
        cases hseen : old.lastSeenAt with
        | none => exact hstart
        | some time => exact (hrest old List.mem_cons_self).1 time hseen
      have hsteps := RowStep.closed (s := s) (t := { s.close old.id .interrupted
        (max old.startedAt (old.lastSeenAt.getD old.startedAt)) with phase := .repairing rest })
        old.id .interrupted _ rfl rfl hend (max_le hstart hlast)
      constructor
      case rows => exact h.rows.step hsteps le_rfl
      case stamps => exact h.stamps
      case calls =>
        intro accountId call hcall
        have hcall : s.calls.lookup accountId = some call := hcall
        rw [hcalls] at hcall
        cases hcall
      case phase =>
        refine ⟨hcalls, hstamps, hnodup, ?_, ?_⟩
        · intro row hrow hnone
          obtain ⟨before, hbefore, rfl⟩ := List.mem_map.mp hrow
          split_ifs at hnone ⊢ with heq
          obtain ⟨listed, hlisted, hid⟩ := hall before hbefore hnone
          rcases List.mem_cons.mp hlisted with rfl | hlisted
          · exact absurd hid.symm heq
          · exact ⟨listed, hlisted, hid⟩
        · intro listed hlisted
          refine ⟨(hrest listed (List.mem_cons_of_mem _ hlisted)).1, fun row hrow hid => ?_⟩
          obtain ⟨before, hbefore, rfl⟩ := List.mem_map.mp hrow
          split_ifs at hid ⊢ with heq
          · have hsame : listed.id = old.id := hid.symm.trans heq
            exact absurd (List.mem_map.mpr ⟨listed, hlisted, hsame⟩) hfresh
          · exact (hrest listed (List.mem_cons_of_mem _ hlisted)).2 before hbefore hid
    · -- the account was deleted meanwhile, and the update finds no row
      have hsame : (s.close old.id .interrupted
          (max old.startedAt (old.lastSeenAt.getD old.startedAt))).sessions = s.sessions := by
        rw [close]
        conv_rhs => rw [← List.map_id' s.sessions]
        refine List.map_congr_left fun row hrow => ?_
        rw [if_neg fun heq => hpresent ⟨row, hrow, heq⟩]
      refine h.aside (.still hsame rfl) (Carries.of_eq hsame) rfl (fun _ htime => .inl htime) le_rfl
        le_rfl ⟨hcalls, hstamps, hnodup, ?_, ?_⟩
      · rw [hsame]
        intro row hrow hnone
        obtain ⟨listed, hlisted, hid⟩ := hall row hrow hnone
        rcases List.mem_cons.mp hlisted with rfl | hlisted
        · exact absurd ⟨row, hrow, hid.symm⟩ hpresent
        · exact ⟨listed, hlisted, hid⟩
      · rw [hsame]
        exact fun listed hlisted => hrest listed (List.mem_cons_of_mem _ hlisted)
  next => cases hn

/-- The step lemma. -/
theorem Kept.next (h : s.Kept) (hn : trackerMachine.next s a = some t) : t.Kept := by
  have hphase := h.phase
  cases a with
  | track accountId status activity =>
    simp only [trackerMachine, Tracker.track] at hn
    split_ifs at hn with hidle
    obtain rfl := Option.some.inj hn
    unfold trackBoostSession
    split_ifs
    · have hkept : s.CallKept accountId (.listing activity) := trivial
      exact h.await hidle.1 hkept
    · apply h.endBoostSession hidle.1
      intro session hsession
      cases hsession
    · apply h.endBoostSession hidle.1
      intro session hsession
      cases hsession
  | proceed accountId => exact h.proceed hn
  | heartbeat =>
    simp only [trackerMachine, Tracker.heartbeat] at hn
    split_ifs at hn with hrunning
    obtain rfl := Option.some.inj hn
    refine h.aside (.still rfl rfl) (Carries.of_eq rfl) rfl ?_ le_rfl le_rfl ?_
    · intro time htime
      rcases List.mem_cons.mp htime with rfl | htime
      · exact .inr le_rfl
      · exact .inl htime
    · show PhaseKept _ s.phase
      rw [hrunning]
      trivial
  | stamp seenAt =>
    simp only [trackerMachine, Tracker.stamp] at hn
    split_ifs at hn with hpending
    obtain rfl := Option.some.inj hn
    have hf (row : BoostSession) : (if row.endedAt.isNone = true then
        { row with lastSeenAt := some seenAt } else row) = { row with
          lastSeenAt := (if row.endedAt.isNone then some seenAt else row.lastSeenAt) } := by
      split_ifs <;> rfl
    have hsessions : s.sessions.map (fun row => if row.endedAt.isNone = true then
        { row with lastSeenAt := some seenAt } else row) = s.sessions.map fun row =>
          { row with
            lastSeenAt := (if row.endedAt.isNone then some seenAt else row.lastSeenAt) } :=
      List.map_congr_left fun row _ => hf row
    refine h.aside (.marked _ hsessions rfl (fun row => ⟨rfl, rfl, rfl, rfl, rfl⟩) ?_)
      (fun accountId => .of_marked hsessions fun row => ⟨rfl, rfl, rfl, rfl, rfl⟩) rfl
      (fun _ htime => .inl (List.mem_of_mem_erase htime)) le_rfl le_rfl ?_
    · intro row time htime
      dsimp only at htime
      split_ifs at htime
      · exact .inr (Option.some.inj htime ▸ h.stamps seenAt hpending)
      · exact .inl htime
    · refine hphase.frame rfl (fun hnone => ?_) le_rfl fun row hrow => ?_
      · rw [hnone] at hpending
        cases hpending
      · rw [hsessions] at hrow
        obtain ⟨old, hold, rfl⟩ := List.mem_map.mp hrow
        exact ⟨old, hold, rfl, rfl, rfl⟩
  | crash =>
    obtain rfl := Option.some.inj hn
    constructor
    case rows => exact h.rows.still rfl rfl le_rfl
    case stamps => exact fun time htime => by cases htime
    case calls => exact fun accountId call hcall => by cases hcall
    case phase => exact ⟨rfl, rfl⟩
  | boot => exact h.boot hn
  | repair => exact h.repair hn
  | configure accountId account =>
    obtain rfl := Option.some.inj hn
    exact h.configure _
  | remove accountId =>
    obtain rfl := Option.some.inj hn
    refine h.aside (.removed accountId rfl rfl) (fun other => .of_removed rfl) rfl
      (fun _ htime => .inl htime) le_rfl le_rfl (hphase.frame rfl (fun hnone => hnone) le_rfl ?_)
    exact fun row hrow => ⟨row, (List.mem_filter.mp hrow).1, rfl, rfl, rfl⟩
  | forgetPreset presetId =>
    obtain rfl := Option.some.inj hn
    have hsessions : (s.forgetPreset presetId).sessions = s.sessions.map fun row =>
        { row with
          presetId := (if row.presetId = some presetId then none else row.presetId) } := by
      refine List.map_congr_left fun row _ => ?_
      split_ifs <;> rfl
    refine h.aside (.marked _ hsessions rfl (fun row => ⟨rfl, rfl, rfl, rfl, rfl⟩)
      fun row time htime => .inl htime)
      (fun accountId => .of_marked hsessions fun row => ⟨rfl, rfl, rfl, rfl, rfl⟩) rfl
      (fun _ htime => .inl htime) le_rfl le_rfl (hphase.frame rfl (fun hnone => hnone) le_rfl ?_)
    intro row hrow
    rw [hsessions] at hrow
    obtain ⟨old, hold, rfl⟩ := List.mem_map.mp hrow
    exact ⟨old, hold, rfl, rfl, rfl⟩
  | tick elapsed =>
    obtain rfl := Option.some.inj hn
    refine h.aside (.still rfl rfl) (Carries.of_eq rfl) rfl (fun _ htime => .inl htime)
      (Nat.le_add_right _ _) le_rfl
      (hphase.frame rfl (fun hnone => hnone) (Nat.le_add_right _ _) ?_)
    exact fun row hrow => ⟨row, hrow, rfl, rfl, rfl⟩

theorem kept_starts (h : trackerMachine.Starts s) : s.Kept := by
  obtain ⟨accounts, now, rfl⟩ := h
  constructor
  case rows =>
    exact ⟨.nil, fun _ h => (by cases h), fun _ h => (by cases h), fun _ h => (by cases h),
      fun _ h => (by cases h), fun _ => .nil⟩
  case stamps => exact fun _ h => by cases h
  case calls => exact fun _ _ h => by cases h
  case phase => exact ⟨rfl, rfl⟩

theorem kept_of_reachable (h : trackerMachine.Reachable s) : s.Kept :=
  h.invariant (fun _ hs => kept_starts hs) fun _ _ _ hs _ hn => hs.next hn

end Tracker

/-- The history of an account is sound, and the overlaps of its sessions with a range add up
to the time of the range in which one of them was active. -/
structure SoundHistory (s : Tracker) (accountId : AccountId) : Prop where
  oneOpen : (s.openSessions accountId).length ≤ 1
  endAfterStart : ∀ row ∈ s.ofAccount accountId, ∀ e, row.endedAt = some e → row.startedAt ≤ e
  apart : (s.ofAccount accountId).Pairwise fun row row' => ∀ t, ¬ (row.ActiveAt t ∧ row'.ActiveAt t)
  overlap : ∀ rangeStart rangeEnd, sumOverlap (s.ofAccount accountId) rangeStart rangeEnd =
    ((Finset.Ico rangeStart rangeEnd).filter fun t =>
      ∃ row ∈ s.ofAccount accountId, row.ActiveAt t).card

theorem soundHistory_of_reachable {s : Tracker} (h : trackerMachine.Reachable s)
    (accountId : AccountId) : SoundHistory s accountId := by
  have hrows := (Tracker.kept_of_reachable h).rows
  constructor
  case oneOpen => exact hrows.openSessions_length_le accountId
  case endAfterStart =>
    intro row hrow e he
    exact (hrows.ended row (List.mem_filter.mp hrow).1 e he).1
  case apart => exact (hrows.apart accountId).imp Intervals.Before.disjoint
  case overlap =>
    intro rangeStart rangeEnd
    exact Intervals.total_overlap (hrows.apart accountId) rangeStart rangeEnd

/-- A session is rotated when the selection changes, its successor is seen once and left open
by a crash. -/
def crashedBee : Tracker :=
  (trackerMachine.exec ⟨∅, [], ∅, [], .down, 1000, 0⟩ (List.flatten [
    [.boot, .repair, .repair, .configure "bee" ⟨none, [], [(10, true)]⟩,
      .track "bee" .boosting none], .replicate 5 (.proceed "bee"),
    [.tick 10, .configure "bee" ⟨none, [], [(20, true)]⟩, .track "bee" .boosting none],
    .replicate 8 (.proceed "bee"),
    [.tick 5, .heartbeat, .stamp 1015, .tick 7, .crash, .boot, .repair, .repair, .repair]])).getD
    ⟨∅, [], ∅, [], .down, 1000, 0⟩

theorem soundHistory_crashedBee : SoundHistory crashedBee "bee" ∧
    (crashedBee.ofAccount "bee").map (fun row => (row.startedAt, row.endedAt, row.stopReason)) =
      [(1000, some 1010, some .selectionChanged), (1010, some 1015, some .interrupted)] ∧
    sumOverlap (crashedBee.ofAccount "bee") 1005 2000 = 10 :=
  ⟨soundHistory_of_reachable (Transition.Machine.reachable_exec ⟨_, _, rfl⟩ (by decide +kernel)) "bee",
    by decide +kernel, by decide +kernel⟩

end SteamBee.Steam
