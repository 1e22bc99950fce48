import SteamBee.Data.Table
import SteamBee.Transition.Machine

/-! The tick loop of the schedule coordinator: requests that arrive while a loop runs are
merged into one trailing slot. Every microtask of the loop is a step of its own. -/
namespace SteamBee.Schedule

abbrev LoopId := ℕ

/-- Where the promise of a `tick` stands: `tickNow` runs; it settled; `runTickLoop`
settled; its `finally` ran; the promise that the callers hold settled. -/
inductive Stage where
  | ticking (now : ℕ)
  | ticked (now : ℕ) (ok : Bool)
  | returned (ok : Bool)
  | cleared (ok : Bool)
  | settled (ok : Bool)
  deriving DecidableEq, Repr

/-- The loop has run its `finally`. -/
def Stage.isDone : Stage → Bool
  | .cleared _ | .settled _ => true
  | _ => false

/-- `ran` records the times for which `tickNow` succeeded, `requests` each requested
time with the promise it got, both newest first. -/
structure TickLoop where
  tickInFlight : Option LoopId
  trailingTickAt : Option ℕ
  latestRequestedTickAt : Option ℕ
  loops : Table LoopId Stage
  drawn : ℕ
  ran : List ℕ
  requests : List (ℕ × LoopId)
  deriving DecidableEq

namespace TickLoop

def empty : TickLoop := ⟨none, none, none, ∅, 0, [], []⟩

def setStage (s : TickLoop) (id : LoopId) (stage : Stage) : TickLoop :=
  { s with loops := s.loops.insert id stage }

def tick (s : TickLoop) (now : ℕ) : TickLoop :=
  match s.tickInFlight with
  | some id =>
    let s := { s with requests := (now, id) :: s.requests }
    if s.latestRequestedTickAt.all fun latest => decide (latest < now) then
      { s with latestRequestedTickAt := some now, trailingTickAt := some now }
    else s
  | none =>
    { s with
      latestRequestedTickAt := some now
      tickInFlight := some s.drawn
      loops := s.loops.insert s.drawn (.ticking now)
      drawn := s.drawn + 1
      requests := (now, s.drawn) :: s.requests }

def finish (s : TickLoop) (id : LoopId) (ok : Bool) : Option TickLoop :=
  match s.loops.lookup id with
  | some (.ticking now) =>
    let s := s.setStage id (.ticked now ok)
    some (if ok then { s with ran := now :: s.ran } else s)
  | _ => none

/-- `runTickLoop` goes on after `await this.tickNow(now)`. -/
def check (s : TickLoop) (id : LoopId) : Option TickLoop :=
  match s.loops.lookup id with
  | some (.ticked _ false) => some (s.setStage id (.returned false))
  | some (.ticked _ true) =>
    match s.trailingTickAt with
    | none => some (s.setStage id (.returned true))
    | some trailingTickAt =>
      some ({ s with trailingTickAt := none }.setStage id (.ticking trailingTickAt))
  | _ => none

/-- The `finally` of the loop. -/
def clear (s : TickLoop) (id : LoopId) : Option TickLoop :=
  match s.loops.lookup id with
  | some (.returned ok) =>
    let s := s.setStage id (.cleared ok)
    some <|
      if s.tickInFlight = some id then
        { s with tickInFlight := none, trailingTickAt := none, latestRequestedTickAt := none }
      else s
  | _ => none

def settle (s : TickLoop) (id : LoopId) : Option TickLoop :=
  match s.loops.lookup id with
  | some (.cleared ok) => some (s.setStage id (.settled ok))
  | _ => none

end TickLoop

inductive LoopAction where
  | tick (now : ℕ)
  | finish (id : LoopId) (ok : Bool)
  | check (id : LoopId)
  | clear (id : LoopId)
  | settle (id : LoopId)
  deriving DecidableEq, Repr

/-- The loop under every order of calls and microtasks. -/
def loopMachine : Transition.Machine TickLoop LoopAction where
  Starts s := s = .empty
  next s
    | .tick now => some (s.tick now)
    | .finish id ok => s.finish id ok
    | .check id => s.check id
    | .clear id => s.clear id
    | .settle id => s.settle id

/-- What the slots of the loop in flight promise: `latest` bounds every request that
shares its promise, and is about to run, waits in the slot, or has run. -/
def Stage.Covers (latest : ℕ) (trailing : Option ℕ) (ran : List ℕ) : Stage → Prop
  | .ticking now => trailing = some latest ∨ trailing = none ∧ now = latest
  | .ticked now ok => (ok = true → now ∈ ran) ∧
    (trailing = some latest ∨ trailing = none ∧ now = latest)
  | .returned ok => ok = true → latest ∈ ran
  | .cleared _ | .settled _ => True

namespace TickLoop
variable {s t : TickLoop} {id : LoopId}

theorem lookup_setStage (stage : Stage) (k : LoopId) : (s.setStage id stage).loops.lookup k =
    if k = id then some stage else s.loops.lookup k := Table.lookup_insert_eq _ _ _ _

structure Serial (s : TickLoop) : Prop where
  fresh : ∀ id stage, s.loops.lookup id = some stage → id < s.drawn
  only : ∀ id stage, s.loops.lookup id = some stage → stage.isDone = false →
    s.tickInFlight = some id
  flying : ∀ id, s.tickInFlight = some id →
    ∃ stage, s.loops.lookup id = some stage ∧ stage.isDone = false

/-- A loop in flight goes on to a stage that is not done either. -/
theorem Serial.goesOn {stage stage' : Stage} (h : s.Serial)
    (hs : s.loops.lookup id = some stage) (hd : stage.isDone = false)
    (hd' : stage'.isDone = false) (hflight : t.tickInFlight = s.tickInFlight)
    (hdrawn : t.drawn = s.drawn) (hloops : t.loops = (s.setStage id stage').loops) :
    t.Serial := by
  constructor
  · intro k st hk
    rw [hloops, lookup_setStage] at hk
    rw [hdrawn]
    split_ifs at hk with hkid
    · rw [hkid]
      exact h.fresh id stage hs
    · exact h.fresh k st hk
  · intro k st hk hst
    rw [hloops, lookup_setStage] at hk
    rw [hflight]
    split_ifs at hk with hkid
    · rw [hkid]
      exact h.only id stage hs hd
    · exact h.only k st hk hst
  · intro k hk
    rw [hflight] at hk
    obtain ⟨st, hst, hdone⟩ := h.flying k hk
    rw [hloops]
    by_cases hkid : k = id
    · exact ⟨stage', by rw [lookup_setStage, if_pos hkid], hd'⟩
    · exact ⟨st, by rw [lookup_setStage, if_neg hkid]; exact hst, hdone⟩

theorem Serial.tick (h : s.Serial) (now : ℕ) : (s.tick now).Serial := by
  unfold TickLoop.tick
  split
  next id hid =>
    dsimp only
    split_ifs
    · exact ⟨h.fresh, fun k st hk hst => h.only k st hk hst, h.flying⟩
    · exact ⟨h.fresh, h.only, h.flying⟩
  next hnone =>
    constructor
    · intro k st hk
      rw [Table.lookup_insert_eq] at hk
      show k < s.drawn + 1
      split_ifs at hk with hkd
      · rw [hkd]
        exact Nat.lt_succ_self _
      · exact Nat.lt_succ_of_lt (h.fresh k st hk)
    · intro k st hk hst
      rw [Table.lookup_insert_eq] at hk
      split_ifs at hk with hkd
      · rw [hkd]
      · have hfly := h.only k st hk hst
        simp [hnone] at hfly
    · intro k hk
      obtain rfl : s.drawn = k := Option.some.inj hk
      exact ⟨.ticking now, AList.lookup_insert _, rfl⟩

/-- A loop runs its `finally`. -/
theorem Serial.clear (h : s.Serial) (ht : s.clear id = some t) : t.Serial := by
  unfold TickLoop.clear at ht
  split at ht
  next ok hs =>
    have hfly : s.tickInFlight = some id := h.only id _ hs rfl
    have hfly' : (s.setStage id (.cleared ok)).tickInFlight = some id := hfly
    dsimp only at ht
    rw [if_pos hfly'] at ht
    obtain rfl := Option.some.inj ht
    constructor
    · intro k st hk
      rw [lookup_setStage] at hk
      show k < s.drawn
      split_ifs at hk with hkid
      · rw [hkid]
        exact h.fresh id _ hs
      · exact h.fresh k st hk
    · intro k st hk hst
      rw [lookup_setStage] at hk
      split_ifs at hk with hkid
      · obtain rfl := Option.some.inj hk
        cases hst
      · have hfly'' := h.only k st hk hst
        exact absurd (Option.some.inj (hfly''.symm.trans hfly)) hkid
    · intro k hk
      cases hk
  next => cases ht

theorem Serial.settle (h : s.Serial) (ht : s.settle id = some t) : t.Serial := by
  unfold TickLoop.settle at ht
  split at ht
  next ok hs =>
    obtain rfl := Option.some.inj ht
    constructor
    · intro k st hk
      rw [lookup_setStage] at hk
      split_ifs at hk with hkid
      · rw [hkid]
        exact h.fresh id _ hs
      · exact h.fresh k st hk
    · intro k st hk hst
      rw [lookup_setStage] at hk
      split_ifs at hk with hkid
      · obtain rfl := Option.some.inj hk
        cases hst
      · exact h.only k st hk hst
    · intro k hk
      obtain ⟨st, hst, hdone⟩ := h.flying k hk
      refine ⟨st, ?_, hdone⟩
      rw [lookup_setStage, if_neg]
      · exact hst
      · rintro rfl
        obtain rfl := Option.some.inj (hs.symm.trans hst)
        cases hdone
  next => cases ht

theorem Serial.next (h : s.Serial) {a : LoopAction} (ht : loopMachine.next s a = some t) :
    t.Serial := by
  cases a with
  | tick now =>
    obtain rfl := Option.some.inj ht
    exact h.tick now
  | finish id ok =>
    simp only [loopMachine, TickLoop.finish] at ht
    split at ht
    next now hs =>
      obtain rfl := Option.some.inj ht
      cases ok with
      | false => exact h.goesOn hs rfl rfl rfl rfl rfl
      | true => exact h.goesOn hs rfl rfl rfl rfl rfl
    next => cases ht
  | check id =>
    simp only [loopMachine, TickLoop.check] at ht
    split at ht
    next hs =>
      obtain rfl := Option.some.inj ht
      exact h.goesOn hs rfl rfl rfl rfl rfl
    next hs =>
      split at ht
      · obtain rfl := Option.some.inj ht
        exact h.goesOn hs rfl rfl rfl rfl rfl
      · obtain rfl := Option.some.inj ht
        exact h.goesOn hs rfl rfl rfl rfl rfl
    next => cases ht
  | clear id => exact h.clear ht
  | settle id => exact h.settle ht

theorem serial_empty : empty.Serial := by
  constructor
  · intro k st hk
    cases hk
  · intro k st hk
    cases hk
  · intro k hk
    cases hk

/-- Every request is bounded by a time that ran or is still going to run. -/
structure Heard (s : TickLoop) : Prop extends Serial s where
  asked : ∀ time id, (time, id) ∈ s.requests → id < s.drawn
  rests : s.tickInFlight = none → s.trailingTickAt = none
  covers : ∀ id stage, s.tickInFlight = some id → s.loops.lookup id = some stage →
    ∃ latest, s.latestRequestedTickAt = some latest ∧
      (∀ time, (time, id) ∈ s.requests → time ≤ latest) ∧
      stage.Covers latest s.trailingTickAt s.ran
  served : ∀ time id stage, (time, id) ∈ s.requests → s.loops.lookup id = some stage →
    stage = .cleared true ∨ stage = .settled true → ∃ now ∈ s.ran, time ≤ now

/-- The loop does not hear of a later time between its last look at the trailing slot
and its `finally`. -/
def inTime (s : TickLoop) : LoopAction → Bool
  | .tick now =>
    match s.tickInFlight.bind s.loops.lookup with
    | some (.returned _) => s.latestRequestedTickAt.any fun latest => now ≤ latest
    | _ => true
  | _ => true

theorem heard_empty : empty.Heard := by
  refine ⟨serial_empty, ?_, fun _ => rfl, ?_, ?_⟩
  · intro time id hmem
    cases hmem
  · intro id stage hid
    cases hid
  · intro time id stage hmem
    cases hmem

/-- The loop in flight goes on to `stage'`, which covers the same requests. -/
theorem Heard.goesOn {stage stage' : Stage} (h : s.Heard) (hs : s.loops.lookup id = some stage)
    (hd : stage.isDone = false) (hd' : stage'.isDone = false)
    (hflight : t.tickInFlight = s.tickInFlight) (hdrawn : t.drawn = s.drawn)
    (hloops : t.loops = (s.setStage id stage').loops)
    (hlatest : t.latestRequestedTickAt = s.latestRequestedTickAt)
    (hreq : t.requests = s.requests) (hran : ∀ now ∈ s.ran, now ∈ t.ran)
    (hcovers : ∀ latest, stage.Covers latest s.trailingTickAt s.ran →
      stage'.Covers latest t.trailingTickAt t.ran) : t.Heard := by
  have hfly : s.tickInFlight = some id := h.only id stage hs hd
  refine ⟨h.toSerial.goesOn hs hd hd' hflight hdrawn hloops, ?_, ?_, ?_, ?_⟩
  · rw [hreq, hdrawn]
    exact h.asked
  · rw [hflight, hfly]
    intro hnone
    cases hnone
  · intro k st hk hst
    rw [hflight, hfly] at hk
    obtain rfl := Option.some.inj hk
    rw [hloops, lookup_setStage, if_pos rfl] at hst
    obtain rfl := Option.some.inj hst
    obtain ⟨latest, hl, hle, hc⟩ := h.covers id stage hfly hs
    exact ⟨latest, hlatest.trans hl, by rwa [hreq], hcovers latest hc⟩
  · intro time k st hmem hst hok
    rw [hreq] at hmem
    rw [hloops, lookup_setStage] at hst
    split_ifs at hst with hkid
    · obtain rfl := Option.some.inj hst
      rcases hok with rfl | rfl
      · cases hd'
      · cases hd'
    · obtain ⟨now, hnow, hle⟩ := h.served time k st hmem hst hok
      exact ⟨now, hran now hnow, hle⟩

theorem Heard.tick (h : s.Heard) {now : ℕ} (hin : s.inTime (.tick now) = true) :
    (s.tick now).Heard := by
  have hserial : (s.tick now).Serial := h.toSerial.tick now
  unfold TickLoop.tick at hserial ⊢
  cases hfly : s.tickInFlight with
  | none =>
    simp only [hfly] at hserial ⊢
    refine ⟨hserial, ?_, ?_, ?_, ?_⟩
    · intro time k hmem
      show k < s.drawn + 1
      rcases List.mem_cons.mp hmem with heq | hmem
      · obtain ⟨-, rfl⟩ := Prod.mk.inj heq
        exact Nat.lt_succ_self _
      · exact Nat.lt_succ_of_lt (h.asked time k hmem)
    · intro hnone
      cases hnone
    · intro k st hk hst
      obtain rfl : s.drawn = k := Option.some.inj hk
      rw [Table.lookup_insert_eq, if_pos rfl] at hst
      obtain rfl := Option.some.inj hst
      refine ⟨now, rfl, fun time hmem => ?_, .inr ⟨h.rests hfly, rfl⟩⟩
      rcases List.mem_cons.mp hmem with heq | hmem
      · exact (Prod.mk.inj heq).1.le
      · exact absurd (h.asked time _ hmem) (lt_irrefl _)
    · intro time k st hmem hst hok
      rw [Table.lookup_insert_eq] at hst
      split_ifs at hst with hkd
      · obtain rfl := Option.some.inj hst
        rcases hok with hok | hok
        · cases hok
        · cases hok
      · rcases List.mem_cons.mp hmem with heq | hmem
        · exact absurd (Prod.mk.inj heq).2 hkd
        · exact h.served time k st hmem hst hok
  | some id =>
    obtain ⟨stage, hs, hd⟩ := h.flying id hfly
    obtain ⟨latest, hl, hle, hc⟩ := h.covers id stage hfly hs
    simp only [hfly, hl, Option.all_some] at hserial ⊢
    have hserved (time : ℕ) (k : LoopId) (st : Stage) (hmem : (time, k) ∈ (now, id) :: s.requests)
        (hst : s.loops.lookup k = some st) (hok : st = .cleared true ∨ st = .settled true) :
        ∃ now ∈ s.ran, time ≤ now := by
      rcases List.mem_cons.mp hmem with heq | hmem
      · obtain ⟨-, rfl⟩ := Prod.mk.inj heq
        obtain rfl := Option.some.inj (hs.symm.trans hst)
        rcases hok with rfl | rfl
        · cases hd
        · cases hd
      · exact h.served time k st hmem hst hok
    have hasked (time : ℕ) (k : LoopId) (hmem : (time, k) ∈ (now, id) :: s.requests) :
        k < s.drawn := by
      rcases List.mem_cons.mp hmem with heq | hmem
      · obtain ⟨-, rfl⟩ := Prod.mk.inj heq
        exact h.fresh k stage hs
      · exact h.asked time k hmem
    by_cases hlt : latest < now
    · -- the later time waits in the slot: the loop has not returned yet
      simp only [hlt, decide_true, if_true] at hserial ⊢
      refine ⟨hserial, hasked, ?_, ?_, hserved⟩
      · intro hnone
        cases hnone
      · intro k st hk hst
        obtain rfl : id = k := Option.some.inj hk
        obtain rfl := Option.some.inj (hs.symm.trans hst)
        refine ⟨now, rfl, fun time hmem => ?_, ?_⟩
        · rcases List.mem_cons.mp hmem with heq | hmem
          · exact (Prod.mk.inj heq).1.le
          · exact (hle time hmem).trans hlt.le
        · cases stage with
          | ticking => exact .inl rfl
          | ticked => exact ⟨hc.1, .inl rfl⟩
          | returned =>
            have hnot : now ≤ latest := by simpa [inTime, hfly, hs, hl] using hin
            omega
          | cleared => trivial
          | settled => trivial
    · simp only [hlt, decide_false, Bool.false_eq_true, if_false] at hserial ⊢
      refine ⟨hserial, hasked, ?_, ?_, hserved⟩
      · intro hnone
        cases hnone
      · intro k st hk hst
        obtain rfl : id = k := Option.some.inj hk
        obtain rfl := Option.some.inj (hs.symm.trans hst)
        refine ⟨latest, rfl, fun time hmem => ?_, hc⟩
        rcases List.mem_cons.mp hmem with heq | hmem
        · have heq' : time = now := (Prod.mk.inj heq).1
          omega
        · exact hle time hmem

theorem Heard.clear (h : s.Heard) (ht : s.clear id = some t) : t.Heard := by
  have hserial : t.Serial := h.toSerial.clear ht
  unfold TickLoop.clear at ht
  split at ht
  next ok hs =>
    have hfly : s.tickInFlight = some id := h.only id _ hs rfl
    have hfly' : (s.setStage id (.cleared ok)).tickInFlight = some id := hfly
    obtain ⟨latest, -, hle, hran⟩ := h.covers id _ hfly hs
    dsimp only at ht
    rw [if_pos hfly'] at ht
    obtain rfl := Option.some.inj ht
    refine ⟨hserial, h.asked, fun _ => rfl, ?_, ?_⟩
    · intro k st hk
      cases hk
    · intro time k st hmem hst hok
      rw [lookup_setStage] at hst
      split_ifs at hst with hkid
      · subst hkid
        obtain rfl := Option.some.inj hst
        obtain rfl : ok = true := by simpa using hok
        exact ⟨latest, hran rfl, hle time hmem⟩
      · exact h.served time k st hmem hst hok
  next => cases ht

theorem Heard.settle (h : s.Heard) (ht : s.settle id = some t) : t.Heard := by
  have hserial : t.Serial := h.toSerial.settle ht
  unfold TickLoop.settle at ht
  split at ht
  next ok hs =>
    obtain rfl := Option.some.inj ht
    refine ⟨hserial, h.asked, h.rests, ?_, ?_⟩
    · intro k st hk hst
      rw [lookup_setStage] at hst
      split_ifs at hst with hkid
      · obtain ⟨stage, hstage, hd⟩ := h.flying k hk
        rw [hkid, hs] at hstage
        obtain rfl := Option.some.inj hstage
        cases hd
      · exact h.covers k st hk hst
    · intro time k st hmem hst hok
      rw [lookup_setStage] at hst
      split_ifs at hst with hkid
      · subst hkid
        obtain rfl := Option.some.inj hst
        obtain rfl : ok = true := by simpa using hok
        exact h.served time k _ hmem hs (.inl rfl)
      · exact h.served time k st hmem hst hok
  next => cases ht

theorem Heard.next (h : s.Heard) {a : LoopAction} (hin : s.inTime a = true)
    (ht : loopMachine.next s a = some t) : t.Heard := by
  cases a with
  | tick now =>
    obtain rfl := Option.some.inj ht
    exact h.tick hin
  | finish id ok =>
    simp only [loopMachine, TickLoop.finish] at ht
    split at ht
    next now hs =>
      obtain rfl := Option.some.inj ht
      cases ok with
      | false =>
        exact h.goesOn hs rfl rfl rfl rfl rfl rfl rfl
          (fun _ hmem => hmem) fun latest hc => ⟨fun hok => (by cases hok), hc⟩
      | true =>
        exact h.goesOn hs rfl rfl rfl rfl rfl rfl rfl
          (fun _ hmem => List.mem_cons_of_mem _ hmem)
          fun latest hc => ⟨fun _ => List.mem_cons_self, hc⟩
    next => cases ht
  | check id =>
    simp only [loopMachine, TickLoop.check] at ht
    split at ht
    next now hs =>
      obtain rfl := Option.some.inj ht
      exact h.goesOn hs rfl rfl rfl rfl rfl rfl rfl (fun _ hmem => hmem)
        fun latest _ hok => by cases hok
    next now hs =>
      split at ht
      next htrail =>
        obtain rfl := Option.some.inj ht
        refine h.goesOn hs rfl rfl rfl rfl rfl rfl rfl (fun _ hmem => hmem) fun latest hc => ?_
        obtain ⟨hran, hslot⟩ := hc
        rw [htrail] at hslot
        rcases hslot with hslot | ⟨-, rfl⟩
        · cases hslot
        · exact fun _ => hran rfl
      next trailing htrail =>
        obtain rfl := Option.some.inj ht
        refine h.goesOn hs rfl rfl rfl rfl rfl rfl rfl (fun _ hmem => hmem) fun latest hc => ?_
        obtain ⟨-, hslot⟩ := hc
        rw [htrail] at hslot
        rcases hslot with hslot | ⟨hslot, -⟩
        · exact .inr ⟨rfl, Option.some.inj hslot⟩
        · cases hslot
    next => cases ht
  | clear id => exact h.clear ht
  | settle id => exact h.settle ht

def AllSettled (s : TickLoop) : Prop :=
  ∀ r ∈ s.requests, s.loops.lookup r.2 = some (.settled true)

/-- At most one `tickNow` runs. -/
def NeverOverlaps (s : TickLoop) : Prop :=
  ∀ id id' now now', s.loops.lookup id = some (.ticking now) →
    s.loops.lookup id' = some (.ticking now') → id = id'

/-- Every requested time is followed by a `tickNow` that is as late. -/
def NoneLost (s : TickLoop) : Prop :=
  s.AllSettled → ∀ r ∈ s.requests, ∃ now ∈ s.ran, r.1 ≤ now

theorem Serial.neverOverlaps (h : s.Serial) : s.NeverOverlaps := by
  intro id id' now now' hid hid'
  have hfly : s.tickInFlight = some id := h.only id _ hid rfl
  have hfly' : s.tickInFlight = some id' := h.only id' _ hid' rfl
  exact Option.some.inj (hfly.symm.trans hfly')

/-- When no later time arrives between the last look at the slot and the `finally`, no
request is lost; `tickNow` never overlaps in any run. -/
theorem no_tick_lost (s : TickLoop) :
    (loopMachine.Reachable s → s.NeverOverlaps) ∧
      (loopMachine.ReachableWhen (fun s a => s.inTime a = true) s → s.NoneLost) := by
  constructor
  · intro hr
    have hs : s.Serial := by
      refine hr.invariant ?_ fun s a t hs _ ht => hs.next ht
      rintro _ rfl
      exact serial_empty
    exact hs.neverOverlaps
  · rintro hr hall ⟨time, id⟩ hmem
    have hs : s.Heard := by
      refine hr.invariant ?_ fun s a t hs hin ht => hs.next hin ht
      rintro _ rfl
      exact heard_empty
    exact hs.served time id _ hmem (hall (time, id) hmem) (.inr rfl)

/-- The loop looks at the empty slot and returns; a request arrives; the `finally`
clears it. -/
def lateRequest : List LoopAction :=
  [.tick 0, .finish 0 true, .check 0, .tick 1, .clear 0, .settle 0]

theorem late_request_is_lost : ¬∀ s, loopMachine.Reachable s → s.NoneLost := by
  intro h
  have hlost := h ((loopMachine.exec .empty lateRequest).getD .empty)
    (Transition.Machine.reachable_exec rfl (by decide)) (by unfold AllSettled; decide) (1, 0)
    (by decide)
  exact absurd hlost (by decide)

def mergedRequests : List LoopAction :=
  [.tick 0, .tick 2, .tick 1, .finish 0 true, .check 0, .finish 0 true, .check 0, .clear 0,
    .settle 0]

def mergedRun : TickLoop := (loopMachine.execWhen inTime .empty mergedRequests).getD .empty

theorem no_tick_lost_mergedRun :
    mergedRun.requests = [(1, 0), (2, 0), (0, 0)] ∧ mergedRun.NeverOverlaps ∧
      mergedRun.NoneLost := by
  have hr : loopMachine.ReachableWhen (fun s a => s.inTime a = true) mergedRun :=
    Transition.Machine.reachable_execWhen (fun _ _ h => h) rfl (by decide)
  exact ⟨by decide, (no_tick_lost mergedRun).1 hr.reachable, (no_tick_lost mergedRun).2 hr⟩

end TickLoop
end SteamBee.Schedule
