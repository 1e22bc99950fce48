import SteamBee.Notifications.DeliverySteps

/-! A delivery is attempted at most three times, in its own revision and never while that is
suspended, and is not sent again once it is recorded as delivered or failed. -/
namespace SteamBee.Notifications

/-! ## What the drain notes -/

namespace Happened

def delivery : Happened → Option DeliveryId
  | .sent id _ _ _ _ | .delivered id | .failed id | .retired id => some id
  | _ => none

def isCount : Happened → Bool
  | .counted _ _ _ _ => true
  | _ => false

end Happened

section Log
variable {happened : Happened} {log : List Happened} {id : DeliveryId} {ruleId : RuleId}
  {row : NotificationDelivery} {rule : NotificationRule} {drawn : ℕ}

theorem count_cons_of_other (h : happened.delivery ≠ some id) :
    (happened :: log).count (.failed id) = log.count (.failed id) ∧
      (happened :: log).count (.delivered id) = log.count (.delivered id) := by
  constructor
  · apply List.count_cons_of_ne
    rintro rfl
    exact h rfl
  · apply List.count_cons_of_ne
    rintro rfl
    exact h rfl

theorem mem_cons_of_other (h : happened.delivery ≠ some id) :
    (.failed id ∈ happened :: log ↔ .failed id ∈ log) ∧
      (.delivered id ∈ happened :: log ↔ .delivered id ∈ log) ∧
      (.retired id ∈ happened :: log ↔ .retired id ∈ log) := by
  refine ⟨?_, ?_, ?_⟩
  all_goals
    rw [List.mem_cons, or_iff_right]
    rintro rfl
    exact h rfl

theorem unrecorded_cons_of_other (h : happened.delivery ≠ some id) :
    unrecorded id (happened :: log) = unrecorded id log := by
  cases happened with
  | sent | delivered | failed => exact if_neg fun heq => h (congrArg some heq)
  | retired | counted | reconciled | crashed => rfl

theorem RowKept.cons (h : RowKept drawn log id row) (hother : happened.delivery ≠ some id) :
    RowKept drawn (happened :: log) id row := by
  obtain ⟨hfailed, hdelivered⟩ := count_cons_of_other hother
  obtain ⟨-, hmem, hmem'⟩ := mem_cons_of_other hother
  constructor
  case drawn => exact h.drawn
  case bound => exact h.bound
  case tally => rw [hfailed, hdelivered]; exact h.tally
  case fresh => rw [hmem, hmem']; exact h.fresh

theorem streak_cons (h : happened.isCount = false) (ruleId : RuleId) (revision : ℕ) :
    streak ruleId revision (happened :: log) = streak ruleId revision log ∧
      suspendedUntil ruleId revision (happened :: log) = suspendedUntil ruleId revision log := by
  cases happened with
  | counted => cases h
  | sent | delivered | failed | retired | reconciled | crashed => exact ⟨rfl, rfl⟩

theorem counted_mem_cons (h : happened.isCount = false) {revision : ℕ} {success : Bool}
    {noticedAt : ℕ} : .counted ruleId revision success noticedAt ∈ happened :: log ↔
      .counted ruleId revision success noticedAt ∈ log := by
  rw [List.mem_cons, or_iff_right]
  rintro rfl
  cases h

end Log

namespace Dispatcher
variable {s t : Dispatcher} {a : DispatcherAction} {id : DeliveryId} {row : NotificationDelivery}
  {delivery : ReadDelivery} {rule : ReadRule} {drain : Drain} {point : DrainPoint}
  {ruleId : RuleId} {happened : Happened}

theorem LogKept.note (h : s.LogKept) (hlog : t.log = happened :: s.log) (hdrawn : t.drawn = s.drawn)
    (hcreating : t.creating = s.creating)
    (hold : ∀ id, happened.delivery = some id → id < s.drawn)
    (htally : ∀ id, happened.delivery = some id →
      t.log.count (.failed id) + t.log.count (.delivered id) ≤ maxAttempts)
    (hsend : SendOk happened s.log)
    (hcounted : ∀ ruleId revision success noticedAt,
      happened = .counted ruleId revision success noticedAt →
        ruleId < s.drawn ∧ s.creating.lookup ruleId = none) : t.LogKept := by
  constructor
  case tally =>
    intro id
    by_cases hid : happened.delivery = some id
    · exact htally id hid
    · rw [hlog, (count_cons_of_other hid).1, (count_cons_of_other hid).2]
      exact h.tally id
  case drawn =>
    intro id hle
    rw [hdrawn] at hle
    have hid : happened.delivery ≠ some id := fun hid => absurd (hold id hid) (Nat.not_lt.mpr hle)
    obtain ⟨hfailed, hdelivered, hretired⟩ := mem_cons_of_other hid
    rw [hlog, hfailed, hdelivered, hretired, unrecorded_cons_of_other hid]
    exact h.drawn id hle
  case sends =>
    rw [hlog]
    exact ⟨hsend, h.sends⟩
  case counted =>
    intro ruleId revision success noticedAt hmem
    rw [hlog] at hmem
    rw [hdrawn, hcreating]
    rcases List.mem_cons.mp hmem with heq | hmem
    · exact hcounted _ _ _ _ heq.symm
    · exact h.counted _ _ _ _ hmem

theorem RuleKept.cons {log : List Happened} {rule : NotificationRule}
    (h : RuleKept log ruleId rule) (hcount : happened.isCount = false) :
    RuleKept (happened :: log) ruleId rule := by
  obtain ⟨hstreak, hsuspended⟩ := streak_cons hcount ruleId rule.revision
  constructor
  case failureCount => rw [hstreak]; exact h.failureCount
  case disabledUntil => rw [hsuspended]; exact h.disabledUntil
  case revision =>
    intro revision success noticedAt hmem
    exact h.revision revision success noticedAt ((counted_mem_cons hcount).mp hmem)

theorem RulesKept.cons (h : s.RulesKept) (hlog : t.log = happened :: s.log)
    (hcount : happened.isCount = false) (hrules : t.rules = s.rules)
    (hcreating : t.creating = s.creating) (hdrawn : t.drawn = s.drawn) : t.RulesKept := by
  constructor
  case rules =>
    intro ruleId rule hrule
    rw [hrules] at hrule
    obtain ⟨hkept, hlt, hnone⟩ := h.rules ruleId rule hrule
    rw [hlog, hdrawn, hcreating]
    exact ⟨hkept.cons hcount, hlt, hnone⟩
  case creating =>
    rw [hdrawn, hcreating]
    exact h.creating

theorem Parts.still (h : s.Parts) (hlog : t.log = s.log) (hdeliveries : t.deliveries = s.deliveries)
    (hrules : t.rules = s.rules) (hcreating : t.creating = s.creating) (hdrawn : t.drawn = s.drawn) :
    t.Parts := by
  constructor
  case rows => rw [hdeliveries, hlog, hdrawn]; exact h.rows
  case log =>
    constructor
    case tally => rw [hlog]; exact h.log.tally
    case drawn => rw [hlog, hdrawn]; exact h.log.drawn
    case sends => rw [hlog]; exact h.log.sends
    case counted => rw [hlog, hdrawn, hcreating]; exact h.log.counted
  case rules =>
    constructor
    case rules => rw [hrules, hlog, hdrawn, hcreating]; exact h.rules.rules
    case creating => rw [hcreating, hdrawn]; exact h.rules.creating

/-! ## Where the drain goes -/

def AllRecorded (s : Dispatcher) : Prop :=
  ∀ id row, s.deliveries.lookup id = some row → row.isOpen = true → unrecorded id s.log = false

theorem Finished.allRecorded (h : s.Finished) (hnone : s.recording = none) : s.AllRecorded := by
  intro id row hrow hopen
  apply h id row hrow hopen
  rw [hnone]
  exact fun h => by cases h

theorem kept_drainAt (drain : Drain) (point : DrainPoint) (hp : s.Parts) (hrest : s.RestKept drain.rest)
    (hcurrent : ∀ id, point.current = some id → id ∉ drain.rest) (hpoint : s.PointKept point)
    (hfinished : ∀ id row, s.deliveries.lookup id = some row → row.isOpen = true →
      point.recording ≠ some id → unrecorded id s.log = false) : (s.drainAt drain point).Kept := by
  have ha : s.Aside (s.drainAt drain point) := .still (.refl _) rfl rfl rfl le_rfl le_rfl
  constructor
  case parts => exact hp.still rfl rfl rfl rfl rfl
  case drain =>
    intro found hfound
    obtain rfl := Option.some.inj hfound
    exact ⟨hrest.aside ha, hcurrent, hpoint.aside ha⟩
  case finished => exact hfinished

/-- The loop goes on when everything is recorded. -/
theorem kept_nextDelivery (hp : s.Parts) (hrest : s.RestKept drain.rest) (hall : s.AllRecorded) :
    (s.nextDelivery drain).Kept := by
  unfold nextDelivery
  split_ifs
  · constructor
    case parts => exact hp.still rfl rfl rfl rfl rfl
    case drain => exact fun found hfound => by cases hfound
    case finished => exact fun id row hrow hopen _ => hall id row hrow hopen
  · split
    next hnil =>
      apply kept_drainAt drain .selectingNext hp hrest ?_ trivial
        fun id row hrow hopen _ => hall id row hrow hopen
      exact fun id hid => by cases hid
    next id rest hcons =>
      rw [hcons] at hrest
      obtain ⟨hnodup, hopen⟩ := hrest
      obtain ⟨hid, hnodup⟩ := List.nodup_cons.mp hnodup
      have hrest : s.RestKept rest :=
        ⟨hnodup, fun other hother => hopen other (List.mem_cons_of_mem _ hother)⟩
      refine kept_drainAt { drain with rest } (.reading id) hp hrest ?_ (hopen id List.mem_cons_self)
        fun id row hrow hopen _ => hall id row hrow hopen
      intro other hother
      rw [← Option.some.inj hother]
      exact hid

/-! ## What the drain updates -/

theorem updateDelivery_cases (hd : s.Held delivery)
    (change : NotificationDelivery → NotificationDelivery) (happened : Option Happened) :
    s.deliveries.lookup delivery.id = none ∧ s.updateDelivery delivery change happened = s ∨
    s.deliveries.lookup delivery.id = some delivery.row ∧
      s.updateDelivery delivery change happened = { s with
        deliveries := s.deliveries.insert delivery.id (change delivery.row)
        log := happened.toList ++ s.log } := by
  unfold updateDelivery
  split
  next row hrow =>
    obtain rfl := hd.same row hrow
    rw [if_pos rfl]
    exact .inr ⟨hrow, rfl⟩
  next hnone => exact .inl ⟨hnone, rfl⟩

structure Updated (s t : Dispatcher) (delivery : ReadDelivery) : Prop where
  parts : t.Parts
  rows : ∀ id, id ≠ delivery.id → t.deliveries.lookup id = s.deliveries.lookup id
  unrecorded : ∀ id, id ≠ delivery.id → unrecorded id t.log = unrecorded id s.log
  streak : ∀ ruleId revision, streak ruleId revision t.log = streak ruleId revision s.log

theorem Parts.updateDelivery (hp : s.Parts) (hd : s.Held delivery)
    {change : NotificationDelivery → NotificationDelivery} {happened : Happened}
    (habout : happened.delivery = some delivery.id) (hsend : SendOk happened s.log)
    (hcount : happened.isCount = false)
    (hkept : s.deliveries.lookup delivery.id = some delivery.row →
      RowKept s.drawn (happened :: s.log) delivery.id (change delivery.row)) :
    s.Updated (s.updateDelivery delivery change (some happened)) delivery := by
  rcases updateDelivery_cases hd change (some happened) with ⟨-, heq⟩ | ⟨hrow, heq⟩
  · rw [heq]
    exact ⟨hp, fun _ _ => rfl, fun _ _ => rfl, fun _ _ => rfl⟩
  rw [heq]
  have hnew := hkept hrow
  have hother (id : DeliveryId) (hne : id ≠ delivery.id) : happened.delivery ≠ some id := by
    rw [habout]
    exact fun h => hne (Option.some.inj h).symm
  have hthis (id : DeliveryId) (h : happened.delivery = some id) : id = delivery.id :=
    Option.some.inj (h.symm.trans habout)
  constructor
  case parts =>
    constructor
    case rows =>
      intro id row hid
      rw [Table.lookup_insert_eq] at hid
      split_ifs at hid with hsame
      · subst hsame
        obtain rfl := Option.some.inj hid
        exact hnew
      · exact (hp.rows id row hid).cons (hother id hsame)
    case log =>
      refine hp.log.note rfl rfl rfl (fun id h => hthis id h ▸ hd.drawn) (fun id h => ?_) hsend ?_
      · rw [hthis id h]
        exact hnew.tally ▸ hnew.bound
      · rintro ruleId revision success noticedAt rfl
        cases hcount
    case rules => exact hp.rules.cons rfl hcount rfl rfl rfl
  case rows => exact fun id hne => AList.lookup_insert_ne hne
  case unrecorded => exact fun id hne => unrecorded_cons_of_other (hother id hne)
  case streak => exact fun ruleId revision => (streak_cons hcount ruleId revision).1

theorem Updated.restKept (h : s.Updated t delivery) {rest : List DeliveryId}
    (hrest : s.RestKept rest) (hnot : delivery.id ∉ rest) : t.RestKept rest := by
  refine ⟨hrest.1, fun id hid row hrow => ?_⟩
  rw [h.rows id fun heq => hnot (heq ▸ hid)] at hrow
  exact hrest.2 id hid row hrow

/-- After the update of the row, that of the delivery included, everything is recorded. -/
theorem Updated.allRecorded (h : s.Updated t delivery)
    (hall : ∀ id row, s.deliveries.lookup id = some row → row.isOpen = true → id ≠ delivery.id →
      Notifications.unrecorded id s.log = false)
    (hthis : ∀ row, t.deliveries.lookup delivery.id = some row → row.isOpen = true →
      Notifications.unrecorded delivery.id t.log = false) : t.AllRecorded := by
  intro id row hrow hopen
  by_cases hid : id = delivery.id
  · subst hid
    exact hthis row hrow hopen
  · rw [h.rows id hid] at hrow
    rw [h.unrecorded id hid]
    exact hall id row hrow hopen hid

/-- The outcome of a delivery changes the counters of its own revision only. -/
theorem Parts.updateRule (hp : s.Parts) {change : NotificationRule → NotificationRule}
    {success : Bool} {noticedAt : ℕ} (hrevision : ∀ rule, (change rule).revision = rule.revision)
    (hcount : ∀ rule, (change rule).failureCount =
      streak delivery.row.ruleId delivery.row.ruleRevision
        (.counted delivery.row.ruleId delivery.row.ruleRevision success noticedAt :: s.log))
    (hdisabled : ∀ rule, (change rule).disabledUntil =
      suspendedUntil delivery.row.ruleId delivery.row.ruleRevision
        (.counted delivery.row.ruleId delivery.row.ruleRevision success noticedAt :: s.log)) :
    (s.updateRule delivery change (.counted delivery.row.ruleId delivery.row.ruleRevision success
      noticedAt)).Parts := by
  unfold Dispatcher.updateRule
  split
  next rule hrule =>
    split_ifs with hmatch
    · obtain ⟨hkept, hlt, hnone⟩ := hp.rules.rules _ rule hrule
      constructor
      case rows => exact fun id row hrow => (hp.rows id row hrow).cons fun h => by cases h
      case log =>
        refine hp.log.note rfl rfl rfl (fun id h => by cases h) (fun id h => by cases h) trivial ?_
        rintro ruleId revision success noticedAt ⟨⟩
        exact ⟨hlt, hnone⟩
      case rules =>
        constructor
        case rules =>
          intro ruleId found hfound
          simp only [Dispatcher.note] at hfound
          rw [Table.lookup_insert_eq] at hfound
          split_ifs at hfound with hid
          · subst hid
            obtain rfl := Option.some.inj hfound
            refine ⟨⟨?_, ?_, ?_⟩, hlt, hnone⟩
            · rw [hrevision, hmatch]
              exact hcount rule
            · rw [hrevision, hmatch]
              exact hdisabled rule
            · intro revision success noticedAt hmem
              rw [hrevision]
              rcases List.mem_cons.mp hmem with heq | hmem
              · cases heq
                exact hmatch.ge
              · exact hkept.revision revision success noticedAt hmem
          · obtain ⟨hother, hlt', hnone'⟩ := hp.rules.rules ruleId found hfound
            refine ⟨⟨?_, ?_, ?_⟩, hlt', hnone'⟩
            · simp only [Dispatcher.note, streak]
              rw [if_neg fun h => hid h.1.symm]
              exact hother.failureCount
            · simp only [Dispatcher.note, suspendedUntil]
              rw [if_neg fun h => hid h.1.symm]
              exact hother.disabledUntil
            · intro revision success noticedAt hmem
              rcases List.mem_cons.mp hmem with heq | hmem
              · cases heq
                exact absurd rfl hid
              · exact hother.revision revision success noticedAt hmem
        case creating => exact hp.rules.creating
    · exact hp
  next => exact hp

theorem updateRule_frame (s : Dispatcher) (delivery : ReadDelivery)
    (change : NotificationRule → NotificationRule) (success : Bool) (noticedAt : ℕ) :
    (s.updateRule delivery change (.counted delivery.row.ruleId delivery.row.ruleRevision success
      noticedAt)).deliveries = s.deliveries ∧
    ∀ id, Notifications.unrecorded id (s.updateRule delivery change (.counted delivery.row.ruleId
      delivery.row.ruleRevision success noticedAt)).log = Notifications.unrecorded id s.log := by
  unfold Dispatcher.updateRule
  split
  · split_ifs
    · exact ⟨rfl, fun _ => rfl⟩
    · exact ⟨rfl, fun _ => rfl⟩
  · exact ⟨rfl, fun _ => rfl⟩

/-! ## The steps of the drain -/

theorem Kept.fire (h : s.Kept) (hn : s.fire = some t) : t.Kept := by
  obtain ⟨due, -, hn⟩ := Option.bind_eq_some_iff.mp hn
  split_ifs at hn
  dsimp only at hn
  split at hn
  next =>
    obtain rfl := Option.some.inj hn
    exact h.still (.refl _) rfl rfl rfl le_rfl le_rfl rfl
  next hnone =>
    obtain rfl := Option.some.inj hn
    have hrecording : s.recording = none := by
      rw [recording]
      exact congrArg (fun drain : Option Drain => drain.bind fun drain => drain.point.recording) hnone
    constructor
    case parts => exact h.parts.still rfl rfl rfl rfl rfl
    case drain =>
      intro drain hdrain
      obtain rfl := Option.some.inj hdrain
      exact ⟨⟨List.nodup_nil, fun id hid => by cases hid⟩, fun id hid => (by cases hid), trivial⟩
    case finished =>
      intro id row hrow hopen _
      exact h.finished.allRecorded hrecording id row hrow hopen

theorem Kept.select {ids : List DeliveryId} (h : s.Kept) (hn : s.select ids = some t) : t.Kept := by
  obtain ⟨drain, hdrain, hn⟩ := Option.bind_eq_some_iff.mp hn
  dsimp only at hn
  split_ifs at hn with hguard
  obtain ⟨hpoint, hnodup, -, hdue⟩ := hguard
  obtain rfl := Option.some.inj hn
  have hrecording : s.recording = none := by
    rw [recording, hdrain, Option.bind_some, hpoint]
    rfl
  apply kept_nextDelivery h.parts ⟨hnodup, ?_⟩ (h.finished.allRecorded hrecording)
  intro id hid row hrow
  have hdue := hdue id hid
  rw [hrow, Option.any_some] at hdue
  exact (Bool.and_eq_true_iff.mp hdue).1

theorem recording_eq (hdrain : s.drain = some drain) : s.recording = drain.point.recording := by
  rw [recording, hdrain, Option.bind_some]

theorem Kept.settle {outcome : Option (Bool × String)} (h : s.Kept)
    (hcut : NotCut s (.settle outcome)) (hn : s.settle outcome = some t) : t.Kept := by
  obtain ⟨drain, hdrain, hn⟩ := Option.bind_eq_some_iff.mp hn
  obtain ⟨hrest, hcurrent, hpoint⟩ := h.drain drain hdrain
  have hfinished := h.finished
  rw [Finished, recording_eq hdrain] at hfinished
  cases hat : drain.point with
  | sending delivery rule =>
    rw [hat] at hpoint hcurrent hfinished
    rw [hat] at hn
    rcases outcome with _ | ⟨isAbort, message⟩
    · obtain rfl := Option.some.inj hn
      exact kept_drainAt drain (.marking delivery) h.parts hrest hcurrent hpoint hfinished
    · dsimp only at hn
      split_ifs at hn with habort
      · -- a send that is aborted while the dispatcher is stopped is not recorded
        obtain ⟨hstopped, rfl⟩ := Bool.and_eq_true_iff.mp habort
        rw [NotCut] at hcut
        rw [hcut] at hstopped
        cases hstopped
      · obtain rfl := Option.some.inj hn
        exact kept_drainAt drain (.failReading delivery message s.now) h.parts hrest hcurrent hpoint
          hfinished
  | _ =>
    rw [hat] at hn
    cases hn

/-- The drain stands still in its loop, with nothing to record. -/
theorem Kept.allRecorded (h : s.Kept) (hdrain : s.drain = some drain)
    (hnone : drain.point.recording = none) : s.AllRecorded :=
  h.finished.allRecorded ((recording_eq hdrain).trans hnone)

theorem Kept.leave (h : s.Kept) (hdrain : s.drain = some drain)
    (hnone : drain.point.recording = none) : (s.nextDelivery drain).Kept :=
  kept_nextDelivery h.parts (h.drain drain hdrain).rest (h.allRecorded hdrain hnone)

theorem Kept.advance (h : s.Kept) (hdrain : s.drain = some drain)
    (hnone : drain.point.recording = none) (hsame : point.current = drain.point.current)
    (hpoint : s.PointKept point) : (s.drainAt drain point).Kept := by
  have hall := h.allRecorded hdrain hnone
  apply kept_drainAt drain point h.parts (h.drain drain hdrain).rest ?_ hpoint
    fun id row hrow hopen _ => hall id row hrow hopen
  intro id hid
  exact (h.drain drain hdrain).current id (hsame ▸ hid)

theorem Parts.held (hp : s.Parts) (hrow : s.deliveries.lookup id = some row)
    (hopen : row.isOpen = true) : s.Held ⟨id, row⟩ := by
  have hkept := hp.rows id row hrow
  obtain ⟨hlt, hdelivered, hretired⟩ := hkept.fresh hopen
  constructor
  case drawn => exact hkept.drawn
  case same =>
    intro found hfound
    exact Option.some.inj (hfound.symm.trans hrow)
  case isOpen => exact hopen
  case attempts => exact hlt
  case failed =>
    have htally := hkept.tally
    rw [List.count_eq_zero.mpr hdelivered, Nat.add_zero] at htally
    exact htally.symm
  case delivered => exact hdelivered
  case retired => exact hretired

/-- A revision that may be sent to has no suspension that lasts, and no later one has any. -/
theorem RuleKept.awake {log : List Happened} {rule : NotificationRule}
    (h : RuleKept log ruleId rule) {now : ℕ}
    (hnone : rule.disabledUntil.filter (fun time => decide (now < time)) = none)
    (revision endsAt : ℕ) (hsuspended : suspendedUntil ruleId revision log = some endsAt) :
    endsAt ≤ now ∨ revision < rule.revision := by
  rcases lt_trichotomy revision rule.revision with hlt | heq | hgt
  · exact .inr hlt
  · rw [h.disabledUntil, ← heq, hsuspended, Option.filter_some] at hnone
    split_ifs at hnone with htime
    exact .inl (Nat.not_lt.mp fun h => htime (decide_eq_true h))
  · have hzero := streak_eq_zero ruleId revision fun success noticedAt hmem =>
      Nat.not_le.mpr hgt (h.revision revision success noticedAt hmem)
    rw [hzero.2] at hsuspended
    cases hsuspended

theorem Kept.checkRule (h : s.Kept) (hdrain : s.drain = some drain)
    (hat : drain.point = .readingRule delivery) : (s.checkRule drain delivery).Kept := by
  have hnone : drain.point.recording = none := by rw [hat]; rfl
  have hcurrent : some delivery.id = drain.point.current := by rw [hat]; rfl
  have hpoint := (h.drain drain hdrain).point
  rw [hat] at hpoint
  obtain ⟨hheld, hrecorded⟩ := hpoint
  unfold Dispatcher.checkRule
  split
  next => exact h.advance hdrain hnone hcurrent hheld
  next rule hrule =>
    split_ifs with hinactive
    · exact h.advance hdrain hnone hcurrent hheld
    · have hrevision : rule.revision = delivery.row.ruleRevision :=
        not_not.mp fun hne => hinactive (.inl hne)
      have hlinked : s.Linked delivery := fun _ _ => ⟨rule, hrule, hrevision⟩
      split
      next => exact h.advance hdrain hnone hcurrent hheld
      next hfilter =>
        split
        next => exact h.advance hdrain hnone hcurrent ⟨hheld, hlinked⟩
        next => exact h.advance hdrain hnone hcurrent ⟨hheld, hlinked⟩
        next =>
          refine h.advance hdrain hnone hcurrent ⟨hheld, hlinked, hrevision, hrecorded, ?_⟩
          rw [← hrevision]
          exact (h.parts.rules.rules _ rule hrule).1.awake hfilter

/-! ### The send -/

theorem count_sent {ruleId createdFor used sentAt : ℕ} (sent id : DeliveryId)
    (log : List Happened) :
    (.sent sent ruleId createdFor used sentAt :: log).count (.failed id) = log.count (.failed id) ∧
      (.sent sent ruleId createdFor used sentAt :: log).count (.delivered id) =
        log.count (.delivered id) := by
  constructor
  · exact List.count_cons_of_ne (fun h => by cases h)
  · exact List.count_cons_of_ne (fun h => by cases h)

theorem mem_sent {ruleId createdFor used sentAt : ℕ} (sent id : DeliveryId) (log : List Happened) :
    (.delivered id ∈ Happened.sent sent ruleId createdFor used sentAt :: log ↔
      .delivered id ∈ log) ∧
    (.retired id ∈ Happened.sent sent ruleId createdFor used sentAt :: log ↔
      .retired id ∈ log) := by
  constructor
  all_goals
    rw [List.mem_cons, or_iff_right]
    exact fun h => by cases h

/-- What is noted of a send leaves the rest as it was. -/
theorem Parts.sent {ruleId createdFor used sentAt : ℕ} (hp : s.Parts) (hlt : id < s.drawn)
    (hsend : SendOk (.sent id ruleId createdFor used sentAt) s.log) :
    (s.note (.sent id ruleId createdFor used sentAt)).Parts := by
  constructor
  case rows =>
    intro other row hrow
    have hkept := hp.rows other row hrow
    constructor
    case drawn => exact hkept.drawn
    case bound => exact hkept.bound
    case tally =>
      rw [note, (count_sent id other s.log).1, (count_sent id other s.log).2]
      exact hkept.tally
    case fresh =>
      intro hopen
      rw [note, (mem_sent id other s.log).1, (mem_sent id other s.log).2]
      exact hkept.fresh hopen
  case log =>
    refine hp.log.note rfl rfl rfl (fun other h => ?_) (fun other _ => ?_) hsend ?_
    · rw [← Option.some.inj h]
      exact hlt
    · rw [note, (count_sent id other s.log).1, (count_sent id other s.log).2]
      exact hp.log.tally other
    · exact fun _ _ _ _ h => by cases h
  case rules => exact hp.rules.cons rfl rfl rfl rfl rfl

theorem Kept.sent (h : s.Kept) (hdrain : s.drain = some drain)
    (hat : drain.point = .readingEvent delivery rule) :
    ((s.drainAt drain (.sending delivery rule)).note
      (.sent delivery.id delivery.row.ruleId delivery.row.ruleRevision rule.row.revision s.now)).Kept
    := by
  have hnone : drain.point.recording = none := by rw [hat]; rfl
  have hcurrent : some delivery.id = drain.point.current := by rw [hat]; rfl
  obtain ⟨hrest, hnot, hpoint⟩ := h.drain drain hdrain
  rw [hat] at hpoint
  obtain ⟨hheld, hlinked, hready⟩ := hpoint
  have hsend : SendOk (.sent delivery.id delivery.row.ruleId delivery.row.ruleRevision
      rule.row.revision s.now) s.log := by
    refine ⟨hheld.failed ▸ hheld.attempts, hheld.delivered, hheld.retired, hready.recorded,
      hready.revision, ?_⟩
    rw [hready.revision]
    exact hready.awake
  have hp := h.parts.sent hheld.drawn hsend
  constructor
  case parts => exact hp.still rfl rfl rfl rfl rfl
  case drain =>
    intro found hfound
    obtain rfl := Option.some.inj hfound
    refine ⟨hrest, fun id hid => hnot id (hcurrent ▸ hid), ?_, hlinked⟩
    constructor
    case drawn => exact hheld.drawn
    case same => exact hheld.same
    case isOpen => exact hheld.isOpen
    case attempts => exact hheld.attempts
    case failed => exact (count_sent delivery.id delivery.id s.log).1.trans hheld.failed
    case delivered => exact fun hmem => hheld.delivered ((mem_sent _ _ s.log).1.mp hmem)
    case retired => exact fun hmem => hheld.retired ((mem_sent _ _ s.log).2.mp hmem)
  case finished =>
    intro id row hrow hopen hother
    have hne : (Happened.sent delivery.id delivery.row.ruleId delivery.row.ruleRevision
      rule.row.revision s.now).delivery ≠ some id := hother
    exact (unrecorded_cons_of_other hne).trans (h.allRecorded hdrain hnone id row hrow hopen)

/-! ### The outcome -/

/-- An update of the delivery that leaves its attempts, and is not noted. -/
theorem Parts.keepDelivery (hp : s.Parts) (hd : s.Held delivery)
    {change : NotificationDelivery → NotificationDelivery}
    (hattempts : (change delivery.row).attempts = delivery.row.attempts) :
    s.Updated (s.updateDelivery delivery change none) delivery := by
  rcases updateDelivery_cases hd change none with ⟨-, heq⟩ | ⟨hrow, heq⟩
  · rw [heq]
    exact ⟨hp, fun _ _ => rfl, fun _ _ => rfl, fun _ _ => rfl⟩
  rw [heq]
  constructor
  case parts =>
    constructor
    case rows =>
      intro id row hid
      rw [Table.lookup_insert_eq] at hid
      split_ifs at hid with hsame
      · subst hsame
        obtain rfl := Option.some.inj hid
        have hkept := hp.rows delivery.id delivery.row hrow
        constructor
        case drawn => exact hkept.drawn
        case bound => rw [hattempts]; exact hkept.bound
        case tally => rw [hattempts]; exact hkept.tally
        case fresh => rw [hattempts]; exact fun _ => hkept.fresh hd.isOpen
      · exact hp.rows id row hid
    case log => exact ⟨hp.log.tally, hp.log.drawn, hp.log.sends, hp.log.counted⟩
    case rules => exact ⟨hp.rules.rules, hp.rules.creating⟩
  case rows => exact fun id hne => AList.lookup_insert_ne hne
  case unrecorded => exact fun _ _ => rfl
  case streak => exact fun _ _ => rfl

theorem Kept.updated (h : s.Kept) (hdrain : s.drain = some drain)
    (hcurrent : drain.point.current = some delivery.id)
    (hrecording : ∀ id, drain.point.recording = some id → id = delivery.id)
    (hu : s.Updated t delivery)
    (hthis : ∀ row, t.deliveries.lookup delivery.id = some row → row.isOpen = true →
      Notifications.unrecorded delivery.id t.log = false) :
    t.RestKept drain.rest ∧ t.AllRecorded := by
  obtain ⟨hrest, hnot, -⟩ := h.drain drain hdrain
  refine ⟨hu.restKept hrest (hnot _ hcurrent), hu.allRecorded ?_ hthis⟩
  intro id row hrow hopen hne
  apply h.finished id row hrow hopen
  rw [recording_eq hdrain]
  exact fun hid => hne (hrecording id hid)

/-- An update that closes the delivery leaves nothing of it to record. -/
theorem Held.updateDelivery_closed (hd : s.Held delivery)
    {change : NotificationDelivery → NotificationDelivery} {happened : Option Happened}
    (hclosed : ∀ row, (change row).isOpen = false)
    (row : NotificationDelivery)
    (hrow : (s.updateDelivery delivery change happened).deliveries.lookup delivery.id = some row) :
    row.isOpen = false := by
  rcases updateDelivery_cases hd change happened with ⟨hnone, heq⟩ | ⟨-, heq⟩
  · rw [heq, hnone] at hrow
    cases hrow
  · rw [heq, AList.lookup_insert] at hrow
    obtain rfl := Option.some.inj hrow
    exact hclosed _

theorem Kept.retire (h : s.Kept) (hdrain : s.drain = some drain)
    (hat : drain.point = .retiring delivery)
    {change : NotificationDelivery → NotificationDelivery}
    (hclosed : ∀ row, (change row).isOpen = false)
    (hattempts : ∀ row, (change row).attempts = row.attempts) :
    ((s.updateDelivery delivery change (some (.retired delivery.id))).nextDelivery drain).Kept := by
  have hheld := (h.drain drain hdrain).point
  rw [hat] at hheld
  have hu : s.Updated (s.updateDelivery delivery change (some (.retired delivery.id))) delivery := by
    have hsend : SendOk (.retired delivery.id) s.log := trivial
    apply h.parts.updateDelivery hheld rfl hsend rfl
    intro hrow
    have hkept := h.parts.rows delivery.id delivery.row hrow
    constructor
    case drawn => exact hkept.drawn
    case bound => rw [hattempts]; exact hkept.bound
    case tally =>
      rw [hattempts, List.count_cons_of_ne (fun h => by cases h),
        List.count_cons_of_ne (fun h => by cases h)]
      exact hkept.tally
    case fresh => simp [hclosed]
  obtain ⟨hrest, hall⟩ := h.updated hdrain (by rw [hat]; rfl) (by simp [hat, DrainPoint.recording])
    hu fun row hrow hopen => by simp [hheld.updateDelivery_closed hclosed row hrow] at hopen
  exact kept_nextDelivery hu.parts hrest hall

theorem Kept.postpone (h : s.Kept) (hdrain : s.drain = some drain) {disabledUntil : ℕ}
    (hat : drain.point = .postponing delivery disabledUntil)
    {change : NotificationDelivery → NotificationDelivery}
    (hattempts : ∀ row, (change row).attempts = row.attempts) :
    ((s.updateDelivery delivery change none).nextDelivery drain).Kept := by
  have hnone : drain.point.recording = none := by rw [hat]; rfl
  have hheld := (h.drain drain hdrain).point
  rw [hat] at hheld
  have hu := h.parts.keepDelivery hheld (hattempts delivery.row)
  obtain ⟨hrest, hall⟩ := h.updated hdrain (by rw [hat]; rfl) (by simp [hnone]) hu fun row hrow _ => by
    rcases updateDelivery_cases hheld change none with ⟨hgone, heq⟩ | ⟨hfound, heq⟩
    · rw [heq, hgone] at hrow
      cases hrow
    · rw [heq]
      exact h.allRecorded hdrain hnone _ _ hfound hheld.isOpen
  exact kept_nextDelivery hu.parts hrest hall

/-- An outcome adds an attempt to the row, and an entry to the log. -/
theorem Held.rowKept (hd : s.Held delivery) {row' : NotificationDelivery} {happened : Happened}
    (hattempts : row'.attempts = delivery.row.attempts + 1)
    (hcount : (happened :: s.log).count (.failed delivery.id) +
      (happened :: s.log).count (.delivered delivery.id) =
        s.log.count (.failed delivery.id) + s.log.count (.delivered delivery.id) + 1)
    (hfresh : row'.isOpen = true → delivery.row.attempts + 1 < maxAttempts ∧
      .delivered delivery.id ∉ happened :: s.log ∧ .retired delivery.id ∉ happened :: s.log) :
    RowKept s.drawn (happened :: s.log) delivery.id row' := by
  constructor
  case drawn => exact hd.drawn
  case bound => rw [hattempts]; exact hd.attempts
  case tally => rw [hcount, hattempts, hd.failed, List.count_eq_zero.mpr hd.delivered]
  case fresh => rw [hattempts]; exact hfresh

theorem Kept.delivered (h : s.Kept) (hdrain : s.drain = some drain)
    (hat : drain.point = .marking delivery)
    {change : NotificationDelivery → NotificationDelivery}
    (hclosed : ∀ row, (change row).isOpen = false)
    (hattempts : ∀ row, (change row).attempts = delivery.row.attempts + 1) :
    ((s.updateDelivery delivery change (some (.delivered delivery.id))).drainAt drain
      (.resetting delivery)).Kept := by
  have hcurrent : drain.point.current = some delivery.id := by rw [hat]; rfl
  have hheld := (h.drain drain hdrain).point
  rw [hat] at hheld
  obtain ⟨hheld, -⟩ := hheld
  have hu : s.Updated (s.updateDelivery delivery change (some (.delivered delivery.id)))
      delivery := by
    have hsend : SendOk (.delivered delivery.id) s.log := trivial
    apply h.parts.updateDelivery hheld rfl hsend rfl
    intro _
    apply hheld.rowKept (hattempts _)
    · simp [Nat.add_assoc]
    · simp [hclosed]
  obtain ⟨hrest, hall⟩ := h.updated hdrain hcurrent (by simp [hat, DrainPoint.recording])
    hu fun row hrow hopen => by simp [hheld.updateDelivery_closed hclosed row hrow] at hopen
  refine kept_drainAt drain (.resetting delivery) hu.parts hrest ?_ trivial
    fun id row hrow hopen _ => hall id row hrow hopen
  exact fun id hid => (h.drain drain hdrain).current id (hcurrent.trans hid)

theorem Kept.failReading (h : s.Kept) (hdrain : s.drain = some drain) {message : String}
    {noticedAt : ℕ} (hat : drain.point = .failReading delivery message noticedAt)
    (hn : s.proceedDrain = some t) : t.Kept := by
  obtain ⟨hrest, hnot, hpoint⟩ := h.drain drain hdrain
  rw [hat] at hpoint hnot
  obtain ⟨hheld, hlinked⟩ := hpoint
  have hfinished := h.finished
  rw [Finished, recording_eq hdrain, hat] at hfinished
  rw [Dispatcher.proceedDrain, hdrain, Option.bind_eq_bind, Option.bind_some, hat] at hn
  dsimp only at hn
  split at hn
  next hgone =>
    obtain rfl := Option.some.inj hn
    refine kept_nextDelivery h.parts hrest fun id row hrow hopen => ?_
    apply hfinished id row hrow hopen
    intro hid
    -- the row of a delivery goes with the revision of its rule
    obtain rfl := Option.some.inj hid
    obtain ⟨rule, hrule, hrevision⟩ := hlinked row hrow
    simp [hrule, hrevision] at hgone
  next rule hrule =>
    obtain rfl := Option.some.inj hn
    obtain ⟨hlookup, hrevision⟩ := Option.filter_eq_some_iff.mp hrule
    refine kept_drainAt drain (.failMarking delivery message noticedAt (rule.failureCount + 1))
      h.parts hrest hnot ⟨hheld, ?_⟩ hfinished
    rw [(h.parts.rules.rules _ rule hlookup).1.failureCount, beq_iff_eq.mp hrevision]

theorem Kept.failed (h : s.Kept) (hdrain : s.drain = some drain) {message : String}
    {noticedAt failureCount : ℕ}
    (hat : drain.point = .failMarking delivery message noticedAt failureCount)
    {change : NotificationDelivery → NotificationDelivery}
    (hattempts : ∀ row, (change row).attempts = delivery.row.attempts + 1)
    (hopen : ∀ row, (change row).isOpen = true → delivery.row.attempts + 1 < maxAttempts) :
    ((s.updateDelivery delivery change (some (.failed delivery.id))).drainAt drain
      (.failCounting delivery noticedAt failureCount)).Kept := by
  have hcurrent : drain.point.current = some delivery.id := by rw [hat]; rfl
  have hheld := (h.drain drain hdrain).point
  rw [hat] at hheld
  obtain ⟨hheld, hcount⟩ := hheld
  have hu : s.Updated (s.updateDelivery delivery change (some (.failed delivery.id)))
      delivery := by
    have hsend : SendOk (.failed delivery.id) s.log := trivial
    apply h.parts.updateDelivery hheld rfl hsend rfl
    intro _
    apply hheld.rowKept (hattempts _)
    · simp [Nat.add_right_comm]
    · intro hrow
      simp [hopen _ hrow, hheld.delivered, hheld.retired]
  obtain ⟨hrest, hall⟩ := h.updated hdrain hcurrent (by simp [hat, DrainPoint.recording])
    hu fun row hrow _ => by
      rcases updateDelivery_cases hheld change (some (.failed delivery.id)) with
        ⟨hgone, heq⟩ | ⟨-, heq⟩
      · rw [heq, hgone] at hrow
        cases hrow
      · simp [heq, Notifications.unrecorded]
  refine kept_drainAt drain (.failCounting delivery noticedAt failureCount) hu.parts hrest ?_ ?_
    fun id row hrow hopen _ => hall id row hrow hopen
  · exact fun id hid => (h.drain drain hdrain).current id (hcurrent.trans hid)
  · exact hcount.trans (by rw [hu.streak])

/-- The counters of the rule are updated when nothing of the delivery is left to record. -/
theorem Kept.counted (h : s.Kept) (hdrain : s.drain = some drain)
    (hnone : drain.point.recording = none)
    {change : NotificationRule → NotificationRule} {success : Bool} {noticedAt : ℕ}
    (hrevision : ∀ rule, (change rule).revision = rule.revision)
    (hcount : ∀ rule, (change rule).failureCount =
      streak delivery.row.ruleId delivery.row.ruleRevision
        (.counted delivery.row.ruleId delivery.row.ruleRevision success noticedAt :: s.log))
    (hdisabled : ∀ rule, (change rule).disabledUntil =
      suspendedUntil delivery.row.ruleId delivery.row.ruleRevision
        (.counted delivery.row.ruleId delivery.row.ruleRevision success noticedAt :: s.log)) :
    ((s.updateRule delivery change (.counted delivery.row.ruleId delivery.row.ruleRevision success
      noticedAt)).nextDelivery drain).Kept := by
  obtain ⟨hdeliveries, hunrecorded⟩ := updateRule_frame s delivery change success noticedAt
  obtain ⟨hrest, -, -⟩ := h.drain drain hdrain
  apply kept_nextDelivery (h.parts.updateRule hrevision hcount hdisabled)
  · refine ⟨hrest.1, fun id hid row hrow => ?_⟩
    rw [hdeliveries] at hrow
    exact hrest.2 id hid row hrow
  · intro id row hrow hopen
    rw [hdeliveries] at hrow
    rw [hunrecorded]
    exact h.allRecorded hdrain hnone id row hrow hopen

theorem Kept.selectNext (h : s.Kept) (hdrain : s.drain = some drain)
    (hnone : drain.point.recording = none) : Kept { s with drain := none } := by
  constructor
  case parts => exact h.parts.still rfl rfl rfl rfl rfl
  case drain => exact fun found hfound => by cases hfound
  case finished => exact fun id row hrow hopen _ => h.allRecorded hdrain hnone id row hrow hopen

theorem Kept.proceedDrain (h : s.Kept) (hn : s.proceedDrain = some t) : t.Kept := by
  obtain ⟨drain, hdrain, hstep⟩ := Option.bind_eq_some_iff.mp hn
  have hkept := h.drain drain hdrain
  cases hat : drain.point with
  | selecting | sending =>
    rw [hat] at hstep
    cases hstep
  | failReading delivery message noticedAt => exact h.failReading hdrain hat hn
  | reading id =>
    have hnone : drain.point.recording = none := by rw [hat]; rfl
    have hopen := hkept.point
    rw [hat] at hstep hopen
    dsimp only at hstep
    split at hstep
    next =>
      obtain rfl := Option.some.inj hstep
      exact h.leave hdrain hnone
    next row hrow =>
      split_ifs at hstep
      · obtain rfl := Option.some.inj hstep
        refine h.advance hdrain hnone (by rw [hat]; rfl) ⟨h.parts.held hrow (hopen row hrow), ?_⟩
        exact h.allRecorded hdrain hnone id row hrow (hopen row hrow)
      · obtain rfl := Option.some.inj hstep
        exact h.leave hdrain hnone
  | readingRule delivery =>
    rw [hat] at hstep
    dsimp only at hstep
    split_ifs at hstep
    · obtain rfl := Option.some.inj hstep
      exact h.checkRule hdrain hat
    · obtain rfl := Option.some.inj hstep
      exact h.leave hdrain (by rw [hat]; rfl)
  | retiring delivery =>
    rw [hat] at hstep
    obtain rfl := Option.some.inj hstep
    exact h.retire hdrain hat (fun _ => rfl) (fun _ => rfl)
  | postponing delivery disabledUntil =>
    rw [hat] at hstep
    obtain rfl := Option.some.inj hstep
    exact h.postpone hdrain hat (fun _ => rfl)
  | readingEvent delivery rule =>
    have hnone : drain.point.recording = none := by rw [hat]; rfl
    have hpoint := hkept.point
    rw [hat] at hstep hpoint
    dsimp only at hstep
    split at hstep
    next =>
      obtain rfl := Option.some.inj hstep
      exact h.advance hdrain hnone (by rw [hat]; rfl) ⟨hpoint.1, hpoint.2.1⟩
    next =>
      split_ifs at hstep
      · obtain rfl := Option.some.inj hstep
        exact h.sent hdrain hat
      · obtain rfl := Option.some.inj hstep
        exact h.leave hdrain hnone
  | marking delivery =>
    rw [hat] at hstep
    obtain rfl := Option.some.inj hstep
    exact h.delivered hdrain hat (fun _ => rfl) (fun _ => rfl)
  | resetting delivery =>
    rw [hat] at hstep
    obtain rfl := Option.some.inj hstep
    apply h.counted hdrain (by rw [hat]; rfl)
    · exact fun _ => rfl
    · simp [streak]
    · simp [suspendedUntil]
  | failMarking delivery message noticedAt failureCount =>
    rw [hat] at hstep
    obtain rfl := Option.some.inj hstep
    apply h.failed hdrain hat (fun _ => rfl)
    intro _ hopen
    by_contra hterminal
    simp [NotificationDelivery.isOpen, Nat.not_lt.mp hterminal] at hopen
  | failCounting delivery noticedAt failureCount =>
    have hcount := hkept.point
    rw [hat] at hstep hcount
    obtain rfl := Option.some.inj hstep
    rw [PointKept] at hcount
    apply h.counted hdrain (by rw [hat]; rfl)
    · exact fun _ => rfl
    · simp [streak, hcount]
    · simp [suspendedUntil, hcount]
  | selectingNext =>
    rw [hat] at hstep
    obtain rfl := Option.some.inj hstep
    have hdone := h.selectNext hdrain (by rw [hat]; rfl)
    split
    next => exact hdone
    next => exact hdone.scheduleDrain _

end Dispatcher

end SteamBee.Notifications
