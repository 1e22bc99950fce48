import SteamBee.Notifications.Dispatcher

/-! What is queued, step by step: the rows of `notification_delivery`, the calls of `enqueue` and
the reconciliation, beside the rules as they are replaced. -/
namespace SteamBee.Notifications

def NotificationRule.terms (rule : NotificationRule) : NotificationRule :=
  { rule with failureCount := 0, disabledUntil := none }

/-- A matching event above the boundary of a rule that is delivered to a webhook. -/
def NotificationRule.owes (rule : NotificationRule) (eventId : EventId) (event : SteamEvent) :
    Bool :=
  rule.enabled && rule.target == .webhook && decide (rule.startAfterEventId < eventId) &&
    matchesRule rule.eventTypes event

theorem NotificationRule.owes_iff {rule : NotificationRule} {eventId : EventId}
    {event : SteamEvent} : rule.owes eventId event = true ↔
      (rule.enabled && rule.target == .webhook) = true ∧ rule.startAfterEventId < eventId ∧
        matchesRule rule.eventTypes event = true := by
  unfold owes
  rw [Bool.and_eq_true, Bool.and_eq_true, decide_eq_true_eq, and_assoc]

theorem NotificationRule.owes_terms {rule rule' : NotificationRule} (h : rule'.terms = rule.terms) :
    rule'.owes = rule.owes := by
  have hsame : rule'.terms.owes = rule.terms.owes := by rw [h]
  exact hsame

theorem NotificationRule.revision_terms {rule rule' : NotificationRule}
    (h : rule'.terms = rule.terms) : rule'.revision = rule.revision := by
  have hsame : rule'.terms.revision = rule.terms.revision := by rw [h]
  exact hsame

theorem NotificationRule.startAfter_terms {rule rule' : NotificationRule}
    (h : rule'.terms = rule.terms) : rule'.startAfterEventId = rule.startAfterEventId := by
  have hsame : rule'.terms.startAfterEventId = rule.terms.startAfterEventId := by rw [h]
  exact hsame

structure Slot where
  ruleId : RuleId
  revision : ℕ
  eventId : EventId
  deriving DecidableEq, Repr

def NotificationDelivery.slot (row : NotificationDelivery) : Slot :=
  ⟨row.ruleId, row.ruleRevision, row.eventId⟩

/-- A reconciliation has come to its end since the process started. -/
def hasReconciled : List Happened → Bool
  | [] | .crashed :: _ => false
  | .reconciled :: _ => true
  | .sent _ _ _ _ _ :: log | .delivered _ :: log | .failed _ :: log | .retired _ :: log
  | .counted _ _ _ _ :: log => hasReconciled log

namespace Dispatcher
variable {s t u : Dispatcher} {ruleId : RuleId} {revision now : ℕ} {eventId : EventId}
  {event : SteamEvent} {rule : NotificationRule}

/-! ## The drain -/

/-- The rows, the rules and the calls are as they were, but for how far the rows are delivered and
for the health of the rules. -/
structure SameQueue (s t : Dispatcher) : Prop where
  rules : ∀ id, (t.rules.lookup id).map NotificationRule.terms =
    (s.rules.lookup id).map NotificationRule.terms
  slots : ∀ id, (t.deliveries.lookup id).map NotificationDelivery.slot =
    (s.deliveries.lookup id).map NotificationDelivery.slot
  events : t.events = s.events
  lastEventId : t.lastEventId = s.lastEventId
  enqueues : t.enqueues = s.enqueues
  reconcile : t.reconcile = s.reconcile
  creating : t.creating = s.creating
  drawn : t.drawn = s.drawn
  reconciled : hasReconciled t.log = hasReconciled s.log

theorem SameQueue.refl (s : Dispatcher) : s.SameQueue s :=
  ⟨fun _ => rfl, fun _ => rfl, rfl, rfl, rfl, rfl, rfl, rfl, rfl⟩

theorem SameQueue.trans (h : s.SameQueue t) (h' : t.SameQueue u) : s.SameQueue u where
  rules id := (h'.rules id).trans (h.rules id)
  slots id := (h'.slots id).trans (h.slots id)
  events := h'.events.trans h.events
  lastEventId := h'.lastEventId.trans h.lastEventId
  enqueues := h'.enqueues.trans h.enqueues
  reconcile := h'.reconcile.trans h.reconcile
  creating := h'.creating.trans h.creating
  drawn := h'.drawn.trans h.drawn
  reconciled := h'.reconciled.trans h.reconciled

theorem same_scheduleDrain (s : Dispatcher) (delayMs : ℕ) :
    s.SameQueue (s.scheduleDrain delayMs) := by
  unfold scheduleDrain
  split_ifs
  · exact ⟨fun _ => rfl, fun _ => rfl, rfl, rfl, rfl, rfl, rfl, rfl, rfl⟩
  · exact .refl s

theorem same_drainAt (s : Dispatcher) (drain : Drain) (point : DrainPoint) :
    s.SameQueue (s.drainAt drain point) :=
  ⟨fun _ => rfl, fun _ => rfl, rfl, rfl, rfl, rfl, rfl, rfl, rfl⟩

theorem same_nextDelivery (s : Dispatcher) (drain : Drain) :
    s.SameQueue (s.nextDelivery drain) := by
  unfold nextDelivery
  split_ifs
  · exact ⟨fun _ => rfl, fun _ => rfl, rfl, rfl, rfl, rfl, rfl, rfl, rfl⟩
  · split
    · exact same_drainAt _ _ _
    · exact same_drainAt _ _ _

theorem same_updateDelivery (s : Dispatcher) (delivery : ReadDelivery)
    {change : NotificationDelivery → NotificationDelivery} {happened : Option Happened}
    (hslot : ∀ row, (change row).slot = row.slot)
    (hlog : hasReconciled (happened.toList ++ s.log) = hasReconciled s.log) :
    s.SameQueue (s.updateDelivery delivery change happened) := by
  unfold updateDelivery
  split
  next row hrow =>
    split_ifs
    · refine ⟨fun _ => rfl, fun id => ?_, rfl, rfl, rfl, rfl, rfl, rfl, hlog⟩
      rw [Table.lookup_insert_eq]
      split_ifs with hid
      · rw [hid, hrow]
        exact congrArg some (hslot row)
      · rfl
    · exact .refl s
  next => exact .refl s

theorem same_updateRule (s : Dispatcher) (delivery : ReadDelivery)
    {change : NotificationRule → NotificationRule} {happened : Happened}
    (hterms : ∀ rule, (change rule).terms = rule.terms)
    (hlog : hasReconciled (happened :: s.log) = hasReconciled s.log) :
    s.SameQueue (s.updateRule delivery change happened) := by
  unfold updateRule
  split
  next rule hrule =>
    split_ifs
    · refine ⟨fun id => ?_, fun _ => rfl, rfl, rfl, rfl, rfl, rfl, rfl, hlog⟩
      simp only [note]
      rw [Table.lookup_insert_eq]
      split_ifs with hid
      · rw [hid, hrule]
        exact congrArg some (hterms rule)
      · rfl
    · exact .refl s
  next => exact .refl s

theorem same_checkRule (s : Dispatcher) (drain : Drain) (delivery : ReadDelivery) :
    s.SameQueue (s.checkRule drain delivery) := by
  unfold checkRule
  split
  · exact same_drainAt _ _ _
  · split_ifs
    · exact same_drainAt _ _ _
    · split
      · exact same_drainAt _ _ _
      · split <;> exact same_drainAt _ _ _

theorem same_stop (s : Dispatcher) : s.SameQueue s.stop :=
  ⟨fun _ => rfl, fun _ => rfl, rfl, rfl, rfl, rfl, rfl, rfl, rfl⟩

theorem same_tick (s : Dispatcher) (elapsed : ℕ) :
    s.SameQueue { s with now := s.now + elapsed } :=
  ⟨fun _ => rfl, fun _ => rfl, rfl, rfl, rfl, rfl, rfl, rfl, rfl⟩

theorem same_fire (hn : s.fire = some t) : s.SameQueue t := by
  obtain ⟨due, -, hn⟩ := Option.bind_eq_some_iff.mp hn
  split_ifs at hn
  dsimp only at hn
  split at hn
  · obtain rfl := Option.some.inj hn
    exact ⟨fun _ => rfl, fun _ => rfl, rfl, rfl, rfl, rfl, rfl, rfl, rfl⟩
  · obtain rfl := Option.some.inj hn
    exact ⟨fun _ => rfl, fun _ => rfl, rfl, rfl, rfl, rfl, rfl, rfl, rfl⟩

theorem same_select {ids : List DeliveryId} (hn : s.select ids = some t) : s.SameQueue t := by
  obtain ⟨drain, -, hn⟩ := Option.bind_eq_some_iff.mp hn
  dsimp only at hn
  split_ifs at hn
  obtain rfl := Option.some.inj hn
  exact same_nextDelivery _ _

theorem same_settle {outcome : Option (Bool × String)} (hn : s.settle outcome = some t) :
    s.SameQueue t := by
  obtain ⟨drain, -, hn⟩ := Option.bind_eq_some_iff.mp hn
  split at hn
  · obtain rfl := Option.some.inj hn
    exact same_drainAt _ _ _
  · split_ifs at hn
    · obtain rfl := Option.some.inj hn
      exact same_nextDelivery _ _
    · obtain rfl := Option.some.inj hn
      exact same_drainAt _ _ _
  · cases hn

theorem same_proceedDrain (hn : s.proceedDrain = some t) : s.SameQueue t := by
  obtain ⟨drain, -, hn⟩ := Option.bind_eq_some_iff.mp hn
  cases hat : drain.point with
  | selecting | sending =>
    rw [hat] at hn
    cases hn
  | reading id =>
    rw [hat] at hn
    dsimp only at hn
    split at hn
    · obtain rfl := Option.some.inj hn
      exact same_nextDelivery _ _
    · split_ifs at hn
      · obtain rfl := Option.some.inj hn
        exact same_drainAt _ _ _
      · obtain rfl := Option.some.inj hn
        exact same_nextDelivery _ _
  | readingRule delivery =>
    rw [hat] at hn
    dsimp only at hn
    split_ifs at hn
    · obtain rfl := Option.some.inj hn
      exact same_checkRule _ _ _
    · obtain rfl := Option.some.inj hn
      exact same_nextDelivery _ _
  | retiring delivery | postponing delivery disabledUntil =>
    rw [hat] at hn
    obtain rfl := Option.some.inj hn
    refine SameQueue.trans ?_ (same_nextDelivery _ _)
    exact same_updateDelivery s delivery (fun _ => rfl) rfl
  | readingEvent delivery rule =>
    rw [hat] at hn
    dsimp only at hn
    split at hn
    · obtain rfl := Option.some.inj hn
      exact same_drainAt _ _ _
    · split_ifs at hn
      · obtain rfl := Option.some.inj hn
        exact ⟨fun _ => rfl, fun _ => rfl, rfl, rfl, rfl, rfl, rfl, rfl, rfl⟩
      · obtain rfl := Option.some.inj hn
        exact same_nextDelivery _ _
  | marking delivery | failMarking delivery message noticedAt failureCount =>
    rw [hat] at hn
    obtain rfl := Option.some.inj hn
    refine SameQueue.trans ?_ (same_drainAt _ _ _)
    exact same_updateDelivery s delivery (fun _ => rfl) rfl
  | resetting delivery | failCounting delivery noticedAt failureCount =>
    rw [hat] at hn
    obtain rfl := Option.some.inj hn
    refine SameQueue.trans ?_ (same_nextDelivery _ _)
    exact same_updateRule s delivery (fun _ => rfl) rfl
  | failReading delivery message noticedAt =>
    rw [hat] at hn
    dsimp only at hn
    split at hn
    · obtain rfl := Option.some.inj hn
      exact same_nextDelivery _ _
    · obtain rfl := Option.some.inj hn
      exact same_drainAt _ _ _
  | selectingNext =>
    rw [hat] at hn
    obtain rfl := Option.some.inj hn
    have hdone : s.SameQueue { s with drain := none } :=
      ⟨fun _ => rfl, fun _ => rfl, rfl, rfl, rfl, rfl, rfl, rfl, rfl⟩
    split
    · exact hdone
    · exact hdone.trans (same_scheduleDrain _ _)

/-! ## What is filed -/

structure Fresh (s : Dispatcher) : Prop where
  rules : ∀ id rule, s.rules.lookup id = some rule → id < s.drawn ∧ s.creating.lookup id = none
  creating : ∀ id rule, s.creating.lookup id = some rule → id < s.drawn
  deliveries : ∀ id row, s.deliveries.lookup id = some row → id < s.drawn
  events : ∀ id event, s.events.lookup id = some event → id ≤ s.lastEventId

structure Issued (s : Dispatcher) (ruleId : RuleId) (revision : ℕ) : Prop where
  drawn : ruleId < s.drawn
  created : s.creating.lookup ruleId = none
  revision : ∀ rule, s.rules.lookup ruleId = some rule → revision ≤ rule.revision

/-- A later revision than that of the slot does not owe its event. -/
structure Filed (s : Dispatcher) (slot : Slot) : Prop where
  issued : s.Issued slot.ruleId slot.revision
  event : slot.eventId ≤ s.lastEventId
  stale : ∀ rule event, s.rules.lookup slot.ruleId = some rule →
    s.events.lookup slot.eventId = some event → slot.revision ≠ rule.revision →
      rule.owes slot.eventId event = false

/-- The slot of a row: if it is the current revision's, its event is above the boundary. -/
structure Placed (s : Dispatcher) (slot : Slot) : Prop where
  filed : s.Filed slot
  above : ∀ rule, s.rules.lookup slot.ruleId = some rule → slot.revision = rule.revision →
    rule.startAfterEventId < slot.eventId

structure Read (s : Dispatcher) (read : ReadRule) : Prop where
  issued : s.Issued read.id read.row.revision
  terms : ∀ rule, s.rules.lookup read.id = some rule → rule.revision = read.row.revision →
    rule.terms = read.row.terms

/-- Rules are replaced by later revisions that begin above every event, and nothing comes back. -/
structure Ages (s t : Dispatcher) : Prop where
  drawn : s.drawn ≤ t.drawn
  lastEventId : s.lastEventId ≤ t.lastEventId
  creating : ∀ id, id < s.drawn → s.creating.lookup id = none → t.creating.lookup id = none
  rules : ∀ id rule', t.rules.lookup id = some rule' → s.creating.lookup id = none →
    ∃ rule, s.rules.lookup id = some rule ∧ (rule'.terms = rule.terms ∨
      rule.revision < rule'.revision ∧
        ∀ eventId event, t.events.lookup eventId = some event → eventId ≤ rule'.startAfterEventId)
  events : ∀ id event, id ≤ s.lastEventId → t.events.lookup id = some event →
    s.events.lookup id = some event

theorem Issued.ages (h : s.Issued ruleId revision) (ha : s.Ages t) :
    t.Issued ruleId revision where
  drawn := h.drawn.trans_le ha.drawn
  created := ha.creating ruleId h.drawn h.created
  revision rule' hrule' := by
    obtain ⟨rule, hrule, hterms | ⟨hlt, -⟩⟩ := ha.rules ruleId rule' hrule' h.created
    · rw [NotificationRule.revision_terms hterms]
      exact h.revision rule hrule
    · exact (h.revision rule hrule).trans hlt.le

theorem owes_eq_false (h : eventId ≤ rule.startAfterEventId) : rule.owes eventId event = false := by
  rw [Bool.eq_false_iff]
  intro howes
  exact absurd (NotificationRule.owes_iff.mp howes).2.1 (Nat.not_lt.mpr h)

theorem Filed.ages {slot : Slot} (h : s.Filed slot) (ha : s.Ages t) : t.Filed slot where
  issued := h.issued.ages ha
  event := h.event.trans ha.lastEventId
  stale rule' event hrule' hevent hne := by
    obtain ⟨rule, hrule, hterms | ⟨-, hboundary⟩⟩ := ha.rules _ rule' hrule' h.issued.created
    · rw [NotificationRule.owes_terms hterms]
      rw [NotificationRule.revision_terms hterms] at hne
      exact h.stale rule event hrule (ha.events _ event h.event hevent) hne
    · exact owes_eq_false (hboundary _ event hevent)

theorem Placed.ages {slot : Slot} (h : s.Placed slot) (ha : s.Ages t) : t.Placed slot where
  filed := h.filed.ages ha
  above rule' hrule' heq := by
    obtain ⟨rule, hrule, hterms | ⟨hlt, -⟩⟩ := ha.rules _ rule' hrule' h.filed.issued.created
    · rw [NotificationRule.startAfter_terms hterms]
      rw [NotificationRule.revision_terms hterms] at heq
      exact h.above rule hrule heq
    · have hle := h.filed.issued.revision rule hrule
      omega

theorem Read.ages {read : ReadRule} (h : s.Read read) (ha : s.Ages t) : t.Read read where
  issued := h.issued.ages ha
  terms rule' hrule' heq := by
    obtain ⟨rule, hrule, hterms | ⟨hlt, -⟩⟩ := ha.rules _ rule' hrule' h.issued.created
    · rw [NotificationRule.revision_terms hterms] at heq
      exact hterms.trans (h.terms rule hrule heq)
    · have hle := h.issued.revision rule hrule
      omega

end Dispatcher

def Enqueue.Filed (s : Dispatcher) : Enqueue → Prop
  | .reading eventId _ => eventId ≤ s.lastEventId
  | .inserting eventId _ rules => ∀ rule ∈ rules, s.Filed ⟨rule.1, rule.2, eventId⟩

def Reconcile.Kept (s : Dispatcher) : Reconcile → Prop
  | .reading => True
  | .readingEvents rule rest => ∀ read ∈ rule :: rest, s.Read read
  | .inserting rule _ events rest => (∀ read ∈ rule :: rest, s.Read read) ∧
    ∀ eventId ∈ events, eventId ≤ s.lastEventId ∧ rule.row.startAfterEventId < eventId

namespace Dispatcher
variable {s t u : Dispatcher} {ruleId : RuleId} {revision now : ℕ} {eventId : EventId}
  {event : SteamEvent} {rule : NotificationRule}

theorem Ages.enqueue {enqueue : Enqueue} (ha : s.Ages t) (h : enqueue.Filed s) :
    enqueue.Filed t := by
  cases enqueue with
  | reading eventId event => exact Nat.le_trans h ha.lastEventId
  | inserting eventId now rules => exact fun rule hrule => (h rule hrule).ages ha

theorem Ages.reconcile {reconcile : Reconcile} (ha : s.Ages t) (h : reconcile.Kept s) :
    reconcile.Kept t := by
  cases reconcile with
  | reading => trivial
  | readingEvents rule rest => exact fun read hread => (h read hread).ages ha
  | inserting rule now events rest =>
    refine ⟨fun read hread => (h.1 read hread).ages ha, fun eventId hmem => ?_⟩
    exact ⟨(h.2 eventId hmem).1.trans ha.lastEventId, (h.2 eventId hmem).2⟩

structure Orderly (s : Dispatcher) : Prop where
  fresh : s.Fresh
  once : ∀ id id' row row', s.deliveries.lookup id = some row →
    s.deliveries.lookup id' = some row' → row.ruleId = row'.ruleId →
      row.eventId = row'.eventId → id = id'
  rows : ∀ id row, s.deliveries.lookup id = some row → s.Placed row.slot
  enqueues : ∀ call enqueue, s.enqueues.lookup call = some enqueue →
    call < s.drawn ∧ enqueue.Filed s
  reconcile : ∀ reconcile, s.reconcile = some reconcile → reconcile.Kept s

/-- No row comes up, and calls only where they are in order. -/
theorem Orderly.ages (h : s.Orderly) (ha : s.Ages t) (hfresh : t.Fresh)
    (hrows : ∀ id row, t.deliveries.lookup id = some row →
      ∃ row', s.deliveries.lookup id = some row' ∧ row.slot = row'.slot)
    (henqueues : ∀ call enqueue, t.enqueues.lookup call = some enqueue →
      s.enqueues.lookup call = some enqueue ∨ call < t.drawn ∧ enqueue.Filed t)
    (hreconcile : ∀ reconcile, t.reconcile = some reconcile →
      s.reconcile = some reconcile ∨ reconcile.Kept t) : t.Orderly where
  fresh := hfresh
  once id id' row row' hid hid' hrule hevent := by
    obtain ⟨old, hold, hslot⟩ := hrows id row hid
    obtain ⟨old', hold', hslot'⟩ := hrows id' row' hid'
    apply h.once id id' old old' hold hold'
    · exact (congrArg Slot.ruleId hslot).symm.trans (hrule.trans (congrArg Slot.ruleId hslot'))
    · exact (congrArg Slot.eventId hslot).symm.trans (hevent.trans (congrArg Slot.eventId hslot'))
  rows id row hid := by
    obtain ⟨old, hold, hslot⟩ := hrows id row hid
    rw [hslot]
    exact (h.rows id old hold).ages ha
  enqueues call enqueue hcall := by
    rcases henqueues call enqueue hcall with hold | hnew
    · obtain ⟨hlt, hfiled⟩ := h.enqueues call enqueue hold
      exact ⟨hlt.trans_le ha.drawn, ha.enqueue hfiled⟩
    · exact hnew
  reconcile reconcile hat := by
    rcases hreconcile reconcile hat with hold | hnew
    · exact ha.reconcile (h.reconcile reconcile hold)
    · exact hnew

/-! ## The steps -/

/-- Rows, calls, events and rules only go; what stays of a row or a rule is for the same. -/
structure Shrinks (s t : Dispatcher) : Prop where
  rules : ∀ id rule', t.rules.lookup id = some rule' →
    ∃ rule, s.rules.lookup id = some rule ∧ rule'.terms = rule.terms
  rows : ∀ id row, t.deliveries.lookup id = some row →
    ∃ row', s.deliveries.lookup id = some row' ∧ row.slot = row'.slot
  events : ∀ id event, t.events.lookup id = some event → s.events.lookup id = some event
  enqueues : ∀ call enqueue, t.enqueues.lookup call = some enqueue →
    s.enqueues.lookup call = some enqueue
  reconcile : ∀ reconcile, t.reconcile = some reconcile → s.reconcile = some reconcile
  creating : ∀ id rule, t.creating.lookup id = some rule → s.creating.lookup id = some rule
  lastEventId : t.lastEventId = s.lastEventId
  drawn : t.drawn = s.drawn

theorem Shrinks.refl (s : Dispatcher) : s.Shrinks s :=
  ⟨fun _ rule h => ⟨rule, h, rfl⟩, fun _ row h => ⟨row, h, rfl⟩, fun _ _ h => h, fun _ _ h => h,
    fun _ h => h, fun _ _ h => h, rfl, rfl⟩

theorem Shrinks.created (h : s.Shrinks t) (hnone : s.creating.lookup ruleId = none) :
    t.creating.lookup ruleId = none := by
  cases hfound : t.creating.lookup ruleId with
  | none => rfl
  | some rule =>
    have hrule := h.creating ruleId rule hfound
    rw [hnone] at hrule
    cases hrule

theorem Shrinks.ages (h : s.Shrinks t) : s.Ages t where
  drawn := h.drawn.ge
  lastEventId := h.lastEventId.ge
  creating _ _ hnone := h.created hnone
  rules id rule' hrule' _ := by
    obtain ⟨rule, hrule, hterms⟩ := h.rules id rule' hrule'
    exact ⟨rule, hrule, .inl hterms⟩
  events id event _ hevent := h.events id event hevent

theorem Fresh.shrinks (h : s.Fresh) (hst : s.Shrinks t) : t.Fresh where
  rules id rule' hrule' := by
    obtain ⟨rule, hrule, -⟩ := hst.rules id rule' hrule'
    rw [hst.drawn]
    exact ⟨(h.rules id rule hrule).1, hst.created (h.rules id rule hrule).2⟩
  creating id rule hrule := by
    rw [hst.drawn]
    exact h.creating id rule (hst.creating id rule hrule)
  deliveries id row hrow := by
    obtain ⟨row', hrow', -⟩ := hst.rows id row hrow
    rw [hst.drawn]
    exact h.deliveries id row' hrow'
  events id event hevent := by
    rw [hst.lastEventId]
    exact h.events id event (hst.events id event hevent)

theorem Orderly.shrinks (h : s.Orderly) (hst : s.Shrinks t) : t.Orderly := by
  apply h.ages hst.ages (h.fresh.shrinks hst) hst.rows
  · exact fun call enqueue hcall => .inl (hst.enqueues call enqueue hcall)
  · exact fun reconcile hat => .inl (hst.reconcile reconcile hat)

theorem map_eq_some {α β : Type} {f : α → β} {x y : Option α} (h : y.map f = x.map f) {b : α}
    (hy : y = some b) : ∃ a, x = some a ∧ f b = f a := by
  rw [hy] at h
  obtain ⟨a, ha, hf⟩ := Option.map_eq_some_iff.mp h.symm
  exact ⟨a, ha, hf.symm⟩

theorem SameQueue.shrinks (h : s.SameQueue t) : s.Shrinks t where
  rules id _ hrule := map_eq_some (h.rules id) hrule
  rows id _ hrow := map_eq_some (h.slots id) hrow
  events _ _ hevent := h.events ▸ hevent
  enqueues _ _ hcall := h.enqueues ▸ hcall
  reconcile _ hat := h.reconcile ▸ hat
  creating _ _ hrule := h.creating ▸ hrule
  lastEventId := h.lastEventId
  drawn := h.drawn

theorem shrinks_deleteRule (s : Dispatcher) (ruleId : RuleId) :
    s.Shrinks (s.deleteRule ruleId) := by
  refine { Shrinks.refl s with rules := ?_, rows := ?_ }
  · intro id rule' hrule'
    rw [deleteRule, Table.lookup_erase_eq] at hrule'
    split_ifs at hrule'
    exact ⟨rule', hrule', rfl⟩
  · exact fun id row hrow => ⟨row, (Table.lookup_of_retain hrow).1, rfl⟩

theorem shrinks_deleteEvents (s : Dispatcher) (ids : List EventId) :
    s.Shrinks (s.deleteEvents ids) := by
  refine { Shrinks.refl s with rows := ?_, events := ?_ }
  · exact fun id row hrow => ⟨row, (Table.lookup_of_retain hrow).1, rfl⟩
  · exact fun id event hevent => (Table.lookup_of_retain hevent).1

theorem shrinks_crash (s : Dispatcher) : s.Shrinks s.crash := by
  refine { Shrinks.refl s with enqueues := ?_, reconcile := ?_, creating := ?_ }
  · exact fun call enqueue hcall => nomatch hcall
  · exact fun reconcile hat => nomatch hat
  · exact fun id rule hrule => nomatch hrule

theorem shrinks_note (s : Dispatcher) (happened : Happened) : s.Shrinks (s.note happened) :=
  ⟨fun _ rule h => ⟨rule, h, rfl⟩, fun _ row h => ⟨row, h, rfl⟩, fun _ _ h => h, fun _ _ h => h,
    fun _ h => h, fun _ _ h => h, rfl, rfl⟩

theorem shrinks_erase (s : Dispatcher) (call : CallId) :
    s.Shrinks { s with enqueues := s.enqueues.erase call } := by
  refine { Shrinks.refl s with enqueues := ?_ }
  intro other enqueue hother
  rw [Table.lookup_erase_eq] at hother
  split_ifs at hother
  exact hother

theorem shrinks_reconciled (s : Dispatcher) : s.Shrinks { s with reconcile := none } := by
  refine { Shrinks.refl s with reconcile := ?_ }
  exact fun reconcile hat => nomatch hat

theorem Orderly.record (h : s.Orderly) (event : SteamEvent) : (s.record event).Orderly := by
  have ha : s.Ages (s.record event) := by
    constructor
    case drawn => exact Nat.le_succ _
    case lastEventId => exact Nat.le_succ _
    case creating => exact fun _ _ hnone => hnone
    case rules => exact fun id rule hrule _ => ⟨rule, hrule, .inl rfl⟩
    case events =>
      intro id found hle hfound
      have hne : id ≠ s.lastEventId + 1 := (Nat.lt_succ_of_le hle).ne
      rw [Dispatcher.record, Table.lookup_insert_eq, if_neg hne] at hfound
      exact hfound
  refine h.ages ha ?_ (fun id row hrow => ⟨row, hrow, rfl⟩) ?_ fun _ hat => .inl hat
  · constructor
    case rules =>
      intro id rule hrule
      exact ⟨Nat.lt_succ_of_lt (h.fresh.rules id rule hrule).1, (h.fresh.rules id rule hrule).2⟩
    case creating => exact fun id rule hrule => Nat.lt_succ_of_lt (h.fresh.creating id rule hrule)
    case deliveries => exact fun id row hrow => Nat.lt_succ_of_lt (h.fresh.deliveries id row hrow)
    case events =>
      intro id found hfound
      rw [Dispatcher.record, Table.lookup_insert_eq] at hfound
      split_ifs at hfound with hid
      · exact hid.le
      · exact Nat.le_succ_of_le (h.fresh.events id found hfound)
  · intro call enqueue hcall
    rw [Dispatcher.record, Table.lookup_insert_eq] at hcall
    split_ifs at hcall with hid
    · obtain rfl := Option.some.inj hcall
      exact .inr ⟨hid ▸ Nat.lt_succ_self _, le_rfl⟩
    · exact .inl hcall

theorem hasDelivery_iff : s.hasDelivery ruleId eventId = true ↔
    ∃ id row, s.deliveries.lookup id = some row ∧ row.ruleId = ruleId ∧ row.eventId = eventId := by
  unfold hasDelivery
  rw [List.any_eq_true]
  constructor
  · rintro ⟨⟨id, row⟩, hmem, hsame⟩
    rw [Bool.and_eq_true, beq_iff_eq, beq_iff_eq] at hsame
    exact ⟨id, row, Table.lookup_eq_some_iff.mpr hmem, hsame⟩
  · rintro ⟨id, row, hrow, hrule, hevent⟩
    refine ⟨⟨id, row⟩, Table.lookup_eq_some_iff.mp hrow, ?_⟩
    rw [Bool.and_eq_true, beq_iff_eq, beq_iff_eq]
    exact ⟨hrule, hevent⟩

theorem insertDelivery_cases (hn : s.insertDelivery ruleId revision eventId now = some t) :
    s.hasDelivery ruleId eventId = true ∧ t = s ∨
    s.hasDelivery ruleId eventId = false ∧ t = { s with
      deliveries := s.deliveries.insert s.drawn
        ⟨ruleId, revision, eventId, .pending, 0, some now, none⟩
      drawn := s.drawn + 1 } := by
  unfold insertDelivery at hn
  split_ifs at hn with hgone hthere
  · exact .inl ⟨hthere, (Option.some.inj hn).symm⟩
  · exact .inr ⟨Bool.eq_false_iff.mpr hthere, (Option.some.inj hn).symm⟩

theorem Orderly.insertDelivery (h : s.Orderly)
    (hn : s.insertDelivery ruleId revision eventId now = some t)
    (hplaced : s.hasDelivery ruleId eventId = false → s.Placed ⟨ruleId, revision, eventId⟩) :
    t.Orderly := by
  rcases insertDelivery_cases hn with ⟨-, rfl⟩ | ⟨hnone, rfl⟩
  · exact h
  have hfree (id : DeliveryId) (row : NotificationDelivery)
      (hrow : s.deliveries.lookup id = some row) (hrule : row.ruleId = ruleId)
      (hevent : row.eventId = eventId) : False := by
    have hthere := hasDelivery_iff.mpr ⟨id, row, hrow, hrule, hevent⟩
    rw [hnone] at hthere
    cases hthere
  have ha : s.Ages { s with
      deliveries := s.deliveries.insert s.drawn
        ⟨ruleId, revision, eventId, .pending, 0, some now, none⟩
      drawn := s.drawn + 1 } :=
    ⟨Nat.le_succ _, le_rfl, fun _ _ hnone => hnone, fun _ rule hrule _ => ⟨rule, hrule, .inl rfl⟩,
      fun _ _ _ hevent => hevent⟩
  constructor
  case fresh =>
    constructor
    case rules =>
      intro id rule hrule
      exact ⟨Nat.lt_succ_of_lt (h.fresh.rules id rule hrule).1, (h.fresh.rules id rule hrule).2⟩
    case creating => exact fun id rule hrule => Nat.lt_succ_of_lt (h.fresh.creating id rule hrule)
    case deliveries =>
      intro id row hrow
      rw [Table.lookup_insert_eq] at hrow
      split_ifs at hrow with hid
      · exact hid ▸ Nat.lt_succ_self _
      · exact Nat.lt_succ_of_lt (h.fresh.deliveries id row hrow)
    case events => exact h.fresh.events
  case once =>
    intro id id' row row' hrow hrow' hrule hevent
    rw [Table.lookup_insert_eq] at hrow hrow'
    split_ifs at hrow hrow' with hid hid' hid'
    · exact hid.trans hid'.symm
    · obtain rfl := Option.some.inj hrow
      exact (hfree id' row' hrow' hrule.symm hevent.symm).elim
    · obtain rfl := Option.some.inj hrow'
      exact (hfree id row hrow hrule hevent).elim
    · exact h.once id id' row row' hrow hrow' hrule hevent
  case rows =>
    intro id row hrow
    rw [Table.lookup_insert_eq] at hrow
    split_ifs at hrow
    · obtain rfl := Option.some.inj hrow
      exact (hplaced hnone).ages ha
    · exact (h.rows id row hrow).ages ha
  case enqueues =>
    intro call enqueue hcall
    obtain ⟨hlt, hfiled⟩ := h.enqueues call enqueue hcall
    exact ⟨Nat.lt_succ_of_lt hlt, ha.enqueue hfiled⟩
  case reconcile => exact fun reconcile hat => ha.reconcile (h.reconcile reconcile hat)

/-- A call goes on to insert, or returns. -/
theorem Orderly.enqueued {call : CallId} {rules : List (RuleId × ℕ)} (h : s.Orderly)
    (hcall : call < s.drawn) (hrules : ∀ rule ∈ rules, s.Filed ⟨rule.1, rule.2, eventId⟩) :
    (s.enqueued call eventId now rules).Orderly := by
  cases rules with
  | nil =>
    have herased : Orderly { s with enqueues := s.enqueues.erase call } :=
      h.shrinks (shrinks_erase s call)
    exact herased.shrinks (same_scheduleDrain _ 0).shrinks
  | cons rule rest =>
    have ha : s.Ages (s.enqueued call eventId now (rule :: rest)) :=
      ⟨le_rfl, le_rfl, fun _ _ hnone => hnone, fun _ rule hrule _ => ⟨rule, hrule, .inl rfl⟩,
        fun _ _ _ hevent => hevent⟩
    refine h.ages ha ?_ (fun id row hrow => ⟨row, hrow, rfl⟩) ?_ fun _ hat => .inl hat
    · exact ⟨h.fresh.rules, h.fresh.creating, h.fresh.deliveries, h.fresh.events⟩
    · intro other enqueue hother
      change (s.enqueues.insert call _).lookup other = some enqueue at hother
      rw [Table.lookup_insert_eq] at hother
      split_ifs at hother with hid
      · obtain rfl := Option.some.inj hother
        exact .inr ⟨hid ▸ hcall, fun rule hrule => (hrules rule hrule).ages ha⟩
      · exact .inl hother

/-- The reconciliation goes on to the next rule, or ends. -/
theorem Orderly.reconcileRules {rules : List ReadRule} (h : s.Orderly)
    (hrules : ∀ read ∈ rules, s.Read read) : (s.reconcileRules rules).Orderly := by
  cases rules with
  | nil =>
    have hdone : Orderly { s with reconcile := none } := h.shrinks (shrinks_reconciled s)
    have hscheduled := hdone.shrinks (same_scheduleDrain _ 0).shrinks
    exact hscheduled.shrinks (shrinks_note _ .reconciled)
  | cons rule rest =>
    have ha : s.Ages (s.reconcileRules (rule :: rest)) :=
      ⟨le_rfl, le_rfl, fun _ _ hnone => hnone, fun _ rule hrule _ => ⟨rule, hrule, .inl rfl⟩,
        fun _ _ _ hevent => hevent⟩
    refine h.ages ha ?_ (fun id row hrow => ⟨row, hrow, rfl⟩) (fun _ _ hcall => .inl hcall) ?_
    · exact ⟨h.fresh.rules, h.fresh.creating, h.fresh.deliveries, h.fresh.events⟩
    · intro reconcile hat
      obtain rfl := Option.some.inj hat
      exact .inr fun read hread => (hrules read hread).ages ha

theorem Orderly.reconciling {read : ReadRule} {rest : List ReadRule} {events : List EventId}
    (h : s.Orderly) (hrules : ∀ other ∈ read :: rest, s.Read other)
    (hevents : ∀ eventId ∈ events,
      eventId ≤ s.lastEventId ∧ read.row.startAfterEventId < eventId) :
    (s.reconciling read now rest events).Orderly := by
  cases events with
  | nil => exact h.reconcileRules fun other hother => hrules other (List.mem_cons_of_mem _ hother)
  | cons eventId events =>
    have ha : s.Ages (s.reconciling read now rest (eventId :: events)) :=
      ⟨le_rfl, le_rfl, fun _ _ hnone => hnone, fun _ rule hrule _ => ⟨rule, hrule, .inl rfl⟩,
        fun _ _ _ hevent => hevent⟩
    refine h.ages ha ?_ (fun id row hrow => ⟨row, hrow, rfl⟩) (fun _ _ hcall => .inl hcall) ?_
    · exact ⟨h.fresh.rules, h.fresh.creating, h.fresh.deliveries, h.fresh.events⟩
    · intro reconcile hat
      obtain rfl := Option.some.inj hat
      exact .inr ⟨fun other hother => (hrules other hother).ages ha, hevents⟩

/-- The newest event is a bound of all. -/
theorem le_latest (entries : List (Sigma fun _ : EventId => SteamEvent)) (first : EventId) :
    first ≤ entries.foldl (fun latest entry => max latest entry.1) first ∧
      ∀ entry ∈ entries,
        entry.1 ≤ entries.foldl (fun latest entry => max latest entry.1) first := by
  induction entries generalizing first with
  | nil => exact ⟨le_rfl, fun entry hentry => nomatch hentry⟩
  | cons head rest ih =>
    obtain ⟨hfirst, hrest⟩ := ih (max first head.1)
    refine ⟨(Nat.le_max_left _ _).trans hfirst, fun entry hentry => ?_⟩
    rcases List.mem_cons.mp hentry with rfl | hmem
    · exact (Nat.le_max_right _ _).trans hfirst
    · exact hrest entry hmem

theorem le_startAfter (body : RuleBody) (hevent : s.events.lookup eventId = some event) :
    eventId ≤ (s.ruleValues revision body).startAfterEventId :=
  (le_latest s.events.entries 0).2 ⟨eventId, event⟩ (Table.lookup_eq_some_iff.mp hevent)

theorem Orderly.createRule (h : s.Orderly) (body : RuleBody) : (s.createRule body).Orderly := by
  have hother (id : RuleId) (hlt : id < s.drawn) :
      (s.createRule body).creating.lookup id = s.creating.lookup id :=
    AList.lookup_insert_ne hlt.ne
  have ha : s.Ages (s.createRule body) :=
    ⟨Nat.le_succ _, le_rfl, fun id hlt hnone => (hother id hlt).trans hnone,
      fun _ rule hrule _ => ⟨rule, hrule, .inl rfl⟩, fun _ _ _ hevent => hevent⟩
  refine h.ages ha ?_ (fun id row hrow => ⟨row, hrow, rfl⟩) (fun _ _ hcall => .inl hcall)
    fun _ hat => .inl hat
  constructor
  case rules =>
    intro id rule hrule
    obtain ⟨hlt, hnone⟩ := h.fresh.rules id rule hrule
    exact ⟨Nat.lt_succ_of_lt hlt, (hother id hlt).trans hnone⟩
  case creating =>
    intro id rule hrule
    rw [Dispatcher.createRule, Table.lookup_insert_eq] at hrule
    split_ifs at hrule with hid
    · exact hid ▸ Nat.lt_succ_self _
    · exact Nat.lt_succ_of_lt (h.fresh.creating id rule hrule)
  case deliveries => exact fun id row hrow => Nat.lt_succ_of_lt (h.fresh.deliveries id row hrow)
  case events => exact h.fresh.events

theorem Orderly.insertRule (h : s.Orderly) (hn : s.insertRule ruleId = some t) : t.Orderly := by
  obtain ⟨new, hnew, hn⟩ := Option.bind_eq_some_iff.mp hn
  obtain rfl := Option.some.inj hn
  have hne {id : RuleId} (hnone : s.creating.lookup id = none) : id ≠ ruleId := by
    rintro rfl
    rw [hnew] at hnone
    cases hnone
  have hcreated {id : RuleId} (hnone : s.creating.lookup id = none) :
      (s.creating.erase ruleId).lookup id = none :=
    (AList.lookup_erase_ne (hne hnone)).trans hnone
  have ha : s.Ages { s with
      creating := s.creating.erase ruleId, rules := s.rules.insert ruleId new } := by
    constructor
    case drawn => exact le_rfl
    case lastEventId => exact le_rfl
    case creating => exact fun id _ hnone => hcreated hnone
    case rules =>
      intro id rule hrule hnone
      rw [AList.lookup_insert_ne (hne hnone)] at hrule
      exact ⟨rule, hrule, .inl rfl⟩
    case events => exact fun _ _ _ hevent => hevent
  refine h.ages ha ?_ (fun id row hrow => ⟨row, hrow, rfl⟩) (fun _ _ hcall => .inl hcall)
    fun _ hat => .inl hat
  constructor
  case rules =>
    intro id rule hrule
    rw [Table.lookup_insert_eq] at hrule
    split_ifs at hrule with hid
    · subst hid
      exact ⟨h.fresh.creating id new hnew, AList.lookup_erase _ _⟩
    · exact ⟨(h.fresh.rules id rule hrule).1, hcreated (h.fresh.rules id rule hrule).2⟩
  case creating =>
    intro id rule hrule
    rw [Table.lookup_erase_eq] at hrule
    split_ifs at hrule
    exact h.fresh.creating id rule hrule
  case deliveries => exact h.fresh.deliveries
  case events => exact h.fresh.events

theorem Orderly.replaceRule {body : RuleBody} (h : s.Orderly)
    (hn : s.replaceRule ruleId body = some t) : t.Orderly := by
  obtain ⟨current, hcurrent, hn⟩ := Option.bind_eq_some_iff.mp hn
  obtain rfl := Option.some.inj hn
  have ha : s.Ages { s with
      rules := s.rules.insert ruleId (s.ruleValues (current.revision + 1) body)
      deliveries := s.deliveries.retain fun _ row => row.ruleId != ruleId } := by
    constructor
    case drawn => exact le_rfl
    case lastEventId => exact le_rfl
    case creating => exact fun _ _ hnone => hnone
    case rules =>
      intro id rule hrule _
      rw [Table.lookup_insert_eq] at hrule
      split_ifs at hrule with hid
      · subst hid
        obtain rfl := Option.some.inj hrule
        refine ⟨current, hcurrent, .inr ⟨Nat.lt_succ_self _, fun _ _ hevent => ?_⟩⟩
        exact le_startAfter body hevent
      · exact ⟨rule, hrule, .inl rfl⟩
    case events => exact fun _ _ _ hevent => hevent
  have hrows (id : DeliveryId) (row : NotificationDelivery)
      (hrow : (s.deliveries.retain fun _ row => row.ruleId != ruleId).lookup id = some row) :
      s.deliveries.lookup id = some row := (Table.lookup_of_retain hrow).1
  refine h.ages ha ?_ (fun id row hrow => ⟨row, hrows id row hrow, rfl⟩)
    (fun _ _ hcall => .inl hcall) fun _ hat => .inl hat
  constructor
  case rules =>
    intro id rule hrule
    rw [Table.lookup_insert_eq] at hrule
    split_ifs at hrule with hid
    · subst hid
      exact h.fresh.rules id current hcurrent
    · exact h.fresh.rules id rule hrule
  case creating => exact h.fresh.creating
  case deliveries => exact fun id row hrow => h.fresh.deliveries id row (hrows id row hrow)
  case events => exact h.fresh.events

theorem Orderly.start (h : s.Orderly) : s.start.Orderly := by
  have hsame : s.SameQueue ({ s with running := true }.scheduleDrain 0) := by
    refine SameQueue.trans ?_ (same_scheduleDrain _ 0)
    exact ⟨fun _ => rfl, fun _ => rfl, rfl, rfl, rfl, rfl, rfl, rfl, rfl⟩
  have hstarted := h.shrinks hsame.shrinks
  have ha : Ages ({ s with running := true }.scheduleDrain 0) s.start :=
    ⟨le_rfl, le_rfl, fun _ _ hnone => hnone, fun _ rule hrule _ => ⟨rule, hrule, .inl rfl⟩,
      fun _ _ _ hevent => hevent⟩
  refine hstarted.ages ha ?_ (fun id row hrow => ⟨row, hrow, rfl⟩) (fun _ _ hcall => .inl hcall) ?_
  · exact ⟨hstarted.fresh.rules, hstarted.fresh.creating, hstarted.fresh.deliveries,
      hstarted.fresh.events⟩
  · intro reconcile hat
    change (_ : Option Reconcile).or _ = some reconcile at hat
    rcases Option.or_eq_some_iff.mp hat with hold | ⟨-, hnew⟩
    · exact .inl hold
    · obtain rfl := Option.some.inj hnew
      exact .inr trivial

end Dispatcher

end SteamBee.Notifications
