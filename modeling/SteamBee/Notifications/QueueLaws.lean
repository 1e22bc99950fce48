import SteamBee.Notifications.QueueSteps

/-! The laws of the queue over whole runs: an event is queued once for a rule, above the boundary of
the rule's revision, and once everything has settled nothing that is owed is missing. -/
namespace SteamBee.Notifications

/-! ## In time -/

/-- The insert finds its rule and its event, and no boundary that has come to lie above it. Of the
rows that `enqueue` inserts, the boundary in this condition is at once what the law `above` says;
what that law adds is about the rows of the reconciliation, and that rows stay above it. -/
def Enqueue.InTime (s : Dispatcher) : Enqueue → Prop
  | .inserting eventId _ ((ruleId, revision) :: _) =>
    (s.events.lookup eventId).isSome = true ∧ ∃ rule ∈ s.rules.lookup ruleId,
      rule.revision = revision →
        rule.startAfterEventId < eventId ∨ s.hasDelivery ruleId eventId = true
  | _ => True

/-- The insert does not take the place of a row that a later revision owes. -/
def Reconcile.InTime (s : Dispatcher) : Reconcile → Prop
  | .inserting read _ (eventId :: _) _ =>
    ∀ rule ∈ s.rules.lookup read.id, ∀ event ∈ s.events.lookup eventId,
      rule.owes eventId event = true →
        rule.revision = read.row.revision ∨ s.hasDelivery read.id eventId = true
  | _ => True

/-- The inserts of rows are in time, and a rule is inserted before the events that it owes are
looked up rules for. -/
def InTime (s : Dispatcher) : DispatcherAction → Prop
  | .enqueue call => ∀ enqueue ∈ s.enqueues.lookup call, enqueue.InTime s
  | .reconcile => ∀ reconcile ∈ s.reconcile, reconcile.InTime s
  | .insert ruleId => ∀ rule ∈ s.creating.lookup ruleId, ∀ entry ∈ s.events.entries,
    rule.owes entry.1 entry.2 = true →
      ∃ call ∈ s.enqueues.entries, call.2 = .reading entry.1 entry.2
  | _ => True

namespace Dispatcher
variable {s t u : Dispatcher} {a : DispatcherAction} {call : CallId} {ruleId : RuleId}
  {revision now : ℕ} {eventId : EventId} {event : SteamEvent} {rule : NotificationRule}

theorem mem_webhookRules {read : ReadRule} : read ∈ s.webhookRules ↔
    s.rules.lookup read.id = some read.row ∧
      (read.row.enabled && read.row.target == .webhook) = true := by
  unfold webhookRules
  constructor
  · intro hmem
    obtain ⟨entry, hentry, rfl⟩ := List.mem_map.mp hmem
    obtain ⟨hentry, hkind⟩ := List.mem_filter.mp hentry
    exact ⟨Table.lookup_eq_some_iff.mpr hentry, hkind⟩
  · rintro ⟨hrule, hkind⟩
    apply List.mem_map.mpr
    exact ⟨⟨read.id, read.row⟩, List.mem_filter.mpr ⟨Table.lookup_eq_some_iff.mp hrule, hkind⟩, rfl⟩

theorem Orderly.issued (h : s.Orderly) (hrule : s.rules.lookup ruleId = some rule) :
    s.Issued ruleId rule.revision where
  drawn := (h.fresh.rules ruleId rule hrule).1
  created := (h.fresh.rules ruleId rule hrule).2
  revision rule' hrule' := by
    obtain rfl := Option.some.inj (hrule.symm.trans hrule')
    exact le_rfl

theorem Orderly.proceedEnqueue (h : s.Orderly) (htime : InTime s (.enqueue call))
    (hn : s.proceedEnqueue call = some t) : t.Orderly := by
  obtain ⟨enqueue, hcall, hn⟩ := Option.bind_eq_some_iff.mp hn
  obtain ⟨hlt, hfiled⟩ := h.enqueues call enqueue hcall
  have htime := htime enqueue hcall
  split at hn
  next eventId event =>
    obtain rfl := Option.some.inj hn
    apply h.enqueued hlt
    intro entry hentry
    obtain ⟨read, hread, rfl⟩ := List.mem_map.mp hentry
    obtain ⟨hrule, -⟩ := mem_webhookRules.mp (List.mem_filter.mp hread).1
    refine ⟨h.issued hrule, hfiled, fun rule event hrule' _ hne => ?_⟩
    obtain rfl := Option.some.inj (hrule.symm.trans hrule')
    exact absurd rfl hne
  next eventId now ruleId revision rest =>
    split at hn
    next found hfound =>
      obtain rfl := Option.some.inj hn
      have hinserted : found.Orderly := by
        apply h.insertDelivery hfound
        intro hfree
        refine ⟨hfiled (ruleId, revision) List.mem_cons_self, fun rule hrule heq => ?_⟩
        obtain ⟨-, rule', hrule', hboundary⟩ := htime
        obtain rfl := Option.some.inj (hrule.symm.trans hrule')
        rcases hboundary heq.symm with habove | hthere
        · exact habove
        · rw [hfree] at hthere
          cases hthere
      have hstays : found.enqueues = s.enqueues := by
        rcases insertDelivery_cases hfound with ⟨-, rfl⟩ | ⟨-, rfl⟩
        · rfl
        · rfl
      obtain ⟨hlt, hfiled⟩ := hinserted.enqueues call _ (hstays ▸ hcall)
      exact hinserted.enqueued hlt fun entry hentry => hfiled entry (List.mem_cons_of_mem _ hentry)
    next =>
      obtain rfl := Option.some.inj hn
      exact h.shrinks (shrinks_erase s call)
  next => cases hn

theorem Orderly.proceedReconcile (h : s.Orderly) (htime : InTime s .reconcile)
    (hn : s.proceedReconcile = some t) : t.Orderly := by
  obtain ⟨reconcile, hat, hn⟩ := Option.bind_eq_some_iff.mp hn
  have hkept := h.reconcile reconcile hat
  have htime := htime reconcile hat
  split at hn
  next =>
    obtain rfl := Option.some.inj hn
    apply h.reconcileRules
    intro read hread
    obtain ⟨hrule, -⟩ := mem_webhookRules.mp hread
    refine ⟨h.issued hrule, fun rule hrule' _ => ?_⟩
    obtain rfl := Option.some.inj (hrule.symm.trans hrule')
    rfl
  next read rest =>
    obtain rfl := Option.some.inj hn
    apply h.reconciling hkept
    intro eventId hmem
    obtain ⟨entry, hentry, rfl⟩ := List.mem_map.mp hmem
    obtain ⟨hentry, hmatch⟩ := List.mem_filter.mp hentry
    refine ⟨h.fresh.events _ _ (Table.lookup_eq_some_iff.mpr hentry), ?_⟩
    exact of_decide_eq_true (Bool.and_eq_true_iff.mp hmatch).1
  next read now eventId events rest =>
    obtain ⟨hreads, hevents⟩ := hkept
    have hread := hreads read List.mem_cons_self
    obtain ⟨hevent, habove⟩ := hevents eventId List.mem_cons_self
    split at hn
    next found hfound =>
      obtain rfl := Option.some.inj hn
      have hinserted : found.Orderly := by
        apply h.insertDelivery hfound
        intro hfree
        refine ⟨⟨hread.issued, hevent, fun rule event hrule hstored hne => ?_⟩,
          fun rule hrule heq => ?_⟩
        · rw [Bool.eq_false_iff]
          intro howes
          rcases htime rule hrule event hstored howes with hsame | hthere
          · exact hne hsame.symm
          · rw [hfree] at hthere
            cases hthere
        · rw [NotificationRule.startAfter_terms (hread.terms rule hrule heq.symm)]
          exact habove
      have hstays : found.reconcile = s.reconcile := by
        rcases insertDelivery_cases hfound with ⟨-, rfl⟩ | ⟨-, rfl⟩
        · rfl
        · rfl
      obtain ⟨hreads, hevents⟩ := hinserted.reconcile _ (hstays.trans hat)
      exact hinserted.reconciling hreads fun other hother =>
        hevents other (List.mem_cons_of_mem _ hother)
    next =>
      obtain rfl := Option.some.inj hn
      exact h.shrinks (shrinks_reconciled s)
  next => cases hn

theorem Orderly.next (h : s.Orderly) (htime : InTime s a)
    (hn : dispatcherMachine.next s a = some t) : t.Orderly := by
  cases a with
  | record event =>
    obtain rfl := Option.some.inj hn
    exact h.record event
  | enqueue call => exact h.proceedEnqueue htime hn
  | reconcile => exact h.proceedReconcile htime hn
  | fire => exact h.shrinks (same_fire hn).shrinks
  | select ids => exact h.shrinks (same_select hn).shrinks
  | drain => exact h.shrinks (same_proceedDrain hn).shrinks
  | settle outcome => exact h.shrinks (same_settle hn).shrinks
  | create body =>
    obtain rfl := Option.some.inj hn
    exact h.createRule body
  | insert ruleId => exact h.insertRule hn
  | replace ruleId body => exact h.replaceRule hn
  | deleteRule ruleId =>
    obtain rfl := Option.some.inj hn
    exact h.shrinks (shrinks_deleteRule s ruleId)
  | deleteEvents ids =>
    obtain rfl := Option.some.inj hn
    exact h.shrinks (shrinks_deleteEvents s ids)
  | start =>
    obtain rfl := Option.some.inj hn
    exact h.start
  | stop =>
    obtain rfl := Option.some.inj hn
    exact h.shrinks (same_stop s).shrinks
  | crash =>
    obtain rfl := Option.some.inj hn
    exact h.shrinks (shrinks_crash s)
  | tick elapsed =>
    obtain rfl := Option.some.inj hn
    exact h.shrinks (same_tick s elapsed).shrinks

theorem orderly_empty (now : ℕ) : (Dispatcher.empty now).Orderly := by
  constructor
  case fresh =>
    constructor
    case rules => exact fun _ _ hrule => nomatch hrule
    case creating => exact fun _ _ hrule => nomatch hrule
    case deliveries => exact fun _ _ hrow => nomatch hrow
    case events => exact fun _ _ hevent => nomatch hevent
  case once => exact fun _ _ _ _ hrow => nomatch hrow
  case rows => exact fun _ _ hrow => nomatch hrow
  case enqueues => exact fun _ _ hcall => nomatch hcall
  case reconcile => exact fun _ hat => nomatch hat

end Dispatcher

/-! ## What is owed -/

/-- The call will insert the row of the slot, if nothing stops it. -/
def Enqueue.Brings (slot : Slot) (event : SteamEvent) : Enqueue → Prop
  | .reading eventId event' => eventId = slot.eventId ∧ event' = event
  | .inserting eventId _ rules => eventId = slot.eventId ∧ (slot.ruleId, slot.revision) ∈ rules

def Reconcile.Brings (slot : Slot) : Reconcile → Prop
  | .reading => True
  | .readingEvents rule rest =>
    ∃ read ∈ rule :: rest, read.id = slot.ruleId ∧ read.row.revision = slot.revision
  | .inserting rule _ events rest =>
    rule.id = slot.ruleId ∧ rule.row.revision = slot.revision ∧ slot.eventId ∈ events ∨
      ∃ read ∈ rest, read.id = slot.ruleId ∧ read.row.revision = slot.revision

namespace Dispatcher
variable {s t u : Dispatcher} {a : DispatcherAction} {call : CallId} {ruleId : RuleId}
  {revision now : ℕ} {eventId : EventId} {event : SteamEvent} {rule : NotificationRule}

/-- The event is above the boundary of the rule as it is now, and matches it. -/
structure Owes (s : Dispatcher) (slot : Slot) (event : SteamEvent) : Prop where
  rule : ∃ rule, s.rules.lookup slot.ruleId = some rule ∧ rule.revision = slot.revision ∧
    rule.owes slot.eventId event = true
  event : s.events.lookup slot.eventId = some event

def Delivers (s : Dispatcher) (slot : Slot) : Prop :=
  ∃ id row, s.deliveries.lookup id = some row ∧ row.slot = slot

def Secures (s : Dispatcher) (slot : Slot) (event : SteamEvent) : Prop :=
  s.Delivers slot ∨ ∃ call enqueue, s.enqueues.lookup call = some enqueue ∧
    enqueue.Brings slot event

/-- What is owed is secured once a reconciliation has come to its end; until then a reconciliation
that is under way may have yet to come to it. -/
structure Complete (s : Dispatcher) : Prop where
  settled : hasReconciled s.log = true → ∀ slot event, s.Owes slot event → s.Secures slot event
  under : ∀ reconcile, s.reconcile = some reconcile → ∀ slot event, s.Owes slot event →
    s.Secures slot event ∨ reconcile.Brings slot

structure Advances (s t : Dispatcher) : Prop where
  owes : ∀ slot event, t.Owes slot event → s.Owes slot event ∨ t.Secures slot event
  secures : ∀ slot event, t.Owes slot event → s.Secures slot event → t.Secures slot event

theorem Advances.settled (h : s.Advances t)
    (hs : ∀ slot event, s.Owes slot event → s.Secures slot event) :
    ∀ slot event, t.Owes slot event → t.Secures slot event := by
  intro slot event howes
  rcases h.owes slot event howes with hold | hnew
  · exact h.secures slot event howes (hs slot event hold)
  · exact hnew

theorem Advances.trans (h : s.Advances t) (h' : t.Advances u) : s.Advances u := by
  constructor
  case owes =>
    intro slot event howes
    rcases h'.owes slot event howes with hold | hnew
    · rcases h.owes slot event hold with hfirst | hsecured
      · exact .inl hfirst
      · exact .inr (h'.secures slot event howes hsecured)
    · exact .inr hnew
  case secures =>
    intro slot event howes hs
    rcases h'.owes slot event howes with hold | hnew
    · exact h'.secures slot event howes (h.secures slot event hold hs)
    · exact hnew

theorem Complete.advances (h : s.Complete) (hst : s.Advances t)
    (hlog : hasReconciled t.log = true → hasReconciled s.log = true)
    (hreconcile : ∀ reconcile, t.reconcile = some reconcile → s.reconcile = some reconcile) :
    t.Complete where
  settled hdone := hst.settled (h.settled (hlog hdone))
  under reconcile hat slot event howes := by
    rcases hst.owes slot event howes with hold | hnew
    · rcases h.under reconcile (hreconcile reconcile hat) slot event hold with hsecured | hbrings
      · exact .inl (hst.secures slot event howes hsecured)
      · exact .inr hbrings
    · exact .inl hnew

/-- Rows and calls stay, and no rule comes to owe an event. -/
theorem advances_of_stays
    (hrules : ∀ id rule', t.rules.lookup id = some rule' →
      ∃ rule, s.rules.lookup id = some rule ∧ rule'.terms = rule.terms)
    (hevents : ∀ id event, t.events.lookup id = some event → s.events.lookup id = some event)
    (hrows : ∀ slot event, t.Owes slot event → s.Delivers slot → t.Delivers slot)
    (henqueues : ∀ call enqueue, s.enqueues.lookup call = some enqueue →
      t.enqueues.lookup call = some enqueue) : s.Advances t := by
  constructor
  case owes =>
    rintro slot event ⟨⟨rule', hrule', hrevision, howes⟩, hevent⟩
    obtain ⟨rule, hrule, hterms⟩ := hrules _ rule' hrule'
    rw [NotificationRule.revision_terms hterms] at hrevision
    rw [NotificationRule.owes_terms hterms] at howes
    exact .inl ⟨⟨rule, hrule, hrevision, howes⟩, hevents _ event hevent⟩
  case secures =>
    rintro slot event howes (hrow | ⟨call, enqueue, hcall, hbrings⟩)
    · exact .inl (hrows slot event howes hrow)
    · exact .inr ⟨call, enqueue, henqueues call enqueue hcall, hbrings⟩

/-- A step that leaves the rows, the calls of `enqueue`, the rules and the events alone. -/
theorem advances_still (hrules : t.rules = s.rules) (hevents : t.events = s.events)
    (hdeliveries : t.deliveries = s.deliveries) (henqueues : t.enqueues = s.enqueues) :
    s.Advances t := by
  apply advances_of_stays
  · exact fun id rule hrule => ⟨rule, hrules ▸ hrule, rfl⟩
  · exact fun id event hevent => hevents ▸ hevent
  · rintro slot event - ⟨id, row, hrow, hslot⟩
    exact ⟨id, row, hdeliveries ▸ hrow, hslot⟩
  · exact fun call enqueue hcall => henqueues ▸ hcall

theorem SameQueue.delivers (h : s.SameQueue t) {slot : Slot} (hs : s.Delivers slot) :
    t.Delivers slot := by
  obtain ⟨id, row, hrow, rfl⟩ := hs
  obtain ⟨row', hrow', hslot⟩ := map_eq_some (h.slots id).symm hrow
  exact ⟨id, row', hrow', hslot.symm⟩

theorem SameQueue.advances (h : s.SameQueue t) : s.Advances t := by
  apply advances_of_stays h.shrinks.rules h.shrinks.events
  · exact fun slot event _ hs => h.delivers hs
  · exact fun call enqueue hcall => h.enqueues ▸ hcall

theorem Complete.same (h : s.Complete) (hst : s.SameQueue t) : t.Complete :=
  h.advances hst.advances (fun hdone => hst.reconciled ▸ hdone) hst.shrinks.reconcile

theorem Complete.record (h : s.Complete) (horderly : s.Orderly) (event : SteamEvent) :
    (s.record event).Complete := by
  have hcalls (call : CallId) (enqueue : Enqueue) (hcall : s.enqueues.lookup call = some enqueue) :
      (s.record event).enqueues.lookup call = some enqueue := by
    have hne : call ≠ s.drawn := (horderly.enqueues call enqueue hcall).1.ne
    exact (AList.lookup_insert_ne hne).trans hcall
  refine h.advances ⟨fun slot found howes => ?_, fun slot found _ hs => ?_⟩ (fun hdone => hdone)
    fun _ hat => hat
  · have hstored := howes.event
    rw [Dispatcher.record, Table.lookup_insert_eq] at hstored
    split_ifs at hstored with hid
    · obtain rfl := Option.some.inj hstored
      exact .inr (.inr ⟨s.drawn, _, AList.lookup_insert _, hid.symm, rfl⟩)
    · exact .inl ⟨howes.rule, hstored⟩
  · rcases hs with hrow | ⟨call, enqueue, hcall, hbrings⟩
    · exact .inl hrow
    · exact .inr ⟨call, enqueue, hcalls call enqueue hcall, hbrings⟩

/-- An insert that does not throw. -/
theorem advances_insertDelivery (hs : s.Orderly)
    (hn : s.insertDelivery ruleId revision eventId now = some t) : s.Advances t := by
  rcases insertDelivery_cases hn with ⟨-, rfl⟩ | ⟨-, rfl⟩
  · exact ⟨fun _ _ howes => .inl howes, fun _ _ _ hs => hs⟩
  · refine ⟨fun _ _ howes => .inl ⟨howes.rule, howes.event⟩, fun slot event _ hs' => ?_⟩
    rcases hs' with ⟨id, row, hrow, hslot⟩ | hcall
    · have hne : id ≠ s.drawn := (hs.fresh.deliveries id row hrow).ne
      exact .inl ⟨id, row, (AList.lookup_insert_ne hne).trans hrow, hslot⟩
    · exact .inr hcall

/-- After the insert the row is there, whoever has inserted it. -/
theorem delivers_insertDelivery (hs : s.Orderly)
    (hn : s.insertDelivery ruleId revision eventId now = some t)
    (howes : t.Owes ⟨ruleId, revision, eventId⟩ event) :
    t.Delivers ⟨ruleId, revision, eventId⟩ := by
  rcases insertDelivery_cases hn with ⟨hthere, rfl⟩ | ⟨-, rfl⟩
  · obtain ⟨id, row, hrow, rfl, rfl⟩ := hasDelivery_iff.mp hthere
    obtain ⟨⟨rule, hlookup, rfl, howed⟩, hstored⟩ := howes
    have hcurrent : row.ruleRevision = rule.revision := by
      by_contra hne
      have hstale := (hs.rows id row hrow).filed.stale rule event hlookup hstored hne
      exact Bool.false_ne_true (hstale.symm.trans howed)
    refine ⟨id, row, hrow, ?_⟩
    rw [NotificationDelivery.slot, hcurrent]
  · exact ⟨s.drawn, _, AList.lookup_insert _, rfl⟩

/-! ## The calls -/

theorem enqueued_frame (s : Dispatcher) (call : CallId) (eventId : EventId) (now : ℕ)
    (rules : List (RuleId × ℕ)) : (s.enqueued call eventId now rules).log = s.log ∧
      (s.enqueued call eventId now rules).reconcile = s.reconcile := by
  cases rules with
  | nil =>
    unfold enqueued scheduleDrain
    split_ifs
    · exact ⟨rfl, rfl⟩
    · exact ⟨rfl, rfl⟩
  | cons rule rest => exact ⟨rfl, rfl⟩

/-- A call goes on: what it was to insert is there, or among what it is to insert now. -/
theorem advances_enqueued {rules : List (RuleId × ℕ)}
    (hbrings : ∀ slot event enqueue, s.Owes slot event → s.enqueues.lookup call = some enqueue →
      enqueue.Brings slot event → s.Delivers slot ∨
        eventId = slot.eventId ∧ (slot.ruleId, slot.revision) ∈ rules) :
    s.Advances (s.enqueued call eventId now rules) := by
  cases rules with
  | nil =>
    have herased : s.Advances { s with enqueues := s.enqueues.erase call } := by
      refine ⟨fun _ _ howes => .inl ⟨howes.rule, howes.event⟩, fun slot event howes hs => ?_⟩
      rcases hs with hrow | ⟨other, enqueue, hother, hb⟩
      · exact .inl hrow
      · by_cases hid : other = call
        · subst hid
          have howes' : s.Owes slot event := ⟨howes.rule, howes.event⟩
          rcases hbrings slot event enqueue howes' hother hb with hrow | ⟨-, hmem⟩
          · exact .inl hrow
          · cases hmem
        · exact .inr ⟨other, enqueue, (AList.lookup_erase_ne hid).trans hother, hb⟩
    exact herased.trans (same_scheduleDrain _ 0).advances
  | cons rule rest =>
    refine ⟨fun _ _ howes => .inl ⟨howes.rule, howes.event⟩, fun slot event howes hs => ?_⟩
    have hlookup (other : CallId) :
        (s.enqueued call eventId now (rule :: rest)).enqueues.lookup other =
          if other = call then some (.inserting eventId now (rule :: rest))
          else s.enqueues.lookup other := Table.lookup_insert_eq _ _ _ _
    rcases hs with hrow | ⟨other, enqueue, hother, hb⟩
    · exact .inl hrow
    · by_cases hid : other = call
      · subst hid
        rcases hbrings slot event enqueue ⟨howes.rule, howes.event⟩ hother hb with hrow | hmem
        · exact .inl hrow
        · exact .inr ⟨other, _, (hlookup other).trans (if_pos rfl), hmem⟩
      · exact .inr ⟨other, enqueue, ((hlookup other).trans (if_neg hid)).trans hother, hb⟩

theorem Complete.enqueued {rules : List (RuleId × ℕ)} (h : s.Complete)
    (hbrings : ∀ slot event enqueue, s.Owes slot event → s.enqueues.lookup call = some enqueue →
      enqueue.Brings slot event → s.Delivers slot ∨
        eventId = slot.eventId ∧ (slot.ruleId, slot.revision) ∈ rules) :
    (s.enqueued call eventId now rules).Complete := by
  obtain ⟨hlog, hreconcile⟩ := enqueued_frame s call eventId now rules
  apply h.advances (advances_enqueued hbrings)
  · rw [hlog]
    exact fun hdone => hdone
  · rw [hreconcile]
    exact fun _ hat => hat

theorem insertDelivery_frame (hn : s.insertDelivery ruleId revision eventId now = some t) :
    t.rules = s.rules ∧ t.events = s.events ∧ t.enqueues = s.enqueues ∧
      t.reconcile = s.reconcile ∧ t.log = s.log := by
  rcases insertDelivery_cases hn with ⟨-, rfl⟩ | ⟨-, rfl⟩
  · exact ⟨rfl, rfl, rfl, rfl, rfl⟩
  · exact ⟨rfl, rfl, rfl, rfl, rfl⟩

theorem Complete.insertDelivery (h : s.Complete) (hs : s.Orderly)
    (hn : s.insertDelivery ruleId revision eventId now = some t) : t.Complete := by
  obtain ⟨-, -, -, hreconcile, hlog⟩ := insertDelivery_frame hn
  apply h.advances (advances_insertDelivery hs hn)
  · rw [hlog]
    exact fun hdone => hdone
  · rw [hreconcile]
    exact fun _ hat => hat

theorem Complete.proceedEnqueue (h : s.Complete) (hs : s.Orderly) (htime : InTime s (.enqueue call))
    (hn : s.proceedEnqueue call = some t) : t.Complete := by
  obtain ⟨enqueue, hcall, hn⟩ := Option.bind_eq_some_iff.mp hn
  have htime := htime enqueue hcall
  split at hn
  next eventId event =>
    obtain rfl := Option.some.inj hn
    apply h.enqueued
    rintro slot found enqueue howes hfound hb
    obtain rfl := Option.some.inj (hcall.symm.trans hfound)
    obtain ⟨heq, rfl⟩ := hb
    obtain ⟨⟨rule, hrule, hrevision, howed⟩, hstored⟩ := howes
    obtain ⟨hkind, -, hmatch⟩ := NotificationRule.owes_iff.mp howed
    have hread : (⟨slot.ruleId, rule⟩ : ReadRule) ∈ s.webhookRules :=
      mem_webhookRules.mpr ⟨hrule, hkind⟩
    refine .inr ⟨heq, List.mem_map.mpr ⟨_, List.mem_filter.mpr ⟨hread, hmatch⟩, ?_⟩⟩
    rw [hrevision]
  next eventId now ruleId revision rest =>
    split at hn
    next found hfound =>
      obtain rfl := Option.some.inj hn
      obtain ⟨-, -, henqueues, -, -⟩ := insertDelivery_frame hfound
      apply (h.insertDelivery hs hfound).enqueued
      intro slot event enqueue howes hlookup hb
      rw [henqueues] at hlookup
      obtain rfl := Option.some.inj (hcall.symm.trans hlookup)
      obtain ⟨rfl, hmem⟩ := hb
      rcases List.mem_cons.mp hmem with heq | hmem
      · obtain ⟨rfl, rfl⟩ := Prod.mk.inj heq
        exact .inl (delivers_insertDelivery hs hfound howes)
      · exact .inr ⟨rfl, hmem⟩
    next hnone =>
      obtain ⟨hevent, rule, hrule, -⟩ := htime
      rw [Option.isSome_iff_ne_none] at hevent
      simp [Dispatcher.insertDelivery, hevent, Option.mem_def.mp hrule] at hnone
      split_ifs at hnone
  next => cases hn

/-! ## The reconciliation -/

theorem Complete.reconcileRules {rules : List ReadRule}
    (hsettled : hasReconciled s.log = true →
      ∀ slot event, s.Owes slot event → s.Secures slot event)
    (hunder : ∀ slot event, s.Owes slot event → s.Secures slot event ∨
      ∃ read ∈ rules, read.id = slot.ruleId ∧ read.row.revision = slot.revision) :
    (s.reconcileRules rules).Complete := by
  cases rules with
  | nil =>
    have hst : s.Advances (s.reconcileRules []) := by
      have hdone : s.Advances { s with reconcile := none } := advances_still rfl rfl rfl rfl
      refine (hdone.trans (same_scheduleDrain _ 0).advances).trans ?_
      exact advances_still rfl rfl rfl rfl
    constructor
    case settled =>
      intro _
      apply hst.settled
      intro slot event howes
      rcases hunder slot event howes with hsecured | ⟨read, hread, -⟩
      · exact hsecured
      · cases hread
    case under =>
      intro reconcile hat
      have hnone : (s.reconcileRules []).reconcile = none :=
        (same_scheduleDrain { s with reconcile := none } 0).reconcile
      rw [hnone] at hat
      cases hat
  | cons rule rest =>
    have hst : s.Advances (s.reconcileRules (rule :: rest)) := advances_still rfl rfl rfl rfl
    constructor
    case settled => exact fun hdone => hst.settled (hsettled hdone)
    case under =>
      intro reconcile hat slot event howes
      obtain rfl := Option.some.inj hat
      have hold : s.Owes slot event := ⟨howes.rule, howes.event⟩
      exact (hunder slot event hold).imp (hst.secures slot event howes) id

theorem Complete.reconciling {read : ReadRule} {rest : List ReadRule} {events : List EventId}
    (hsettled : hasReconciled s.log = true →
      ∀ slot event, s.Owes slot event → s.Secures slot event)
    (hunder : ∀ slot event, s.Owes slot event → s.Secures slot event ∨
      (Reconcile.inserting read now events rest).Brings slot) :
    (s.reconciling read now rest events).Complete := by
  cases events with
  | nil =>
    apply Complete.reconcileRules hsettled
    intro slot event howes
    rcases hunder slot event howes with hsecured | ⟨-, -, hmem⟩ | hrest
    · exact .inl hsecured
    · cases hmem
    · exact .inr hrest
  | cons eventId events =>
    have hst : s.Advances (s.reconciling read now rest (eventId :: events)) :=
      advances_still rfl rfl rfl rfl
    constructor
    case settled => exact fun hdone => hst.settled (hsettled hdone)
    case under =>
      intro reconcile hat slot event howes
      obtain rfl := Option.some.inj hat
      have hold : s.Owes slot event := ⟨howes.rule, howes.event⟩
      exact (hunder slot event hold).imp (hst.secures slot event howes) id

theorem Complete.proceedReconcile (h : s.Complete) (hs : s.Orderly)
    (hn : s.proceedReconcile = some t) : t.Complete := by
  obtain ⟨reconcile, hat, hn⟩ := Option.bind_eq_some_iff.mp hn
  have hkept := hs.reconcile reconcile hat
  have hunder := h.under reconcile hat
  split at hn
  next =>
    obtain rfl := Option.some.inj hn
    apply Complete.reconcileRules h.settled
    rintro slot event ⟨⟨rule, hrule, hrevision, howed⟩, -⟩
    obtain ⟨hkind, -, -⟩ := NotificationRule.owes_iff.mp howed
    exact .inr ⟨⟨slot.ruleId, rule⟩, mem_webhookRules.mpr ⟨hrule, hkind⟩, rfl, hrevision⟩
  next read rest =>
    obtain rfl := Option.some.inj hn
    apply Complete.reconciling h.settled
    intro slot event howes
    rcases hunder slot event howes with hsecured | ⟨found, hmem, hid, hrevision⟩
    · exact .inl hsecured
    rcases List.mem_cons.mp hmem with rfl | hmem
    · obtain ⟨⟨rule, hrule, heq, howed⟩, hstored⟩ := howes
      have hterms := (hkept found List.mem_cons_self).terms rule (hid ▸ hrule)
        (heq.trans hrevision.symm)
      rw [NotificationRule.owes_terms hterms] at howed
      obtain ⟨-, habove, hmatch⟩ := NotificationRule.owes_iff.mp howed
      refine .inr (.inl ⟨hid, hrevision, List.mem_map.mpr ⟨⟨slot.eventId, event⟩, ?_, rfl⟩⟩)
      apply List.mem_filter.mpr
      refine ⟨Table.lookup_eq_some_iff.mp hstored, ?_⟩
      exact Bool.and_eq_true_iff.mpr ⟨decide_eq_true habove, hmatch⟩
    · exact .inr (.inr ⟨found, hmem, hid, hrevision⟩)
  next read now eventId events rest =>
    split at hn
    next found hfound =>
      obtain rfl := Option.some.inj hn
      obtain ⟨-, -, -, hreconcile, -⟩ := insertDelivery_frame hfound
      have hinserted := h.insertDelivery hs hfound
      apply Complete.reconciling hinserted.settled
      intro slot event howes
      rcases hinserted.under _ (hreconcile.trans hat) slot event howes with
        hsecured | ⟨hid, hrevision, hmem⟩ | hrest
      · exact .inl hsecured
      · rcases List.mem_cons.mp hmem with heq | hmem
        · have hslot : slot = ⟨read.id, read.row.revision, eventId⟩ := by
            rw [hid, hrevision, ← heq]
          rw [hslot] at howes ⊢
          exact .inl (.inl (delivers_insertDelivery hs hfound howes))
        · exact .inr (.inl ⟨hid, hrevision, hmem⟩)
      · exact .inr (.inr hrest)
    next =>
      obtain rfl := Option.some.inj hn
      have hst : s.Advances { s with reconcile := none } := advances_still rfl rfl rfl rfl
      exact h.advances hst (fun hdone => hdone) fun _ hat => nomatch hat
  next => cases hn

/-! ## Rules, events and processes -/

theorem Complete.createRule (h : s.Complete) (body : RuleBody) : (s.createRule body).Complete :=
  h.advances (advances_still rfl rfl rfl rfl) (fun hdone => hdone) fun _ hat => hat

theorem Complete.insertRule (h : s.Complete) (htime : InTime s (.insert ruleId))
    (hn : s.insertRule ruleId = some t) : t.Complete := by
  obtain ⟨new, hnew, hn⟩ := Option.bind_eq_some_iff.mp hn
  obtain rfl := Option.some.inj hn
  refine h.advances ⟨?_, fun _ _ _ hs => hs⟩ (fun hdone => hdone) fun _ hat => hat
  rintro slot event ⟨⟨rule, hrule, hrevision, howed⟩, hstored⟩
  rw [Table.lookup_insert_eq] at hrule
  split_ifs at hrule with hid
  · obtain rfl := Option.some.inj hrule
    obtain ⟨call, hcall, hreading⟩ := htime new hnew ⟨slot.eventId, event⟩
      (Table.lookup_eq_some_iff.mp hstored) howed
    refine .inr (.inr ⟨call.1, call.2, Table.lookup_eq_some_iff.mpr hcall, ?_⟩)
    rw [hreading]
    exact ⟨rfl, rfl⟩
  · exact .inl ⟨⟨rule, hrule, hrevision, howed⟩, hstored⟩

/-- Rows of other rules, and of events that stay, are retained. -/
theorem delivers_retain (p : DeliveryId → NotificationDelivery → Bool) {slot : Slot}
    (hdeliveries : t.deliveries = s.deliveries.retain p)
    (hp : ∀ id row, row.slot = slot → p id row = true) (h : s.Delivers slot) : t.Delivers slot := by
  obtain ⟨id, row, hrow, hslot⟩ := h
  refine ⟨id, row, ?_, hslot⟩
  rw [hdeliveries, Table.lookup_retain, hrow]
  exact if_pos (hp id row hslot)

theorem Complete.replaceRule {body : RuleBody} (h : s.Complete)
    (hn : s.replaceRule ruleId body = some t) : t.Complete := by
  obtain ⟨current, hcurrent, hn⟩ := Option.bind_eq_some_iff.mp hn
  obtain rfl := Option.some.inj hn
  have hother (slot : Slot) (event : SteamEvent) (howes : Owes { s with
      rules := s.rules.insert ruleId (s.ruleValues (current.revision + 1) body)
      deliveries := s.deliveries.retain fun _ row => row.ruleId != ruleId } slot event) :
      slot.ruleId ≠ ruleId ∧ s.Owes slot event := by
    obtain ⟨⟨rule, hrule, hrevision, howed⟩, hstored⟩ := howes
    rw [Table.lookup_insert_eq] at hrule
    split_ifs at hrule with hid
    · obtain rfl := Option.some.inj hrule
      have hle : slot.eventId ≤ (s.ruleValues (current.revision + 1) body).startAfterEventId :=
        le_startAfter body hstored
      exact absurd howed (Bool.eq_false_iff.mp (owes_eq_false hle))
    · exact ⟨hid, ⟨rule, hrule, hrevision, howed⟩, hstored⟩
  refine h.advances ⟨fun slot event howes => .inl (hother slot event howes).2, ?_⟩
    (fun hdone => hdone) fun _ hat => hat
  rintro slot event howes (hrow | hcall)
  · refine .inl (delivers_retain (fun _ row => row.ruleId != ruleId) rfl (fun id row hslot => ?_)
      hrow)
    rw [bne_iff_ne]
    rintro rfl
    exact (hother slot event howes).1 (congrArg Slot.ruleId hslot).symm
  · exact .inr hcall

theorem Complete.deleteRule (h : s.Complete) (ruleId : RuleId) :
    (s.deleteRule ruleId).Complete := by
  have hshrinks := shrinks_deleteRule s ruleId
  refine h.advances (advances_of_stays hshrinks.rules hshrinks.events ?_ fun _ _ hcall => hcall)
    (fun hdone => hdone) fun _ hat => hat
  rintro slot event ⟨⟨rule, hrule, -⟩, -⟩ hrow
  refine delivers_retain (fun _ row => row.ruleId != ruleId) rfl (fun id row hslot => ?_) hrow
  rw [bne_iff_ne]
  intro heq
  have hid : slot.ruleId = ruleId := (congrArg Slot.ruleId hslot).symm.trans heq
  rw [Dispatcher.deleteRule, Table.lookup_erase_eq, if_pos hid] at hrule
  cases hrule

theorem Complete.deleteEvents (h : s.Complete) (ids : List EventId) :
    (s.deleteEvents ids).Complete := by
  have hshrinks := shrinks_deleteEvents s ids
  refine h.advances (advances_of_stays hshrinks.rules hshrinks.events ?_ fun _ _ hcall => hcall)
    (fun hdone => hdone) fun _ hat => hat
  rintro slot event ⟨-, hevent⟩ hrow
  refine delivers_retain (fun _ row => !ids.contains row.eventId) rfl (fun id row hslot => ?_) hrow
  have hstays := (Table.lookup_of_retain hevent).2
  rw [← congrArg Slot.eventId hslot] at hstays
  exact hstays

theorem Complete.start (h : s.Complete) : s.start.Complete := by
  have hsame : s.SameQueue ({ s with running := true }.scheduleDrain 0) := by
    refine SameQueue.trans ?_ (same_scheduleDrain _ 0)
    exact ⟨fun _ => rfl, fun _ => rfl, rfl, rfl, rfl, rfl, rfl, rfl, rfl⟩
  have hstarted := h.same hsame
  have hst : Advances ({ s with running := true }.scheduleDrain 0) s.start :=
    advances_still rfl rfl rfl rfl
  constructor
  case settled => exact fun hdone => hst.settled (hstarted.settled hdone)
  case under =>
    intro reconcile hat slot event howes
    change (_ : Option Reconcile).or _ = some reconcile at hat
    rcases Option.or_eq_some_iff.mp hat with hold | ⟨-, hnew⟩
    · have howes' : Owes ({ s with running := true }.scheduleDrain 0) slot event :=
        ⟨howes.rule, howes.event⟩
      exact (hstarted.under reconcile hold slot event howes').imp (hst.secures slot event howes) id
    · obtain rfl := Option.some.inj hnew
      exact .inr trivial

theorem complete_crash (s : Dispatcher) : s.crash.Complete where
  settled hdone := nomatch hdone
  under _ hat := nomatch hat

theorem Complete.next (h : s.Complete) (hs : s.Orderly) (htime : InTime s a)
    (hn : dispatcherMachine.next s a = some t) : t.Complete := by
  cases a with
  | record event =>
    obtain rfl := Option.some.inj hn
    exact h.record hs event
  | enqueue call => exact h.proceedEnqueue hs htime hn
  | reconcile => exact h.proceedReconcile hs hn
  | fire => exact h.same (same_fire hn)
  | select ids => exact h.same (same_select hn)
  | drain => exact h.same (same_proceedDrain hn)
  | settle outcome => exact h.same (same_settle hn)
  | create body =>
    obtain rfl := Option.some.inj hn
    exact h.createRule body
  | insert ruleId => exact h.insertRule htime hn
  | replace ruleId body => exact h.replaceRule hn
  | deleteRule ruleId =>
    obtain rfl := Option.some.inj hn
    exact h.deleteRule ruleId
  | deleteEvents ids =>
    obtain rfl := Option.some.inj hn
    exact h.deleteEvents ids
  | start =>
    obtain rfl := Option.some.inj hn
    exact h.start
  | stop =>
    obtain rfl := Option.some.inj hn
    exact h.same (same_stop s)
  | crash =>
    obtain rfl := Option.some.inj hn
    exact complete_crash s
  | tick elapsed =>
    obtain rfl := Option.some.inj hn
    exact h.same (same_tick s elapsed)

theorem complete_empty (now : ℕ) : (Dispatcher.empty now).Complete where
  settled hdone := nomatch hdone
  under _ hat := nomatch hat

theorem orderly_of_reachable (h : dispatcherMachine.ReachableWhen InTime s) :
    s.Orderly ∧ s.Complete := by
  apply h.invariant (I := fun s => s.Orderly ∧ s.Complete)
  · rintro s ⟨now, rfl⟩
    exact ⟨orderly_empty now, complete_empty now⟩
  · rintro s a t ⟨hs, hcomplete⟩ htime hn
    exact ⟨hs.next htime hn, hcomplete.next hs htime hn⟩

end Dispatcher

/-- `complete` speaks of a process whose reconciliation has come to its end, once its calls have
returned. -/
structure QueueLaws (s : Dispatcher) : Prop where
  once : ∀ id id' row row', s.deliveries.lookup id = some row →
    s.deliveries.lookup id' = some row' → row.ruleId = row'.ruleId →
      row.eventId = row'.eventId → id = id'
  above : ∀ id row rule, s.deliveries.lookup id = some row →
    s.rules.lookup row.ruleId = some rule → row.ruleRevision = rule.revision →
      rule.startAfterEventId < row.eventId
  complete : hasReconciled s.log = true → s.enqueues = ∅ → s.reconcile = none →
    ∀ ruleId rule eventId event, s.rules.lookup ruleId = some rule →
      s.events.lookup eventId = some event → rule.owes eventId event = true →
        ∃ id row, s.deliveries.lookup id = some row ∧ row.ruleId = ruleId ∧
          row.ruleRevision = rule.revision ∧ row.eventId = eventId

theorem queueLaws_of_reachable {s : Dispatcher} (h : dispatcherMachine.ReachableWhen InTime s) :
    QueueLaws s := by
  obtain ⟨horderly, hcomplete⟩ := Dispatcher.orderly_of_reachable h
  constructor
  case once => exact horderly.once
  case above =>
    intro id row rule hrow hrule heq
    exact (horderly.rows id row hrow).above rule hrule heq
  case complete =>
    intro hdone hnone _ ruleId rule eventId event hrule hevent howes
    have howed : s.Owes ⟨ruleId, rule.revision, eventId⟩ event :=
      ⟨⟨rule, hrule, rfl, howes⟩, hevent⟩
    rcases hcomplete.settled hdone _ event howed with ⟨id, row, hrow, hslot⟩ | ⟨call, _, hcall, -⟩
    · obtain ⟨hruleId, hrevision, heventId⟩ := Slot.mk.inj hslot
      exact ⟨id, row, hrow, hruleId, hrevision, heventId⟩
    · rw [hnone] at hcall
      cases hcall

/-! ## A rule that is replaced -/

instance (s : Dispatcher) : (enqueue : Enqueue) → Decidable (enqueue.InTime s)
  | .inserting _ _ (_ :: _) => inferInstanceAs (Decidable (_ = true ∧ ∃ rule ∈ _, _ → _ ∨ _ = true))
  | .inserting _ _ [] | .reading _ _ => inferInstanceAs (Decidable True)

instance (s : Dispatcher) : (reconcile : Reconcile) → Decidable (reconcile.InTime s)
  | .inserting _ _ (_ :: _) _ =>
    inferInstanceAs (Decidable (∀ rule ∈ _, ∀ event ∈ _, _ = true → _ ∨ _ = true))
  | .inserting _ _ [] _ | .reading | .readingEvents _ _ => inferInstanceAs (Decidable True)

instance (s : Dispatcher) : (a : DispatcherAction) → Decidable (InTime s a)
  | .enqueue call =>
    inferInstanceAs (Decidable (∀ enqueue ∈ s.enqueues.lookup call, enqueue.InTime s))
  | .reconcile => inferInstanceAs (Decidable (∀ reconcile ∈ s.reconcile, reconcile.InTime s))
  | .insert ruleId => inferInstanceAs (Decidable (∀ rule ∈ s.creating.lookup ruleId,
      ∀ entry ∈ s.events.entries, _ = true → ∃ call ∈ s.enqueues.entries, call.2 = _))
  | .record _ | .fire | .select _ | .drain | .settle _ | .create _ | .replace _ _ | .deleteRule _
  | .deleteEvents _ | .start | .stop | .crash | .tick _ => inferInstanceAs (Decidable True)

def webhookRule : RuleBody := ⟨.webhook, true, ["*"], some (.ok "https://hook.example/")⟩

/-- An event is queued, the rule replaced, and the process killed before it has queued the next
event, which the reconciliation of the next process finds. -/
def killedQueue : List DispatcherAction :=
  [.start, .reconcile, .create webhookRule, .insert 0, .record ⟨"boost", none⟩, .enqueue 1,
    .enqueue 1, .replace 0 webhookRule, .record ⟨"boost", none⟩, .crash, .start, .reconcile,
    .reconcile, .reconcile]

theorem queueLaws_killedQueue :
    ∃ s, QueueLaws s ∧ s.enqueues = ∅ ∧ s.reconcile = none ∧ hasReconciled s.log = true ∧
      s.rules.entries.map (fun entry => (entry.1, entry.2.revision, entry.2.startAfterEventId)) =
        [(0, 2, 1)] ∧
      s.deliveries.entries.map (fun entry => entry.2.slot) = [⟨0, 2, 2⟩] := by
  have hreach : dispatcherMachine.ReachableWhen InTime
      ((dispatcherMachine.execWhen (fun s a => decide (InTime s a)) (.empty 0) killedQueue).getD
        (.empty 0)) :=
    Transition.Machine.reachable_execWhen (fun _ _ => of_decide_eq_true) ⟨0, rfl⟩
      (by decide +kernel)
  exact ⟨_, queueLaws_of_reachable hreach, AList.ext (by decide +kernel), by decide +kernel,
    by decide +kernel, by decide +kernel, by decide +kernel⟩

/-- The call of an event reads the rules after one has been replaced: it inserts a row below the
boundary. -/
example : ((dispatcherMachine.exec (.empty 0) [.create webhookRule, .insert 0,
    .record ⟨"boost", none⟩, .replace 0 webhookRule, .enqueue 1, .enqueue 1]).map fun s =>
      (s.rules.entries.map fun entry => entry.2.startAfterEventId,
        s.deliveries.entries.map fun entry => entry.2.slot)) = some ([1], [⟨0, 2, 1⟩]) := by
  decide +kernel

/-- The reconciliation has read a rule before it is replaced: the row of the later event is that of
the earlier revision. -/
example : ((dispatcherMachine.exec (.empty 0) [.create webhookRule, .insert 0, .start, .reconcile,
    .replace 0 webhookRule, .record ⟨"boost", none⟩, .reconcile, .reconcile, .enqueue 1,
    .enqueue 1]).map fun s => (s.rules.entries.map fun entry => entry.2.startAfterEventId,
        s.deliveries.entries.map fun entry => entry.2.slot)) = some ([0], [⟨0, 1, 1⟩]) := by
  decide +kernel

end SteamBee.Notifications
