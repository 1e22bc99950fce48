import SteamBee.Notifications.DeliveryRecord

/-! The invariant of the deliveries is kept by every step that is not the drain's own. -/
namespace SteamBee.Notifications

/-! ## Marks in the log -/

/-- The entry tells nothing of a delivery or a rule. -/
def Happened.isMark : Happened → Bool
  | .reconciled | .crashed => true
  | _ => false

theorem Happened.eq_of_isMark {mark : Happened} (h : mark.isMark = true) :
    mark = .reconciled ∨ mark = .crashed := by
  cases mark with
  | reconciled => exact .inl rfl
  | crashed => exact .inr rfl
  | sent | delivered | failed | retired | counted => cases h

/-- Two logs that tell the same of the deliveries and the rules. -/
structure SameRecord (log log' : List Happened) : Prop where
  count : ∀ happened, happened.isMark = false → log'.count happened = log.count happened
  streak : ∀ ruleId revision, streak ruleId revision log' = streak ruleId revision log
  suspendedUntil : ∀ ruleId revision,
    suspendedUntil ruleId revision log' = suspendedUntil ruleId revision log
  unrecorded : ∀ id, unrecorded id log' = unrecorded id log
  sends : History.Each SendOk log → History.Each SendOk log'

theorem SameRecord.refl (log : List Happened) : SameRecord log log :=
  ⟨fun _ _ => rfl, fun _ _ => rfl, fun _ _ => rfl, fun _ => rfl, fun h => h⟩

theorem SameRecord.mark (log : List Happened) {mark : Happened} (h : mark.isMark = true) :
    SameRecord log (mark :: log) := by
  have hcount (happened : Happened) (hother : happened.isMark = false) :
      (mark :: log).count happened = log.count happened := by
    apply List.count_cons_of_ne
    rintro rfl
    rw [h] at hother
    cases hother
  rcases Happened.eq_of_isMark h with rfl | rfl
  · exact ⟨hcount, fun _ _ => rfl, fun _ _ => rfl, fun _ => rfl, fun hlog => ⟨trivial, hlog⟩⟩
  · exact ⟨hcount, fun _ _ => rfl, fun _ _ => rfl, fun _ => rfl, fun hlog => ⟨trivial, hlog⟩⟩

theorem SameRecord.mem {log log' : List Happened} (h : SameRecord log log') {happened : Happened}
    (hmark : happened.isMark = false) : happened ∈ log' ↔ happened ∈ log := by
  rw [← List.count_pos_iff, ← List.count_pos_iff, h.count happened hmark]

theorem RowKept.same {drawn drawn' : ℕ} {log log' : List Happened} {id : DeliveryId}
    {row : NotificationDelivery} (h : RowKept drawn log id row) (hlog : SameRecord log log')
    (hdrawn : drawn ≤ drawn') : RowKept drawn' log' id row := by
  constructor
  case drawn => exact h.drawn.trans_le hdrawn
  case bound => exact h.bound
  case tally => rw [hlog.count _ rfl, hlog.count _ rfl]; exact h.tally
  case fresh =>
    intro hopen
    rw [hlog.mem rfl, hlog.mem rfl]
    exact h.fresh hopen

namespace Dispatcher
variable {s t : Dispatcher} {a : DispatcherAction} {id : DeliveryId} {row : NotificationDelivery}
  {delivery : ReadDelivery} {rule : ReadRule} {drain : Drain} {point : DrainPoint}
  {ruleId : RuleId}

/-- What a step that is not the drain's may do to the deliveries, besides queueing new ones. -/
structure Aside (s t : Dispatcher) : Prop where
  log : SameRecord s.log t.log
  rows : ∀ id row, t.deliveries.lookup id = some row → s.deliveries.lookup id = some row ∨
    s.drawn ≤ id ∧ id < t.drawn ∧ row.isOpen = true ∧ row.attempts = 0
  revisions : ∀ id row rule, t.deliveries.lookup id = some row →
    s.rules.lookup row.ruleId = some rule →
      ∃ rule', t.rules.lookup row.ruleId = some rule' ∧ rule'.revision = rule.revision
  creating : ∀ ruleId, ruleId < s.drawn → s.creating.lookup ruleId = none →
    t.creating.lookup ruleId = none
  drawn : s.drawn ≤ t.drawn
  now : s.now ≤ t.now

theorem RuleKept.same {log log' : List Happened} {rule : NotificationRule}
    (h : RuleKept log ruleId rule) (hlog : SameRecord log log') : RuleKept log' ruleId rule := by
  constructor
  case failureCount => rw [hlog.streak]; exact h.failureCount
  case disabledUntil => rw [hlog.suspendedUntil]; exact h.disabledUntil
  case revision =>
    intro revision success noticedAt hcounted
    exact h.revision revision success noticedAt ((hlog.mem rfl).mp hcounted)

theorem LogKept.aside (h : s.LogKept) (ha : s.Aside t) : t.LogKept := by
  constructor
  case tally =>
    intro id
    rw [ha.log.count _ rfl, ha.log.count _ rfl]
    exact h.tally id
  case drawn =>
    intro id hid
    rw [ha.log.mem rfl, ha.log.mem rfl, ha.log.mem rfl, ha.log.unrecorded]
    exact h.drawn id (ha.drawn.trans hid)
  case sends => exact ha.log.sends h.sends
  case counted =>
    intro ruleId revision success noticedAt hcounted
    obtain ⟨hlt, hnone⟩ := h.counted ruleId revision success noticedAt ((ha.log.mem rfl).mp hcounted)
    exact ⟨hlt.trans_le ha.drawn, ha.creating ruleId hlt hnone⟩

theorem Parts.aside (h : s.Parts) (ha : s.Aside t) (hrules : t.RulesKept) : t.Parts := by
  constructor
  case rows =>
    intro id row hrow
    rcases ha.rows id row hrow with hold | ⟨hnew, hlt, hopen, hzero⟩
    · exact (h.rows id row hold).same ha.log ha.drawn
    · obtain ⟨hfailed, hdelivered, hretired, -⟩ := h.log.drawn id hnew
      rw [← ha.log.mem rfl] at hfailed hdelivered hretired
      constructor
      case drawn => exact hlt
      case bound => rw [hzero]; exact Nat.zero_le _
      case tally => rw [hzero, List.count_eq_zero.mpr hfailed, List.count_eq_zero.mpr hdelivered]
      case fresh => exact fun _ => ⟨by rw [hzero]; decide, hdelivered, hretired⟩
  case log => exact h.log.aside ha
  case rules => exact hrules

theorem Held.aside (h : s.Held delivery) (ha : s.Aside t) : t.Held delivery := by
  constructor
  case drawn => exact h.drawn.trans_le ha.drawn
  case same =>
    intro row hrow
    rcases ha.rows _ row hrow with hold | ⟨hnew, -⟩
    · exact h.same row hold
    · exact absurd h.drawn (Nat.not_lt.mpr hnew)
  case isOpen => exact h.isOpen
  case attempts => exact h.attempts
  case failed => rw [ha.log.count _ rfl]; exact h.failed
  case delivered => rw [ha.log.mem rfl]; exact h.delivered
  case retired => rw [ha.log.mem rfl]; exact h.retired

theorem Linked.aside (h : s.Linked delivery) (hheld : s.Held delivery) (ha : s.Aside t) :
    t.Linked delivery := by
  intro row hrow
  rcases ha.rows _ row hrow with hold | ⟨hnew, -⟩
  · obtain ⟨rule, hrule, hrevision⟩ := h row hold
    rw [← hheld.same row hold] at hrule
    obtain ⟨rule', hrule', hsame⟩ := ha.revisions _ row rule hrow hrule
    rw [hheld.same row hold] at hrule'
    exact ⟨rule', hrule', hsame.trans hrevision⟩
  · exact absurd hheld.drawn (Nat.not_lt.mpr hnew)

theorem Ready.aside (h : s.Ready delivery rule) (ha : s.Aside t) : t.Ready delivery rule := by
  constructor
  case revision => exact h.revision
  case recorded => rw [ha.log.unrecorded]; exact h.recorded
  case awake =>
    intro revision endsAt hsuspended
    rw [ha.log.suspendedUntil] at hsuspended
    rcases h.awake revision endsAt hsuspended with hpast | hold
    · exact .inl (hpast.trans ha.now)
    · exact .inr hold

theorem PointKept.aside (h : s.PointKept point) (ha : s.Aside t) : t.PointKept point := by
  cases point with
  | selecting | selectingNext | resetting => trivial
  | reading id =>
    intro row hrow
    rcases ha.rows id row hrow with hold | ⟨-, -, hopen, -⟩
    · exact h row hold
    · exact hopen
  | readingRule delivery => exact ⟨h.1.aside ha, (ha.log.unrecorded _).trans h.2⟩
  | retiring delivery | postponing delivery => exact Held.aside h ha
  | readingEvent delivery rule => exact ⟨h.1.aside ha, h.2.1.aside h.1 ha, h.2.2.aside ha⟩
  | sending delivery rule => exact ⟨h.1.aside ha, h.2.aside h.1 ha⟩
  | marking delivery => exact ⟨h.1.aside ha, h.2.aside h.1 ha⟩
  | failReading delivery => exact ⟨h.1.aside ha, h.2.aside h.1 ha⟩
  | failMarking delivery => exact ⟨h.1.aside ha, h.2.trans (by rw [ha.log.streak])⟩
  | failCounting delivery => exact Eq.trans h (by rw [ha.log.streak])

theorem RestKept.aside {rest : List DeliveryId} (h : s.RestKept rest) (ha : s.Aside t) :
    t.RestKept rest := by
  refine ⟨h.1, fun id hid row hrow => ?_⟩
  rcases ha.rows id row hrow with hold | ⟨-, -, hopen, -⟩
  · exact h.2 id hid row hold
  · exact hopen

/-- A step beside the drain, or the end of the drain when nothing is to be recorded. -/
theorem Kept.aside (h : s.Kept) (ha : s.Aside t) (hrules : t.RulesKept)
    (hdrain : t.drain = s.drain ∨
      t.drain = none ∧ ∀ id, s.recording = some id → unrecorded id s.log = false) : t.Kept := by
  constructor
  case parts => exact h.parts.aside ha hrules
  case drain =>
    intro drain hd
    rcases hdrain with hsame | ⟨hnone, -⟩
    · have hkept := h.drain drain (hsame ▸ hd)
      exact ⟨hkept.rest.aside ha, hkept.current, hkept.point.aside ha⟩
    · rw [hnone] at hd
      cases hd
  case finished =>
    intro id row hrow hopen hrecording
    rw [ha.log.unrecorded]
    rcases ha.rows id row hrow with hold | ⟨hnew, -⟩
    · rcases hdrain with hsame | ⟨-, hcut⟩
      · apply h.finished id row hold hopen
        rw [recording, ← hsame]
        exact hrecording
      · by_cases hcurrent : s.recording = some id
        · exact hcut id hcurrent
        · exact h.finished id row hold hopen hcurrent
    · exact (h.parts.log.drawn id hnew).2.2.2

/-! ## The rules -/

theorem RulesKept.same (h : s.RulesKept) (hlog : SameRecord s.log t.log)
    (hrules : ∀ ruleId rule, t.rules.lookup ruleId = some rule → s.rules.lookup ruleId = some rule)
    (hcreating : t.creating = s.creating) (hdrawn : s.drawn ≤ t.drawn) : t.RulesKept := by
  constructor
  case rules =>
    intro ruleId rule hrule
    obtain ⟨hkept, hlt, hnone⟩ := h.rules ruleId rule (hrules ruleId rule hrule)
    exact ⟨hkept.same hlog, hlt.trans_le hdrawn, hcreating ▸ hnone⟩
  case creating =>
    intro ruleId rule hrule
    rw [hcreating] at hrule
    obtain ⟨hlt, hzero, hnone⟩ := h.creating ruleId rule hrule
    exact ⟨hlt.trans_le hdrawn, hzero, hnone⟩

/-- Of a revision for which nothing was counted. -/
theorem streak_eq_zero (ruleId : RuleId) (revision : ℕ) {log : List Happened}
    (h : ∀ success noticedAt, .counted ruleId revision success noticedAt ∉ log) :
    streak ruleId revision log = 0 ∧ suspendedUntil ruleId revision log = none := by
  induction log with
  | nil => exact ⟨rfl, rfl⟩
  | cons happened log ih =>
    have hrest := ih fun success noticedAt hmem => h success noticedAt (List.mem_cons_of_mem _ hmem)
    cases happened with
    | counted counted of success noticedAt =>
      have hne : ¬ (counted = ruleId ∧ of = revision) := by
        rintro ⟨rfl, rfl⟩
        exact h success noticedAt List.mem_cons_self
      rw [streak, suspendedUntil, if_neg hne, if_neg hne]
      exact hrest
    | sent | delivered | failed | retired | reconciled | crashed => exact hrest

theorem ruleKept_of_none {log : List Happened} {rule : NotificationRule}
    (hcount : rule.failureCount = 0) (hnone : rule.disabledUntil = none)
    (h : ∀ revision success noticedAt,
      .counted ruleId revision success noticedAt ∈ log → revision < rule.revision) :
    RuleKept log ruleId rule := by
  have hzero := streak_eq_zero ruleId rule.revision
    fun success noticedAt hmem => lt_irrefl _ (h _ success noticedAt hmem)
  constructor
  case failureCount => rw [hcount, hzero.1]
  case disabledUntil => rw [hnone, hzero.2]
  case revision => exact fun revision success noticedAt hmem => (h _ _ _ hmem).le

/-! ## The steps -/

theorem Aside.still (hlog : SameRecord s.log t.log) (hdeliveries : t.deliveries = s.deliveries)
    (hrules : t.rules = s.rules) (hcreating : t.creating = s.creating) (hdrawn : s.drawn ≤ t.drawn)
    (hnow : s.now ≤ t.now) : s.Aside t := by
  constructor
  case log => exact hlog
  case rows => exact fun id row hrow => .inl (hdeliveries ▸ hrow)
  case revisions => exact fun id row rule _ hrule => ⟨rule, hrules ▸ hrule, rfl⟩
  case creating => exact fun ruleId _ hnone => hcreating ▸ hnone
  case drawn => exact hdrawn
  case now => exact hnow

/-- A step that changes neither the rows nor the rules. -/
theorem Kept.still (h : s.Kept) (hlog : SameRecord s.log t.log)
    (hdeliveries : t.deliveries = s.deliveries) (hrules : t.rules = s.rules)
    (hcreating : t.creating = s.creating) (hdrawn : s.drawn ≤ t.drawn) (hnow : s.now ≤ t.now)
    (hdrain : t.drain = s.drain) : t.Kept := by
  apply h.aside (.still hlog hdeliveries hrules hcreating hdrawn hnow) ?_ (.inl hdrain)
  apply h.parts.rules.same hlog ?_ hcreating hdrawn
  intro ruleId rule hrule
  rw [← hrules]
  exact hrule

/-- Rows are dropped, and with them rules that have no others. -/
theorem Aside.dropped (p : DeliveryId → NotificationDelivery → Bool) (hlog : t.log = s.log)
    (hdeliveries : t.deliveries = s.deliveries.retain p)
    (hrules : ∀ id row, p id row = true → t.rules.lookup row.ruleId = s.rules.lookup row.ruleId)
    (hcreating : t.creating = s.creating) (hdrawn : t.drawn = s.drawn) (hnow : t.now = s.now) :
    s.Aside t := by
  constructor
  case log => rw [hlog]; exact .refl _
  case rows =>
    intro id row hrow
    rw [hdeliveries] at hrow
    exact .inl (Table.lookup_of_retain hrow).1
  case revisions =>
    intro id row rule hrow hrule
    rw [hdeliveries] at hrow
    refine ⟨rule, ?_, rfl⟩
    rw [hrules id row (Table.lookup_of_retain hrow).2]
    exact hrule
  case creating => exact fun ruleId _ hnone => hcreating ▸ hnone
  case drawn => exact hdrawn.ge
  case now => exact hnow.ge

theorem Kept.insertDelivery {revision eventId now : ℕ} (h : s.Kept)
    (hn : s.insertDelivery ruleId revision eventId now = some t) : t.Kept := by
  unfold Dispatcher.insertDelivery at hn
  split_ifs at hn
  · obtain rfl := Option.some.inj hn
    exact h
  · obtain rfl := Option.some.inj hn
    have hlog : SameRecord s.log s.log := .refl _
    have ha : s.Aside { s with
        deliveries := s.deliveries.insert s.drawn
          ⟨ruleId, revision, eventId, .pending, 0, some now, none⟩
        drawn := s.drawn + 1 } := by
      constructor
      case log => exact hlog
      case rows =>
        intro id row hrow
        rw [Table.lookup_insert_eq] at hrow
        split_ifs at hrow with hid
        · obtain rfl := Option.some.inj hrow
          exact .inr ⟨hid.ge, hid ▸ Nat.lt_succ_self _, rfl, rfl⟩
        · exact .inl hrow
      case revisions => exact fun id row rule _ hrule => ⟨rule, hrule, rfl⟩
      case creating => exact fun _ _ hnone => hnone
      case drawn => exact Nat.le_succ _
      case now => exact le_rfl
    exact h.aside ha (h.parts.rules.same hlog (fun _ _ hrule => hrule) rfl (Nat.le_succ _)) (.inl rfl)

theorem Kept.scheduleDrain (h : s.Kept) (delayMs : ℕ) : (s.scheduleDrain delayMs).Kept := by
  unfold Dispatcher.scheduleDrain
  split_ifs
  · exact h.still (.refl _) rfl rfl rfl le_rfl le_rfl rfl
  · exact h

theorem Kept.enqueued {call : CallId} {eventId now : ℕ} (h : s.Kept) (rules : List (RuleId × ℕ)) :
    (s.enqueued call eventId now rules).Kept := by
  cases rules with
  | nil =>
    apply Kept.scheduleDrain
    exact h.still (.refl _) rfl rfl rfl le_rfl le_rfl rfl
  | cons rule rest => exact h.still (.refl _) rfl rfl rfl le_rfl le_rfl rfl

theorem Kept.proceedEnqueue {call : CallId} (h : s.Kept) (hn : s.proceedEnqueue call = some t) :
    t.Kept := by
  obtain ⟨enqueue, -, hn⟩ := Option.bind_eq_some_iff.mp hn
  split at hn
  next =>
    obtain rfl := Option.some.inj hn
    exact h.enqueued _
  next =>
    split at hn
    next found hfound =>
      obtain rfl := Option.some.inj hn
      exact (h.insertDelivery hfound).enqueued _
    next =>
      obtain rfl := Option.some.inj hn
      exact h.still (.refl _) rfl rfl rfl le_rfl le_rfl rfl
  next => cases hn

theorem Kept.reconcileRules (h : s.Kept) (rules : List ReadRule) :
    (s.reconcileRules rules).Kept := by
  cases rules with
  | nil =>
    have hdone : ({ s with reconcile := none }.scheduleDrain 0).Kept := by
      apply Kept.scheduleDrain
      exact h.still (.refl _) rfl rfl rfl le_rfl le_rfl rfl
    exact hdone.still (.mark _ rfl) rfl rfl rfl le_rfl le_rfl rfl
  | cons rule rest => exact h.still (.refl _) rfl rfl rfl le_rfl le_rfl rfl

theorem Kept.reconciling {now : ℕ} {rest : List ReadRule} (h : s.Kept) (rule : ReadRule)
    (events : List EventId) : (s.reconciling rule now rest events).Kept := by
  cases events with
  | nil => exact h.reconcileRules rest
  | cons eventId events => exact h.still (.refl _) rfl rfl rfl le_rfl le_rfl rfl

theorem Kept.proceedReconcile (h : s.Kept) (hn : s.proceedReconcile = some t) : t.Kept := by
  obtain ⟨reconcile, -, hn⟩ := Option.bind_eq_some_iff.mp hn
  split at hn
  next =>
    obtain rfl := Option.some.inj hn
    exact h.reconcileRules _
  next =>
    obtain rfl := Option.some.inj hn
    exact h.reconciling _ _
  next =>
    split at hn
    next found hfound =>
      obtain rfl := Option.some.inj hn
      exact (h.insertDelivery hfound).reconciling _ _
    next =>
      obtain rfl := Option.some.inj hn
      exact h.still (.refl _) rfl rfl rfl le_rfl le_rfl rfl
  next => cases hn

theorem Kept.createRule (h : s.Kept) (body : RuleBody) : (s.createRule body).Kept := by
  have hlog : SameRecord s.log s.log := .refl _
  have hother (ruleId : RuleId) (hlt : ruleId < s.drawn) :
      (s.createRule body).creating.lookup ruleId = s.creating.lookup ruleId :=
    AList.lookup_insert_ne hlt.ne
  have ha : s.Aside (s.createRule body) := by
    constructor
    case log => exact hlog
    case rows => exact fun _ _ hrow => .inl hrow
    case revisions => exact fun id row rule _ hrule => ⟨rule, hrule, rfl⟩
    case creating => exact fun ruleId hlt hnone => (hother ruleId hlt).trans hnone
    case drawn => exact Nat.le_succ _
    case now => exact le_rfl
  apply h.aside ha ?_ (.inl rfl)
  constructor
  case rules =>
    intro ruleId rule hrule
    obtain ⟨hkept, hlt, hnone⟩ := h.parts.rules.rules ruleId rule hrule
    exact ⟨hkept, Nat.lt_succ_of_lt hlt, (hother ruleId hlt).trans hnone⟩
  case creating =>
    intro ruleId rule hrule
    rw [Dispatcher.createRule, Table.lookup_insert_eq] at hrule
    split_ifs at hrule with hid
    · obtain rfl := Option.some.inj hrule
      exact ⟨hid ▸ Nat.lt_succ_self _, rfl, rfl⟩
    · obtain ⟨hlt, hkept⟩ := h.parts.rules.creating ruleId rule hrule
      exact ⟨Nat.lt_succ_of_lt hlt, hkept⟩

theorem Kept.insertRule (h : s.Kept) (hn : s.insertRule ruleId = some t) : t.Kept := by
  obtain ⟨rule, hrule, hn⟩ := Option.bind_eq_some_iff.mp hn
  obtain rfl := Option.some.inj hn
  have hlog : SameRecord s.log s.log := .refl _
  obtain ⟨hlt, hzero, hnone⟩ := h.parts.rules.creating ruleId rule hrule
  have hne {other : RuleId} (hother : s.creating.lookup other = none) : other ≠ ruleId := by
    rintro rfl
    rw [hrule] at hother
    cases hother
  have herase {other : RuleId} (hother : s.creating.lookup other = none) :
      (s.creating.erase ruleId).lookup other = none := by
    rw [Table.lookup_erase_eq, if_neg (hne hother)]
    exact hother
  have ha : s.Aside { s with
      creating := s.creating.erase ruleId, rules := s.rules.insert ruleId rule } := by
    constructor
    case log => exact hlog
    case rows => exact fun _ _ hrow => .inl hrow
    case revisions =>
      intro id row found _ hfound
      refine ⟨found, ?_, rfl⟩
      rw [AList.lookup_insert_ne (hne (h.parts.rules.rules _ found hfound).2.2)]
      exact hfound
    case creating => exact fun other _ hother => herase hother
    case drawn => exact le_rfl
    case now => exact le_rfl
  apply h.aside ha ?_ (.inl rfl)
  constructor
  case rules =>
    intro other found hfound
    rw [Table.lookup_insert_eq] at hfound
    split_ifs at hfound with hid
    · subst hid
      obtain rfl := Option.some.inj hfound
      refine ⟨ruleKept_of_none hzero hnone ?_, hlt, AList.lookup_erase _ _⟩
      intro revision success noticedAt hmem
      have hcreating := (h.parts.log.counted _ _ _ _ hmem).2
      rw [hrule] at hcreating
      cases hcreating
    · obtain ⟨hkept, hother, hnot⟩ := h.parts.rules.rules other found hfound
      exact ⟨hkept, hother, herase hnot⟩
  case creating =>
    intro other found hfound
    rw [Table.lookup_erase_eq] at hfound
    split_ifs at hfound
    exact h.parts.rules.creating other found hfound

theorem Kept.replaceRule {body : RuleBody} (h : s.Kept)
    (hn : s.replaceRule ruleId body = some t) : t.Kept := by
  obtain ⟨current, hcurrent, hn⟩ := Option.bind_eq_some_iff.mp hn
  obtain rfl := Option.some.inj hn
  obtain ⟨hkept, hlt, hnone⟩ := h.parts.rules.rules ruleId current hcurrent
  refine h.aside (.dropped (fun _ row => row.ruleId != ruleId) rfl rfl ?_ rfl rfl rfl) ?_ (.inl rfl)
  · intro id row hrow
    exact AList.lookup_insert_ne (bne_iff_ne.mp hrow)
  constructor
  case rules =>
    intro other found hfound
    rw [Table.lookup_insert_eq] at hfound
    split_ifs at hfound with hid
    · subst hid
      obtain rfl := Option.some.inj hfound
      refine ⟨ruleKept_of_none rfl rfl ?_, hlt, hnone⟩
      intro revision success noticedAt hmem
      exact Nat.lt_succ_of_le (hkept.revision revision success noticedAt hmem)
    · exact h.parts.rules.rules other found hfound
  case creating => exact h.parts.rules.creating

theorem Kept.deleteRule (h : s.Kept) (ruleId : RuleId) : (s.deleteRule ruleId).Kept := by
  refine h.aside (.dropped (fun _ row => row.ruleId != ruleId) rfl rfl ?_ rfl rfl rfl) ?_ (.inl rfl)
  · intro id row hrow
    exact AList.lookup_erase_ne (bne_iff_ne.mp hrow)
  · apply RulesKept.same (t := s.deleteRule ruleId) h.parts.rules (.refl _) ?_ rfl le_rfl
    intro other rule hrule
    rw [Dispatcher.deleteRule, Table.lookup_erase_eq] at hrule
    split_ifs at hrule
    exact hrule

theorem Kept.deleteEvents (h : s.Kept) (ids : List EventId) : (s.deleteEvents ids).Kept := by
  refine h.aside (.dropped (fun _ row => !ids.contains row.eventId) rfl rfl (fun _ _ _ => rfl) rfl rfl
    rfl) ?_ (.inl rfl)
  exact h.parts.rules.same (.refl _) (fun _ _ hrule => hrule) rfl le_rfl

theorem Kept.crash (h : s.Kept) (hcut : ∀ id, s.recording = some id → unrecorded id s.log = false) :
    s.crash.Kept := by
  have hlog : SameRecord s.log s.crash.log := .mark _ rfl
  have ha : s.Aside s.crash := by
    constructor
    case log => exact hlog
    case rows => exact fun _ _ hrow => .inl hrow
    case revisions => exact fun id row rule _ hrule => ⟨rule, hrule, rfl⟩
    case creating => exact fun _ _ _ => rfl
    case drawn => exact le_rfl
    case now => exact le_rfl
  apply h.aside ha ?_ (.inr ⟨rfl, hcut⟩)
  constructor
  case rules =>
    intro ruleId rule hrule
    obtain ⟨hkept, hlt, -⟩ := h.parts.rules.rules ruleId rule hrule
    exact ⟨hkept.same hlog, hlt, rfl⟩
  case creating => exact fun ruleId rule hrule => by cases hrule

end Dispatcher

end SteamBee.Notifications
