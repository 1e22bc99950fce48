import SteamBee.Notifications.Deliveries

/-! The laws of the deliveries over whole runs: a delivery is attempted at most three times and in
its own revision, is not sent again once it is closed, and not while its revision is suspended. -/
namespace SteamBee.Notifications

open Dispatcher

variable {s t : Dispatcher} {a : DispatcherAction}

theorem Dispatcher.Kept.next (h : s.Kept) (hcut : NotCut s a)
    (hn : dispatcherMachine.next s a = some t) : t.Kept := by
  cases a with
  | record event =>
    obtain rfl := Option.some.inj hn
    exact h.still (.refl _) rfl rfl rfl (Nat.le_succ _) le_rfl rfl
  | enqueue call => exact h.proceedEnqueue hn
  | reconcile => exact h.proceedReconcile hn
  | fire => exact h.fire hn
  | select ids => exact h.select hn
  | drain => exact h.proceedDrain hn
  | settle outcome => exact h.settle hcut hn
  | create body =>
    obtain rfl := Option.some.inj hn
    exact h.createRule body
  | insert ruleId => exact h.insertRule hn
  | replace ruleId body => exact h.replaceRule hn
  | deleteRule ruleId =>
    obtain rfl := Option.some.inj hn
    exact h.deleteRule ruleId
  | deleteEvents ids =>
    obtain rfl := Option.some.inj hn
    exact h.deleteEvents ids
  | start =>
    obtain rfl := Option.some.inj hn
    have hrunning : Kept { s with running := true } :=
      h.still (.refl _) rfl rfl rfl le_rfl le_rfl rfl
    exact (hrunning.scheduleDrain 0).still (.refl _) rfl rfl rfl le_rfl le_rfl rfl
  | stop =>
    obtain rfl := Option.some.inj hn
    exact h.still (.refl _) rfl rfl rfl le_rfl le_rfl rfl
  | crash =>
    obtain rfl := Option.some.inj hn
    exact h.crash hcut
  | tick elapsed =>
    obtain rfl := Option.some.inj hn
    exact h.still (.refl _) rfl rfl rfl le_rfl (Nat.le_add_right _ _) rfl

theorem Dispatcher.kept_empty (now : ℕ) : (Dispatcher.empty now).Kept := by
  constructor
  case parts =>
    constructor
    case rows => exact fun id row hrow => by cases hrow
    case log =>
      constructor
      case tally => exact fun id => Nat.zero_le _
      case drawn => simp [Dispatcher.empty, unrecorded]
      case sends => trivial
      case counted => exact fun _ _ _ _ hmem => by cases hmem
    case rules =>
      constructor
      case rules => exact fun ruleId rule hrule => by cases hrule
      case creating => exact fun ruleId rule hrule => by cases hrule
  case drain => exact fun drain hdrain => by cases hdrain
  case finished => exact fun id row hrow => by cases hrow

theorem Dispatcher.kept_of_reachable (h : dispatcherMachine.ReachableWhen NotCut s) : s.Kept := by
  apply h.invariant
  · rintro s ⟨now, rfl⟩
    exact kept_empty now
  · intro s t a hs hcut hn
    exact hs.next hcut hn

/-- `sends` speaks of every send and of what had been noted when it happened. -/
structure DeliveryLaws (s : Dispatcher) : Prop where
  recorded : ∀ id, s.log.count (.failed id) + s.log.count (.delivered id) ≤ maxAttempts
  attempts : ∀ id row, s.deliveries.lookup id = some row →
    row.attempts = s.log.count (.failed id) + s.log.count (.delivered id)
  sends : ∀ later id ruleId createdFor used sentAt earlier,
    s.log = later ++ .sent id ruleId createdFor used sentAt :: earlier →
      earlier.count (.failed id) < maxAttempts ∧ .delivered id ∉ earlier ∧
      .retired id ∉ earlier ∧ unrecorded id earlier = false ∧ used = createdFor ∧
      ∀ revision endsAt, suspendedUntil ruleId revision earlier = some endsAt →
        endsAt ≤ sentAt ∨ revision < used
  counters : ∀ ruleId rule, s.rules.lookup ruleId = some rule →
    rule.failureCount = streak ruleId rule.revision s.log ∧
      rule.disabledUntil = suspendedUntil ruleId rule.revision s.log

theorem deliveryLaws_of_reachable (h : dispatcherMachine.ReachableWhen NotCut s) :
    DeliveryLaws s := by
  have hkept := kept_of_reachable h
  constructor
  case recorded => exact hkept.parts.log.tally
  case attempts => exact fun id row hrow => (hkept.parts.rows id row hrow).tally
  case sends =>
    intro later id ruleId createdFor used sentAt earlier heq
    have hsends := hkept.parts.log.sends
    rw [heq] at hsends
    exact hsends.of_split
  case counters =>
    intro ruleId rule hrule
    have hrule := (hkept.parts.rules.rules ruleId rule hrule).1
    exact ⟨hrule.failureCount, hrule.disabledUntil⟩

/-! ## A hook that fails -/

/-- Five events for one rule, each of them failing once. -/
def failingHook : List DispatcherAction := List.flatten [
  [.start, .reconcile, .create hook, .insert 0], .replicate 5 (.record started),
  [1, 1, 2, 2, 3, 3, 4, 4, 5, 5].map .enqueue, [.fire, .select [6, 7, 8, 9, 10]],
  (List.replicate 5 (List.flatten [.replicate 3 .drain, [.settle (some (false, "HTTP 500"))],
    .replicate 3 .drain])).flatten, [.drain]]
where
  hook : RuleBody := ⟨.webhook, true, ["boost"], some (.ok "https://hook.example/")⟩
  started : SteamEvent := ⟨"boost", some "started"⟩

/-- Once the hour of the suspension is over, the first of the deliveries is sent again. -/
def recoveredHook : Dispatcher :=
  (dispatcherMachine.exec (.empty 0) (List.flatten [failingHook,
    [.tick 3600000, .fire, .select [6, 7, 8, 9, 10]], .replicate 3 .drain, [.settle none],
    .replicate 2 .drain])).getD (.empty 0)

/-- The step is neither a crash nor the abort of a send. -/
def DispatcherAction.isUncut : DispatcherAction → Bool
  | .crash | .settle (some (true, _)) => false
  | _ => true

theorem notCut_of_isUncut {a : DispatcherAction} (h : a.isUncut = true) (s : Dispatcher) :
    NotCut s a := by
  unfold NotCut
  split
  · cases h
  · cases h
  · trivial

theorem reachable_of_isUncut {now : ℕ} {as : List DispatcherAction}
    (hcut : as.all DispatcherAction.isUncut = true)
    (h : (dispatcherMachine.exec (.empty now) as).isSome = true) :
    dispatcherMachine.ReachableWhen NotCut
      ((dispatcherMachine.exec (.empty now) as).getD (.empty now)) := by
  have hstarts : dispatcherMachine.Starts (.empty now) := ⟨now, rfl⟩
  apply Transition.Machine.reachableWhen_exec ?_ hstarts h
  exact fun a ha => notCut_of_isUncut (List.all_eq_true.mp hcut a ha)

theorem deliveryLaws_recoveredHook :
    DeliveryLaws recoveredHook ∧
      recoveredHook.log.take 3 = [.counted 0 1 true 3600000, .delivered 6, .sent 6 0 1 1 3600000] ∧
      streak 0 1 (recoveredHook.log.drop 3) = 5 := by
  have hreachable : dispatcherMachine.ReachableWhen NotCut recoveredHook :=
    reachable_of_isUncut (by decide +kernel) (by decide +kernel)
  exact ⟨deliveryLaws_of_reachable hreachable, by decide +kernel, by decide +kernel⟩

/-- A suspended hook is replaced, and the next event is sent to the new revision at once. -/
def replacedHook : Dispatcher :=
  (dispatcherMachine.exec (.empty 0) (List.flatten [failingHook,
    [.replace 0 failingHook.hook, .record failingHook.started, .enqueue 11, .enqueue 11, .fire,
      .select [12]], .replicate 3 .drain])).getD (.empty 0)

theorem not_asleep_replacedHook :
    ¬ ∀ s, dispatcherMachine.ReachableWhen NotCut s →
      ∀ later id ruleId createdFor used sentAt earlier,
        s.log = later ++ .sent id ruleId createdFor used sentAt :: earlier →
          ∀ revision endsAt, suspendedUntil ruleId revision earlier = some endsAt →
            endsAt ≤ sentAt := by
  intro hasleep
  have hreachable : dispatcherMachine.ReachableWhen NotCut replacedHook :=
    reachable_of_isUncut (by decide +kernel) (by decide +kernel)
  have hlog : replacedHook.log = [] ++ .sent 12 0 2 2 0 :: replacedHook.log.tail := by
    decide +kernel
  have hends := hasleep replacedHook hreachable [] 12 0 2 2 0 replacedHook.log.tail hlog 1 3600000
    (by decide +kernel)
  cases hends

end SteamBee.Notifications
