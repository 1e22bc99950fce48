import SteamBee.Steam.BoostSessionTracker

/-! The caps of the safety coordinator: the time of the current activity, of the day and of
the week, measured on the boost sessions of an account. -/
namespace SteamBee.Steam

inductive SafetyHoldReason where
  | sessionLimit
  | dailyLimit
  | weeklyLimit
  deriving DecidableEq, Repr

structure SafetyPolicy where
  maxSessionMinutes : Option ℕ
  maxDailyMinutes : Option ℕ
  maxWeeklyMinutes : Option ℕ
  deriving DecidableEq, Repr

structure CapResult where
  reason : SafetyHoldReason
  consumedMs : ℕ
  limitMinutes : ℕ
  deriving DecidableEq, Repr

def sumOverlap (sessions : List BoostSession) (rangeStart rangeEnd : ℕ) : ℕ :=
  sessions.foldl (fun total session =>
    total + (min (session.endedAt.getD rangeEnd) rangeEnd - max session.startedAt rangeStart)) 0

/-- The loop of `continuousSessionMs` over the sessions that have ended, the latest first. -/
def chainStart (startedAt : ℕ) (previous : List BoostSession) : ℕ :=
  previous.foldl (fun startedAt session =>
    if session.stopReason = some .selectionChanged ∧ session.endedAt = some startedAt ∧
        session.startedAt < startedAt then session.startedAt
    else startedAt) startedAt

def continuousSessionMs (sessions : List BoostSession) (now : ℕ) : ℕ :=
  match sessions.filter fun session => session.endedAt.isNone with
  | [] => 0
  | session :: others =>
    let startedAt := others.foldl (fun least other => min least other.startedAt) session.startedAt
    let previous := (sessions.filter fun session => session.endedAt.isSome).insertionSort
      fun left right => right.startedAt ≤ left.startedAt
    now - chainStart startedAt previous

def capResult (reason : SafetyHoldReason) (consumedMs : ℕ) (limitMinutes : Option ℕ) :
    Option CapResult := do
  let limit ← limitMinutes
  if consumedMs < limit * 60000 then none else some ⟨reason, consumedMs, limit⟩

def dayMs : ℕ := 24 * 60 * 60000

/-- The days since Monday; the first of January 1970 was a Thursday. -/
def weekday (day : ℕ) : ℕ := (day + 3) % 7

def exceededCap (policy : SafetyPolicy) (sessions : List BoostSession) (now : ℕ) :
    Option CapResult :=
  let today := now / dayMs
  let startOfDay := today * dayMs
  let startOfWeek := (today - weekday today) * dayMs
  (capResult .sessionLimit (continuousSessionMs sessions now) policy.maxSessionMinutes).or
    ((capResult .dailyLimit (sumOverlap sessions startOfDay now) policy.maxDailyMinutes).or
      (capResult .weeklyLimit (sumOverlap sessions startOfWeek now) policy.maxWeeklyMinutes))

end SteamBee.Steam
