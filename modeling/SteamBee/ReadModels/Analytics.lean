import SteamBee.Data.Keyed
import SteamBee.Data.Total
import SteamBee.Schedule.Window

/-! The analytics of an account: how long its sessions ran today, in the last seven days and with
each game. -/
namespace SteamBee.ReadModels
open Schedule

structure StoredSession where
  id : ℕ
  presetId : Option PresetId
  presetName : Option String
  appIds : List ℕ
  startedAt : ℤ
  endedAt : Option ℤ
  stopReason : Option String
  deriving DecidableEq, Repr

structure SessionApp where
  appId : ℕ
  name : String
  deriving DecidableEq, Repr

structure BoostSession extends StoredSession where
  durationMs : ℕ
  apps : List SessionApp
  deriving DecidableEq, Repr

structure GameDuration extends SessionApp where
  durationMs : ℕ
  deriving DecidableEq, Repr

structure AnalyticsDay where
  startsAt : ℤ
  durationMs : ℕ
  deriving DecidableEq, Repr

structure BoostAnalytics where
  todayMs : ℕ
  last7DaysMs : ℕ
  totalSessions : ℕ
  openSession : Option BoostSession
  topGames : List GameDuration
  recentSessions : List BoostSession
  days : List AnalyticsDay

/-- `Math.max(0, …)` of the overlap. -/
def overlappingDurationMs (startedAt endedAt rangeStart rangeEnd : ℤ) : ℕ :=
  (min endedAt rangeEnd - max startedAt rangeStart).toNat

def midnight : ClockTime := .of 0 0

def startOfDay (zone : TimeZone) (dateKey : ℤ) : ℤ := zonedLocalTimeToEpoch dateKey midnight zone

structure DayRange where
  startsAt : ℤ
  endsAt : ℤ
  deriving DecidableEq, Repr

def dayRange (zone : TimeZone) (today : ℤ) (index : ℕ) : DayRange :=
  let dateKey := addLocalDays today (index - 6)
  ⟨startOfDay zone dateKey, startOfDay zone (addLocalDays dateKey 1)⟩

namespace StoredSession

/-- An open session runs until now. -/
def endOr (session : StoredSession) (now : ℤ) : ℤ := session.endedAt.getD now

def since (session : StoredSession) (now start : ℤ) : ℕ :=
  if start ≤ session.endOr now then
    overlappingDurationMs session.startedAt (session.endOr now) start now
  else 0

def within (session : StoredSession) (now : ℤ) (day : DayRange) : ℕ :=
  if session.endOr now ≤ day.startsAt ∨ day.endsAt ≤ session.startedAt then 0
  else overlappingDurationMs session.startedAt (session.endOr now) day.startsAt (min day.endsAt now)

def durationMs (session : StoredSession) (now : ℤ) : ℕ :=
  (session.endOr now - session.startedAt).toNat

end StoredSession

/-- Unknown zones fall back to the server's. -/
def viewerZone (intl : Intl) (serverZone : TimeZone) (timezone : Option String) : TimeZone :=
  ((timezone.filter fun timezone => timezone != "").bind intl).getD serverZone

def gameDurations (sessions : List StoredSession) (now : ℤ) : List (ℕ × ℕ) :=
  sessions.foldl (fun durations session =>
    session.appIds.foldl (fun durations appId =>
      durations.upsert Prod.fst appId
        (fun entry => (entry.1, entry.2 + session.durationMs now))
        (appId, session.durationMs now)) durations) []

def appName (appNames : ℕ → Option String) (appId : ℕ) : SessionApp :=
  ⟨appId, (appNames appId).getD ("App " ++ toString appId)⟩

/-- The analytics from the sessions of the account, the latest ones first. The session list is
capped; the count is not. -/
def getAccountAnalytics (intl : Intl) (serverZone : TimeZone) (appNames : ℕ → Option String)
    (stored : List StoredSession) (now : ℤ) (timezone : Option String) : BoostAnalytics :=
  let zone := viewerZone intl serverZone timezone
  let today := (zonedDateParts now zone).dateKey
  let startOfToday := startOfDay zone today
  let last7Days := now - hours (7 * 24)
  let sessions := stored.take 500
  let presentedSessions := sessions.map fun session => {
    session with durationMs := session.durationMs now, apps := session.appIds.map (appName appNames) }
  { todayMs := sessions.total fun session => session.since now startOfToday
    last7DaysMs := sessions.total fun session => session.since now last7Days
    totalSessions := stored.length
    openSession := presentedSessions.find? fun session => session.endedAt.isNone
    topGames := (((gameDurations sessions now).insertionSort fun left right =>
      right.2 ≤ left.2).take 8).map fun entry =>
        { appName appNames entry.1 with durationMs := entry.2 }
    recentSessions := presentedSessions.take 12
    days := (List.range 7).map fun index => {
      startsAt := (dayRange zone today index).startsAt
      durationMs := sessions.total fun session => session.within now (dayRange zone today index) } }
where
  hours (n : ℤ) : ℤ := n * 60 * minuteMs

end SteamBee.ReadModels
