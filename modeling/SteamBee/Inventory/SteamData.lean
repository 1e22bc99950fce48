import SteamBee.Inventory.Snapshot
import SteamBee.Text.Display

/-! What Steam answers, as the service reads it: a response with its body, the JSON in it, and
the values of its fields, of which nothing is known. -/
namespace SteamBee.Inventory.SteamData
open Text

abbrev Fields := List (String × Json)

/-- A property of an object; `none` is `undefined`. -/
def get (fields : Fields) (name : String) : Option Json := Json.lookup fields name

/-- `a ?? b`. -/
def orElse : Option Json → Option Json → Option Json
  | none, b | some .null, b => b
  | a, _ => a

/-- `String(value)`, which an object may refuse. -/
def stringOf : Option Json → Except ActionError String
  | none => .ok "undefined"
  | some v =>
    match v.display with
    | some s => .ok s
    | none => .error { message := some "Cannot convert object to primitive value" }

def object : Option Json → Except ActionError Fields
  | some (.obj fields) => .ok fields
  | _ => .error (appError "Steam returned an invalid response." 502)

def id : Option Json → Except ActionError String
  | some (.str s) => if isId s then .ok s else .error invalidIdentifier
  | _ => .error invalidIdentifier

def instanceId (value : Option Json) : Except ActionError String := do
  let result ← stringOf (orElse value (some (.str "0")))
  if isInstanceId result then return result
  else throw (appError "Steam returned an invalid item instance identifier." 502)

def text (value : Option Json) (fallback : String) : String :=
  match value with
  | some (.str s) => slice500 s
  | _ => fallback

def success : Option Json → Bool
  | some (.bool true) | some (.num (.integer 1)) | some (.str "1") => true
  | _ => false

/-- `/^\d+$/`. -/
def isDigits (s : String) : Bool := s.toList != [] && s.toList.all Char.isDigit

def decimal (s : String) : ℕ := Nat.ofDigitChars 10 s.toList 0

def invalidInteger : ActionError := appError "Steam returned an invalid integer amount." 502

/-- A number whose digits exceed the safe integers is rounded, but stays above every `max`. -/
def integer (value : Option Json) (max : ℕ) : Except ActionError ℕ := do
  let digits ← stringOf value
  if isDigits digits && decide (decimal digits ≤ max) then return decimal digits
  else throw invalidInteger

/-- The bound of `integer` where the caller gives none. -/
def maxAmount : ℕ := 1000000000

theorem integer_le {value : Option Json} {max n : ℕ} (h : integer value max = .ok n) : n ≤ max := by
  unfold integer at h
  cases hs : stringOf value with
  | error e => rw [hs] at h; cases h
  | ok digits =>
    rw [hs] at h
    change (if _ then _ else _) = _ at h
    split_ifs at h with hgood
    obtain rfl := Except.ok.inj h
    simp only [Bool.and_eq_true, decide_eq_true_eq] at hgood
    exact hgood.2

theorem isId_of_id {value : Option Json} {s : String} (h : id value = .ok s) : isId s = true := by
  unfold id at h
  split at h
  next =>
    split_ifs at h with hid
    obtain rfl := Except.ok.inj h
    exact hid
  next => cases h

theorem isInstanceId_of_instanceId {value : Option Json} {s : String}
    (h : instanceId value = .ok s) : isInstanceId s = true := by
  unfold instanceId at h
  cases hs : stringOf (orElse value (some (.str "0"))) with
  | error e => rw [hs] at h; cases h
  | ok result =>
    rw [hs] at h
    change (if _ then _ else _) = _ at h
    split_ifs at h with hid
    obtain rfl := Except.ok.inj h
    exact hid

/-- A response: its status, and the text that its body decodes to, with the number of bytes. -/
structure Response where
  status : ℕ
  body : Option (ℕ × List Char)

def Response.ok (response : Response) : Bool := 200 ≤ response.status && response.status < 300

def responseText (response : Response) : Except ActionError (List Char) :=
  if !response.ok then
    .error (if response.status = 429 then
      appError "Steam is rate limiting requests. Try again later." 429
    else appError "Steam Community is unavailable or the session has expired." 502)
  else
    match response.body with
    | none => .error (appError "Steam returned an empty response." 502)
    | some (bytes, text) =>
      if 8 * 1024 * 1024 < bytes then
        .error (appError "Steam response exceeded the supported size." 502)
      else .ok text

/-- `object(JSON.parse(body))`, or nothing. -/
def parseObject (body : List Char) : Option Fields :=
  match Json.parse body with
  | some (.obj fields) => some fields
  | _ => none

def responseJson (response : Response) : Except ActionError Fields := do
  let body ← responseText response
  match parseObject body with
  | some fields => return fields
  | none =>
    throw (appError "Steam returned invalid data or the Community session has expired." 502)

end SteamBee.Inventory.SteamData
