import SteamBee.Text.Base64
import SteamBee.Text.Json

/-! The encrypted backup: a payload of two files with a manifest of their sizes and hashes,
sealed by an authenticated cipher in an envelope of base64 texts. -/
namespace SteamBee.Backup
open Text

abbrev Buffer := List UInt8

/-- What Node provides. `repair` is how an ill-formed UTF-8 text is read, `sha256` gives the
digest in hexadecimal, and `regexpLimit` is how many symbols of base64 the stack of a regular
expression has room for. -/
structure Platform (Key : Type) where
  scryptSync : String → Buffer → Key
  encipher : Key → Buffer → Buffer → Buffer → Buffer × Buffer
  decipher : Key → Buffer → Buffer → Buffer × Buffer → Option Buffer
  sha256 : Buffer → String
  repair : Buffer → List Char
  regexpLimit : ℕ

/-- What is thrown: an `Error` of this module, or an error of the runtime. -/
inductive BackupError where
  | message (text : String)
  | runtime
  deriving DecidableEq, Repr

abbrev Result := Except BackupError

structure BackupEntry where
  path : String
  data : Buffer
  deriving DecidableEq, Repr

/-- An entry of a payload that was read; its path is any value. -/
structure PayloadEntry where
  path : Option Json
  data : Buffer

def magic : String := "STEAMBEE-BACKUP-V1"

def allowedEntryPaths : List String := ["steam-bee.sqlite", "instance.secret"]

/-- `Buffer.from(text, "utf8")`. -/
def toBytes (text : List Char) : Buffer := (String.ofList text).toByteArray.data.toList

/-- `buffer.toString("utf8")`. -/
def Platform.toText {Key : Type} (p : Platform Key) (buffer : Buffer) : List Char :=
  match (ByteArray.mk buffer.toArray).utf8Decode? with
  | some text => text.toList
  | none => p.repair buffer

/-- The test for canonical base64. Its expression remembers every group that it has passed, and
throws when the symbols at the start of the text are too many. -/
def Platform.testBase64 {Key : Type} (p : Platform Key) (text : List Char) : Option Bool :=
  if p.regexpLimit < (text.takeWhile Base64.isSymbol).length then none
  else some (Base64.hasShape text)

/-! ## Values of JavaScript; `none` is `undefined` -/

/-- The property of a value; `undefined` and `null` have none. -/
def property (v : Option Json) (name : String) : Result (Option Json) :=
  match v with
  | none | some .null => .error .runtime
  | some (.obj fields) => .ok (Json.lookup fields name)
  | some _ => .ok none

/-- `v === n`. -/
def isNumber (n : ℤ) : Option Json → Bool
  | some (.num (.integer m)) => m == n
  | _ => false

/-- `v === s`. -/
def isString (s : String) : Option Json → Bool
  | some (.str t) => t == s
  | _ => false

def isSafeInteger : Option Json → Bool
  | some (.num (.integer n)) => decide (Number.IsSafe n)
  | _ => false

mutual

def templateText : Json → Result String
  | .null => .ok "null"
  | .bool true => .ok "true"
  | .bool false => .ok "false"
  | .num n => .ok (String.ofList n.text)
  | .str s => .ok s
  | .arr items => itemsText items
  | .obj fields =>
    if (Json.lookup fields "toString").isSome then .error .runtime else .ok "[object Object]"
termination_by structural v => v

def itemsText : List Json → Result String
  | [] => .ok ""
  | .null :: rest => do
    let text ← itemsText rest
    .ok (if rest.isEmpty then text else "," ++ text)
  | v :: rest => do
    let first ← templateText v
    let text ← itemsText rest
    .ok (if rest.isEmpty then first ++ text else first ++ "," ++ text)
termination_by structural items => items

end

/-! ## Validation -/

def codeUnits (s : String) : ℕ :=
  s.toList.foldl (fun n c => n + if c.toNat < 0x10000 then 1 else 2) 0

def validatePassphrase (passphrase : String) : Result Unit :=
  if codeUnits passphrase < 12 ∨ 256 < codeUnits passphrase then
    .error (.message "Backup passphrase must contain 12 to 256 characters.")
  else .ok ()

/-- The loop of `validateManifest`; it gives the paths of the entries. -/
def validatePaths : List Json → List String → Result (List String)
  | [], paths => .ok paths
  | entry :: rest, paths => do
    match ← property (some entry) "path" with
    | some (.str path) =>
      if path ∈ allowedEntryPaths ∧ path ∉ paths then validatePaths rest (paths ++ [path])
      else .error (.message "Backup contains an unsupported or duplicate path.")
    | _ => .error (.message "Backup contains an unsupported or duplicate path.")

/-- `validateManifest`; it gives the entries of the manifest. -/
def validateManifest (manifest : Option Json) : Result (List Json) := do
  let formatVersion ← property manifest "formatVersion"
  let createdAt ← property manifest "createdAt"
  let entries ← property manifest "entries"
  match isNumber 1 formatVersion && isSafeInteger createdAt, entries with
  | true, some (.arr entries) =>
    let paths ← validatePaths entries []
    if allowedEntryPaths.all fun path => decide (path ∈ paths) then .ok entries
    else .error (.message "Backup is missing required recovery data.")
  | _, _ => .error (.message "Backup manifest is invalid.")

section
variable {Key : Type} (p : Platform Key)

def decode (value : Option Json) (field : String) (exactLength : Option ℕ) : Result Buffer :=
  match value with
  | some (.str text) =>
    let decoded := Base64.decode text.toList
    match p.testBase64 text.toList with
    | none => .error .runtime
    | some shape =>
      if ¬ shape then .error (.message s!"Backup {field} is not canonical base64.")
      else if Base64.encode decoded ≠ text.toList then
        .error (.message s!"Backup {field} is not canonical base64.")
      else if exactLength.any fun length => decoded.length != length then
        .error (.message s!"Backup {field} has an invalid length.")
      else .ok decoded
  | _ => .error (.message s!"Backup {field} is not canonical base64.")

/-! ## Encryption -/

def base64 (buffer : Buffer) : Json := .str (String.ofList (Base64.encode buffer))

def manifestEntry (entry : BackupEntry) : Json := .obj [
  ("path", .str entry.path),
  ("size", .num (.integer entry.data.length)),
  ("sha256", .str (p.sha256 entry.data))]

def manifestOf (entries : List BackupEntry) (migrationId : Option String) (createdAt : Number) :
    Json := .obj [
  ("formatVersion", .num (.integer 1)),
  ("createdAt", .num createdAt),
  ("migrationId", migrationId.elim .null .str),
  ("entries", .arr (entries.map (manifestEntry p)))]

def payloadOf (manifest : Json) (entries : List BackupEntry) : Json := .obj [
  ("manifest", manifest),
  ("entries", .arr (entries.map fun entry => .obj [
    ("path", .str entry.path),
    ("data", base64 entry.data)]))]

def envelopeOf (salt iv : Buffer) (sealed : Buffer × Buffer) : Json := .obj [
  ("format", .str magic),
  ("salt", base64 salt),
  ("iv", base64 iv),
  ("authTag", base64 sealed.2),
  ("ciphertext", base64 sealed.1)]

/-- `encryptBackup` with the random `salt` and `iv` that it draws. -/
def encryptBackup (entries : List BackupEntry) (passphrase : String) (migrationId : Option String)
    (createdAt : Number) (salt iv : Buffer) : Result Buffer := do
  validatePassphrase passphrase
  let manifest := manifestOf p entries migrationId createdAt
  let _ ← validateManifest (some manifest)
  let plaintext := toBytes (payloadOf manifest entries).stringify
  let key := p.scryptSync passphrase salt
  let sealed := p.encipher key iv (toBytes magic.toList) plaintext
  .ok (toBytes (envelopeOf salt iv sealed).stringify)

/-! ## Decryption -/

def orThrow {α : Type} (error : BackupError) : Option α → Result α
  | some a => .ok a
  | none => .error error

def pathText : Option Json → Result String
  | none => .ok "undefined"
  | some v => templateText v

def decodeEntry (entry : Json) : Result PayloadEntry := do
  let path ← property (some entry) "path"
  let text ← pathText path
  let data ← decode p (← property (some entry) "data") s!"entry {text}" none
  .ok ⟨path, data⟩

def decodeEntries : List Json → Result (List PayloadEntry)
  | [] => .ok []
  | entry :: rest => do
    let decoded ← decodeEntry p entry
    let entries ← decodeEntries rest
    .ok (decoded :: entries)

/-- The loop over the entries of the manifest. Their paths are strings by then. -/
def checkEntries (entries : List PayloadEntry) : List Json → Result Unit
  | [] => .ok ()
  | item :: rest => do
    match ← property (some item) "path" with
    | some (.str path) =>
      let size ← property (some item) "size"
      let sha256 ← property (some item) "sha256"
      match entries.find? fun candidate => isString path candidate.path with
      | some entry =>
        if isNumber entry.data.length size && isString (p.sha256 entry.data) sha256 then
          checkEntries entries rest
        else .error (.message s!"Backup checksum failed for {path}.")
      | none => .error (.message s!"Backup checksum failed for {path}.")
    | _ => .error .runtime

def readPayload (payload : Json) : Result (Json × List PayloadEntry) := do
  let manifest ← property (some payload) "manifest"
  let items ← validateManifest manifest
  match ← property (some payload) "entries" with
  | some (.arr entries) =>
    let entries ← decodeEntries p entries
    if entries.length ≠ items.length then
      .error (.message "Backup manifest entry count does not match payload.")
    else
      checkEntries p entries items
      .ok (manifest.getD .null, entries)
  | _ => .error .runtime

/-- The `catch`. -/
def disguise : BackupError → BackupError
  | .message text =>
    if "Backup".toList <+: text.toList then .message text
    else .message "Backup could not be decrypted or was tampered with."
  | .runtime => .message "Backup could not be decrypted or was tampered with."

def decryptBackup (buffer : Buffer) (passphrase : String) : Result (Json × List PayloadEntry) := do
  validatePassphrase passphrase
  let envelope ← orThrow (.message "Backup envelope is not valid JSON.")
    (Json.parse (p.toText buffer))
  if ¬ isString magic (← property (some envelope) "format") then
    .error (.message "Unsupported backup format.")
  else
    let salt ← decode p (← property (some envelope) "salt") "salt" (some 16)
    let iv ← decode p (← property (some envelope) "iv") "iv" (some 12)
    let authTag ← decode p (← property (some envelope) "authTag") "authTag" (some 16)
    let ciphertext ← decode p (← property (some envelope) "ciphertext") "ciphertext" none
    let key := p.scryptSync passphrase salt
    Except.mapError disguise do
      let plaintext ← orThrow .runtime
        (p.decipher key iv (toBytes magic.toList) (ciphertext, authTag))
      let payload ← orThrow .runtime (Json.parse (p.toText plaintext))
      readPayload p payload

end
end SteamBee.Backup
