import SteamBee.Data.Table
import SteamBee.Secrets.Encryption
import SteamBee.Text.Decimal
import SteamBee.Transition.Machine

/-! The key of an instance over its starts and crashes: no start replaces the key of a database, so
what has been stored under it stays readable. -/
namespace SteamBee.Secrets
open Text
open Backup (Buffer Platform toBytes)

def secretLength : ℕ := 32

/-- `text.replace(/=+$/, "")`. -/
def unpadded (text : List Char) : List Char := text.rdropWhile (· == '=')

/-- The key that a content of `instance.secret` gives; `fromBase64` is the lenient decoder. -/
def readInstanceSecret (fromBase64 : List Char → Buffer) (content : List Char) : Option Buffer :=
  let encoded := trim content
  let decoded := fromBase64 encoded
  if decoded.length ≠ secretLength ∨ unpadded (Base64.encode decoded) ≠ unpadded encoded then none
  else some decoded

/-- A value in the database, what it was encrypted from, and the key and the nonce that were
used. -/
structure StoredSecret where
  value : EncryptedValue
  plainText : String
  secret : Buffer
  iv : Buffer
  deriving DecidableEq, Repr

inductive KeyProcess where
  | stopped
  | writing (secret : Buffer)
  | loaded (secret : Buffer)
  deriving DecidableEq, Repr

/-- The files of an instance; `secrets` are the keys that were generated or put there. -/
structure KeyHost where
  secretFile : Option (List Char)
  database : Option (Table ℕ StoredSecret)
  process : KeyProcess
  secrets : List Buffer

namespace KeyHost

/-- `getInstanceSecret` at a start; `generated` are the random bytes. A start that throws leaves the
server stopped. -/
def start (s : KeyHost) (fromBase64 : List Char → Buffer) (generated : Buffer) : KeyHost :=
  match s.secretFile with
  | some content =>
    match readInstanceSecret fromBase64 content with
    | some secret => { s with process := .loaded secret }
    | none => s
  | none =>
    if s.database.isSome then s
    else { s with
      secretFile := some []
      process := .writing generated
      secrets := generated :: s.secrets }

def write (s : KeyHost) (count : ℕ) : Option KeyHost :=
  match s.process with
  | .writing secret => some { s with secretFile := some ((Base64.encode secret).take count) }
  | _ => none

def written (s : KeyHost) : Option KeyHost :=
  match s.process with
  | .writing secret => some { s with
      secretFile := some (Base64.encode secret)
      process := .loaded secret }
  | _ => none

def openDatabase (s : KeyHost) : Option KeyHost :=
  match s.process with
  | .loaded _ => some { s with database := some (s.database.getD ∅) }
  | _ => none

/-- A secret is stored; the key of the cipher is a digest of the key of the instance. -/
def store {Key : Type} (s : KeyHost) (p : Platform Key) (digest : Buffer → Key) (id : ℕ)
    (plainText : String) (iv : Buffer) : Option KeyHost :=
  match s.process, s.database with
  | .loaded secret, some rows =>
    if iv.length = ivLength then
      let value := encryptSecret p (digest secret) plainText iv
      some { s with database := some (rows.insert id ⟨value, plainText, secret, iv⟩) }
    else none
  | _, _ => none

def replaceSecretFile (s : KeyHost) (fromBase64 : List Char → Buffer)
    (content : Option (List Char)) : Option KeyHost :=
  if s.process = .stopped then
    some { s with
      secretFile := content
      secrets := (content.bind (readInstanceSecret fromBase64)).toList ++ s.secrets }
  else none

end KeyHost

inductive KeyAction where
  | start (generated : Buffer)
  | write (count : ℕ)
  | written
  | openDatabase
  | store (id : ℕ) (plainText : String) (iv : Buffer)
  | erase (id : ℕ)
  | crash
  | replaceSecretFile (content : Option (List Char))
  | removeDatabase
  deriving DecidableEq, Repr

section
variable {Key : Type} (p : Platform Key) (digest : Buffer → Key)
  (fromBase64 : List Char → Buffer)

def keyMachine : Transition.Machine KeyHost KeyAction where
  Starts s := s = ⟨none, none, .stopped, []⟩
  next s
    | .start generated =>
      if s.process = .stopped ∧ generated.length = secretLength then
        some (s.start fromBase64 generated)
      else none
    | .write count => s.write count
    | .written => s.written
    | .openDatabase => s.openDatabase
    | .store id plainText iv => s.store p digest id plainText iv
    | .erase id => some { s with database := s.database.map fun rows => rows.erase id }
    | .crash => some { s with process := .stopped }
    | .replaceSecretFile content => s.replaceSecretFile fromBase64 content
    | .removeDatabase => if s.process = .stopped then some { s with database := none } else none

/-- A key that is put beside a database is the key of what is in it. -/
def Restores (s : KeyHost) : KeyAction → Prop
  | .replaceSecretFile content => ∀ text secret rows id row, content = some text →
      readInstanceSecret fromBase64 text = some secret → s.database = some rows →
      rows.lookup id = some row → row.secret = secret
  | _ => True

end

/-! ## Keys that are cut off -/

theorem isSpace_of_isSymbol {c : Char} (h : Base64.isSymbol c = true) : isSpace c = false := by
  have hrange : 43 ≤ c.toNat ∧ c.toNat ≤ 122 := by
    unfold Base64.isSymbol Base64.sextet at h
    split_ifs at h with hupper hlower hdigit hplus hslash
    · omega
    · omega
    · omega
    · rw [hplus]
      decide
    · rw [hslash]
      decide
    · cases h
  unfold isSpace
  simp only [Bool.or_eq_false_iff, Bool.and_eq_false_iff, decide_eq_false_iff_not,
    beq_eq_false_iff_ne]
  omega

/-- Two bytes are left behind the groups of three, so one padding is enough. -/
theorem exists_body (bytes : Buffer) (h : bytes.length % 3 = 2) :
    ∃ body, Base64.encode bytes = body ++ ['='] ∧ (∀ c ∈ body, Base64.isSymbol c = true) ∧
      body.length = bytes.length / 3 * 4 + 3 := by
  induction bytes using Base64.encode.induct with
  | case1 => cases h
  | case2 x => cases h
  | case3 x y =>
    have hx : x.toNat < 256 := x.toNat_lt
    have hy : y.toNat < 256 := y.toNat_lt
    refine ⟨[Base64.symbol (x.toNat / 4), Base64.symbol (x.toNat % 4 * 16 + y.toNat / 16),
      Base64.symbol (y.toNat % 16 * 4)], rfl, ?_, by simp⟩
    simp only [List.forall_mem_cons]
    refine ⟨Base64.isSymbol_symbol (by omega), Base64.isSymbol_symbol (by omega),
      Base64.isSymbol_symbol (by omega), fun _ h => absurd h List.not_mem_nil⟩
  | case4 x y z rest ih =>
    have hx : x.toNat < 256 := x.toNat_lt
    have hy : y.toNat < 256 := y.toNat_lt
    have hz : z.toNat < 256 := z.toNat_lt
    obtain ⟨body, hbody, hsymbols, hlength⟩ := ih (by
      simp only [List.length_cons] at h
      omega)
    refine ⟨Base64.symbol (x.toNat / 4) :: Base64.symbol (x.toNat % 4 * 16 + y.toNat / 16) ::
      Base64.symbol (y.toNat % 16 * 4 + z.toNat / 64) :: Base64.symbol (z.toNat % 64) :: body,
      ?_, ?_, ?_⟩
    · rw [Base64.encode, hbody]
      rfl
    · simp only [List.forall_mem_cons]
      exact ⟨Base64.isSymbol_symbol (by omega), Base64.isSymbol_symbol (by omega),
        Base64.isSymbol_symbol (by omega), Base64.isSymbol_symbol (by omega), hsymbols⟩
    · simp only [List.length_cons, hlength]
      omega

theorem trim_eq_self {text : List Char} (h : ∀ c ∈ text, isSpace c = false) :
    trim text = text := by
  have htrim : trim ([] ++ text ++ []) = text :=
    trim_append (fun _ h => (nomatch h)) h fun _ h => (nomatch h)
  simpa using htrim

theorem unpadded_append {body : List Char} (h : ∀ c ∈ body, Base64.isSymbol c = true) (n : ℕ) :
    unpadded (body ++ List.replicate n '=') = body := by
  unfold unpadded
  induction n with
  | zero =>
    rw [List.replicate_zero, List.append_nil, List.rdropWhile_eq_self_iff]
    intro hne heq
    have hsymbol := h _ (List.getLast_mem hne)
    rw [beq_iff_eq.mp heq] at hsymbol
    exact absurd hsymbol (by decide)
  | succ n ih =>
    rw [List.replicate_succ', ← List.append_assoc, List.rdropWhile_concat_pos _ _ _ rfl]
    exact ih

/-- A key that was cut off while it was written is read as itself or not at all. -/
theorem readInstanceSecret_take {fromBase64 : List Char → Buffer} {secret read : Buffer}
    {count : ℕ} (hlength : secret.length = secretLength)
    (h : readInstanceSecret fromBase64 ((Base64.encode secret).take count) = some read) :
    read = secret := by
  obtain ⟨body, hbody, hsymbols, hbodyLength⟩ := exists_body secret (by rw [hlength]; rfl)
  have htake : (Base64.encode secret).take count =
      body.take count ++ List.replicate (min (count - body.length) 1) '=' := by
    rw [hbody, List.take_append, show ['='] = List.replicate 1 '=' from rfl, List.take_replicate]
  have htaken : ∀ c ∈ body.take count, Base64.isSymbol c = true :=
    fun c hc => hsymbols c (List.mem_of_mem_take hc)
  have hspace : ∀ c ∈ (Base64.encode secret).take count, isSpace c = false := by
    intro c hc
    rw [htake] at hc
    rcases List.mem_append.mp hc with hc | hc
    · exact isSpace_of_isSymbol (htaken c hc)
    · rw [List.eq_of_mem_replicate hc]
      decide
  unfold readInstanceSecret at h
  dsimp only at h
  rw [trim_eq_self hspace] at h
  split_ifs at h with hinvalid
  obtain rfl := Option.some.inj h
  obtain ⟨hread, hcanonical⟩ := not_or.mp hinvalid
  have hread := not_not.mp hread
  obtain ⟨body', hbody', hsymbols', hbodyLength'⟩ := exists_body _ (by rw [hread]; rfl)
  have hpadded : Base64.encode (fromBase64 ((Base64.encode secret).take count)) =
      body' ++ List.replicate 1 '=' := hbody'
  have hsame : body' = body.take count := by
    rw [← unpadded_append hsymbols' 1, ← hpadded, not_not.mp hcanonical, htake,
      unpadded_append htaken]
  have hall : body.take count = body := by
    refine List.take_of_length_le ?_
    have htakeLength := congrArg List.length hsame
    rw [List.length_take, hbodyLength', hbodyLength, hread, hlength] at htakeLength
    rw [hbodyLength, hlength]
    omega
  have hencode := congrArg Base64.decode (hbody'.trans (by rw [hsame, hall, ← hbody]))
  rwa [Base64.decode_encode, Base64.decode_encode] at hencode

theorem length_of_readInstanceSecret {fromBase64 : List Char → Buffer} {content : List Char}
    {secret : Buffer} (h : readInstanceSecret fromBase64 content = some secret) :
    secret.length = secretLength := by
  unfold readInstanceSecret at h
  dsimp only at h
  split_ifs at h with hinvalid
  obtain rfl := Option.some.inj h
  exact not_not.mp (not_or.mp hinvalid).1

/-! ## What holds in every run -/

section
variable {Key : Type} {p : Platform Key} {digest : Buffer → Key}
  {fromBase64 : List Char → Buffer}

def StoredSecret.Lawful (p : Platform Key) (digest : Buffer → Key) (row : StoredSecret) : Prop :=
  row.value = encryptSecret p (digest row.secret) row.plainText row.iv ∧ row.iv.length = ivLength

/-- All that the database holds is encrypted under one key, which is the only one that can be
read. -/
structure KeyHost.Lawful (p : Platform Key) (digest : Buffer → Key)
    (fromBase64 : List Char → Buffer) (s : KeyHost) : Prop where
  rows : ∀ rows id row, s.database = some rows → rows.lookup id = some row →
    row.Lawful p digest
  loaded : ∀ secret rows id row, s.process = .loaded secret → s.database = some rows →
    rows.lookup id = some row → row.secret = secret
  file : ∀ content secret rows id row, s.secretFile = some content →
    readInstanceSecret fromBase64 content = some secret → s.database = some rows →
    rows.lookup id = some row → row.secret = secret
  same : ∀ content secret secret', s.secretFile = some content →
    readInstanceSecret fromBase64 content = some secret → s.process = .loaded secret' →
    secret = secret'
  writing : ∀ secret, s.process = .writing secret → s.database = none ∧
    secret.length = secretLength ∧ secret ∈ s.secrets ∧
    ∃ count, s.secretFile = some ((Base64.encode secret).take count)
  known : ∀ secret, s.process = .loaded secret → secret ∈ s.secrets ∧ secret.length = secretLength
  readable : ∀ content secret, s.secretFile = some content →
    readInstanceSecret fromBase64 content = some secret → secret ∈ s.secrets

namespace KeyHost
variable {s t : KeyHost}

theorem Lawful.stop (h : s.Lawful p digest fromBase64) :
    ({ s with process := .stopped } : KeyHost).Lawful p digest fromBase64 :=
  { h with
    loaded := fun _ _ _ _ hprocess => nomatch hprocess
    same := fun _ _ _ _ _ hprocess => nomatch hprocess
    writing := fun _ hprocess => nomatch hprocess
    known := fun _ hprocess => nomatch hprocess }

/-- The rows of a database that become fewer. -/
theorem Lawful.withDatabase (h : s.Lawful p digest fromBase64)
    {database : Option (Table ℕ StoredSecret)}
    (hrows : ∀ rows id row, database = some rows → rows.lookup id = some row →
      ∃ rows', s.database = some rows' ∧ rows'.lookup id = some row)
    (hwriting : ∀ secret, s.process = .writing secret → database = none) :
    ({ s with database } : KeyHost).Lawful p digest fromBase64 where
  rows rows id row hdatabase hrow := by
    obtain ⟨rows', hdatabase', hrow'⟩ := hrows rows id row hdatabase hrow
    exact h.rows rows' id row hdatabase' hrow'
  loaded secret rows id row hprocess hdatabase hrow := by
    obtain ⟨rows', hdatabase', hrow'⟩ := hrows rows id row hdatabase hrow
    exact h.loaded secret rows' id row hprocess hdatabase' hrow'
  file content secret rows id row hfile hread hdatabase hrow := by
    obtain ⟨rows', hdatabase', hrow'⟩ := hrows rows id row hdatabase hrow
    exact h.file content secret rows' id row hfile hread hdatabase' hrow'
  same := h.same
  writing secret hprocess := ⟨hwriting secret hprocess, (h.writing secret hprocess).2⟩
  known := h.known
  readable := h.readable

/-- A start loads the key that it reads; it generates one only where there is no database. -/
theorem start_cases (s : KeyHost) (fromBase64 : List Char → Buffer) (generated : Buffer) :
    s.start fromBase64 generated = s ∨
      (∃ content secret, s.secretFile = some content ∧
        readInstanceSecret fromBase64 content = some secret ∧
        s.start fromBase64 generated = { s with process := .loaded secret }) ∨
      s.database = none ∧ s.start fromBase64 generated = { s with
        secretFile := some []
        process := .writing generated
        secrets := generated :: s.secrets } := by
  unfold KeyHost.start
  split
  next content hfile =>
    split
    next secret hread => exact .inr (.inl ⟨content, secret, hfile, hread, rfl⟩)
    next => exact .inl rfl
  next =>
    split_ifs with hdatabase
    · exact .inl rfl
    · exact .inr (.inr ⟨Option.not_isSome_iff_eq_none.mp hdatabase, rfl⟩)

/-- A part of the key of a server that writes it is in the file. -/
theorem Lawful.writes (h : s.Lawful p digest fromBase64) {secret : Buffer}
    (hdatabase : s.database = none) (hlength : secret.length = secretLength) (count : ℕ)
    {process : KeyProcess} (hprocess : process = .writing secret ∨ process = .loaded secret)
    {secrets : List Buffer} (hmem : secret ∈ secrets) :
    ({ s with
      secretFile := some ((Base64.encode secret).take count)
      process
      secrets } : KeyHost).Lawful p digest fromBase64 where
  rows := h.rows
  loaded _ rows _ _ _ hrows := nomatch hdatabase.symm.trans hrows
  file _ _ rows _ _ _ _ hrows := nomatch hdatabase.symm.trans hrows
  same content read secret' hfile hread hloaded := by
    obtain rfl := Option.some.inj hfile
    rw [readInstanceSecret_take hlength hread]
    rcases hprocess with rfl | rfl
    · cases hloaded
    · exact KeyProcess.loaded.inj hloaded
  writing secret' hwriting := by
    rcases hprocess with rfl | rfl
    · obtain rfl := KeyProcess.writing.inj hwriting
      exact ⟨hdatabase, hlength, hmem, count, rfl⟩
    · cases hwriting
  known secret' hloaded := by
    rcases hprocess with rfl | rfl
    · cases hloaded
    · obtain rfl := KeyProcess.loaded.inj hloaded
      exact ⟨hmem, hlength⟩
  readable content read hfile hread := by
    obtain rfl := Option.some.inj hfile
    rw [readInstanceSecret_take hlength hread]
    exact hmem

theorem Lawful.start (h : s.Lawful p digest fromBase64) {generated : Buffer}
    (hlength : generated.length = secretLength) :
    (s.start fromBase64 generated).Lawful p digest fromBase64 := by
  obtain hsame | ⟨content, secret, hfile, hread, hstart⟩ | ⟨hdatabase, hstart⟩ :=
    start_cases s fromBase64 generated
  · rw [hsame]
    exact h
  · rw [hstart]
    refine { h with loaded := ?_, same := ?_, writing := ?_, known := ?_ }
    · rintro _ rows id row ⟨⟩ hdatabase hrow
      exact h.file content secret rows id row hfile hread hdatabase hrow
    · rintro content' secret' _ hfile' hread' ⟨⟩
      obtain rfl := Option.some.inj (hfile.symm.trans hfile')
      exact Option.some.inj (hread'.symm.trans hread)
    · exact fun _ hprocess => nomatch hprocess
    · rintro _ ⟨⟩
      exact ⟨h.readable content secret hfile hread, length_of_readInstanceSecret hread⟩
  · rw [hstart]
    exact h.writes hdatabase hlength 0 (.inl rfl) List.mem_cons_self

theorem Lawful.store (h : s.Lawful p digest fromBase64) {id : ℕ} {plainText : String}
    {iv : Buffer} (hn : s.store p digest id plainText iv = some t) :
    t.Lawful p digest fromBase64 := by
  unfold KeyHost.store at hn
  split at hn
  next secret rows hprocess hdatabase =>
    split_ifs at hn with hiv
    obtain rfl := Option.some.inj hn
    have hrow (rows' : Table ℕ StoredSecret) (id' : ℕ) (row : StoredSecret)
        (hrows' : some (rows.insert id ⟨encryptSecret p (digest secret) plainText iv, plainText,
          secret, iv⟩) = some rows') (hrow : rows'.lookup id' = some row) :
        row = ⟨encryptSecret p (digest secret) plainText iv, plainText, secret, iv⟩ ∨
          rows.lookup id' = some row := by
      obtain rfl := Option.some.inj hrows'
      rw [Table.lookup_insert_eq] at hrow
      split_ifs at hrow
      · exact .inl (Option.some.inj hrow).symm
      · exact .inr hrow
    refine
      { rows := fun rows' id' row hrows' hlookup => ?_
        loaded := fun secret' rows' id' row hprocess' hrows' hlookup => ?_
        file := fun content read rows' id' row hfile hread hrows' hlookup => ?_
        same := h.same
        writing := fun _ hwriting => nomatch hprocess.symm.trans hwriting
        known := h.known
        readable := h.readable }
    · rcases hrow rows' id' row hrows' hlookup with rfl | hold
      · exact ⟨rfl, hiv⟩
      · exact h.rows rows id' row hdatabase hold
    · rcases hrow rows' id' row hrows' hlookup with rfl | hold
      · exact KeyProcess.loaded.inj (hprocess.symm.trans hprocess')
      · exact h.loaded secret' rows id' row hprocess' hdatabase hold
    · rcases hrow rows' id' row hrows' hlookup with rfl | hold
      · exact (h.same content read secret hfile hread hprocess).symm
      · exact h.file content read rows id' row hfile hread hdatabase hold
  next => cases hn

theorem Lawful.replaceSecretFile (h : s.Lawful p digest fromBase64)
    {content : Option (List Char)}
    (hrestores : Restores fromBase64 s (.replaceSecretFile content))
    (hn : s.replaceSecretFile fromBase64 content = some t) : t.Lawful p digest fromBase64 := by
  unfold KeyHost.replaceSecretFile at hn
  split_ifs at hn with hstopped
  obtain rfl := Option.some.inj hn
  refine
    { h with
      file := fun text secret rows id row hfile hread hdatabase hrow =>
        hrestores text secret rows id row hfile hread hdatabase hrow
      same := fun _ _ _ _ _ hprocess => nomatch hstopped.symm.trans hprocess
      writing := fun _ hprocess => nomatch hstopped.symm.trans hprocess
      known := fun _ hprocess => nomatch hstopped.symm.trans hprocess
      readable := fun text secret hfile hread => ?_ }
  refine List.mem_append_left _ (Option.mem_toList.mpr ?_)
  obtain rfl : content = some text := hfile
  exact hread

theorem write_cases {count : ℕ} (hn : s.write count = some t) :
    ∃ secret, s.process = .writing secret ∧
      t = { s with secretFile := some ((Base64.encode secret).take count) } := by
  unfold KeyHost.write at hn
  split at hn
  next secret hprocess => exact ⟨secret, hprocess, (Option.some.inj hn).symm⟩
  next => cases hn

theorem written_cases (hn : s.written = some t) :
    ∃ secret, s.process = .writing secret ∧
      t = { s with secretFile := some (Base64.encode secret), process := .loaded secret } := by
  unfold KeyHost.written at hn
  split at hn
  next secret hprocess => exact ⟨secret, hprocess, (Option.some.inj hn).symm⟩
  next => cases hn

theorem openDatabase_cases (hn : s.openDatabase = some t) :
    ∃ secret, s.process = .loaded secret ∧
      t = { s with database := some (s.database.getD ∅) } := by
  unfold KeyHost.openDatabase at hn
  split at hn
  next secret hprocess => exact ⟨secret, hprocess, (Option.some.inj hn).symm⟩
  next => cases hn

theorem Lawful.step {a : KeyAction} (h : s.Lawful p digest fromBase64)
    (hrestores : Restores fromBase64 s a)
    (hn : (keyMachine p digest fromBase64).next s a = some t) :
    t.Lawful p digest fromBase64 := by
  cases a with
  | start generated =>
    unfold keyMachine at hn
    dsimp only at hn
    split_ifs at hn with hstart
    obtain rfl := Option.some.inj hn
    exact h.start hstart.2
  | write count =>
    obtain ⟨secret, hprocess, rfl⟩ := write_cases hn
    obtain ⟨hdatabase, hlength, hmem, -⟩ := h.writing secret hprocess
    exact h.writes hdatabase hlength count (.inl hprocess) hmem
  | written =>
    obtain ⟨secret, hprocess, rfl⟩ := written_cases hn
    obtain ⟨hdatabase, hlength, hmem, -⟩ := h.writing secret hprocess
    have hall := h.writes hdatabase hlength (Base64.encode secret).length (.inr rfl) hmem
    rwa [List.take_length] at hall
  | openDatabase =>
    obtain ⟨secret, hprocess, rfl⟩ := openDatabase_cases hn
    refine h.withDatabase (fun rows id row hrows hrow => ?_)
      fun _ hwriting => nomatch hprocess.symm.trans hwriting
    obtain rfl := Option.some.inj hrows
    cases hdatabase : s.database with
    | none =>
      rw [hdatabase] at hrow
      cases hrow
    | some rows =>
      rw [hdatabase] at hrow
      exact ⟨rows, rfl, hrow⟩
  | store id plainText iv => exact h.store hn
  | erase id =>
    obtain rfl := Option.some.inj hn
    refine h.withDatabase (fun rows id' row hrows hrow => ?_) fun secret hwriting => ?_
    · obtain ⟨rows', hrows', rfl⟩ := Option.map_eq_some_iff.mp hrows
      rw [Table.lookup_erase_eq] at hrow
      split_ifs at hrow
      exact ⟨rows', hrows', hrow⟩
    · rw [(h.writing secret hwriting).1]
      rfl
  | crash =>
    obtain rfl := Option.some.inj hn
    exact h.stop
  | replaceSecretFile content => exact h.replaceSecretFile hrestores hn
  | removeDatabase =>
    unfold keyMachine at hn
    dsimp only at hn
    split_ifs at hn
    obtain rfl := Option.some.inj hn
    exact h.withDatabase (fun _ _ _ hrows => nomatch hrows) fun _ _ => rfl

end KeyHost

/-- A server that runs has a key that was generated or put there, also when a crash had cut off its
file; it reads back what is stored, unless that is too long for the test of its base64 text, and
what it decrypts was encrypted under its key. -/
structure SecretLaws (p : Platform Key) (digest : Buffer → Key) (s : KeyHost) : Prop where
  known : ∀ secret, s.process = .loaded secret → secret ∈ s.secrets ∧ secret.length = secretLength
  readable : ∀ secret rows id row, s.process = .loaded secret → s.database = some rows →
    rows.lookup id = some row → (decryptSecret p (digest secret) row.value = .ok row.plainText ↔
      p.Takes (max authTagLength (toBytes row.plainText.toList).length))
  sealed : ∀ secret value plainText, s.process = .loaded secret →
    decryptSecret p (digest secret) value = .ok plainText →
      ∃ iv text, iv.length = ivLength ∧ plainText = String.ofList (p.toText text) ∧
        value = ⟨base64 (p.encipher (digest secret) iv [] text).1, base64 iv,
          base64 (p.encipher (digest secret) iv [] text).2, currentKeyVersion⟩

/-- No one who puts a key beside a database puts another one there. -/
theorem secretLaws_of_reachable (p : Platform Key) (digest : Buffer → Key)
    (fromBase64 : List Char → Buffer) (hp : p.Authentic) (s : KeyHost)
    (h : (keyMachine p digest fromBase64).ReachableWhen (Restores fromBase64) s) :
    SecretLaws p digest s := by
  have hs : s.Lawful p digest fromBase64 := by
    refine h.invariant ?_ fun _ _ _ h hrestores hn => h.step hrestores hn
    rintro _ rfl
    exact
      { rows := fun _ _ _ hrows => nomatch hrows
        loaded := fun _ _ _ _ hprocess => nomatch hprocess
        file := fun _ _ _ _ _ hfile => nomatch hfile
        same := fun _ _ _ hfile => nomatch hfile
        writing := fun _ hprocess => nomatch hprocess
        known := fun _ hprocess => nomatch hprocess
        readable := fun _ _ hfile => nomatch hfile }
  refine ⟨hs.known, fun secret rows id row hprocess hdatabase hrow => ?_,
    fun _ _ _ _ hdecrypted => sealed_of_decryptSecret hp hdecrypted⟩
  obtain ⟨hvalue, hiv⟩ := hs.rows rows id row hdatabase hrow
  rw [hvalue, hs.loaded secret rows id row hprocess hdatabase hrow]
  exact decryptSecret_encryptSecret hp hiv row.plainText

end

/-- A crash cuts the key off, its file is removed, and a later crash is survived. -/
def restarted : KeyHost :=
  ((keyMachine Backup.plain (fun _ => ()) Base64.decode).exec ⟨none, none, .stopped, []⟩
    [.start (List.replicate 32 7), .write 10, .crash, .start (List.replicate 32 8),
      .replaceSecretFile none, .start (List.replicate 32 9), .written, .openDatabase,
      .store 0 "token" (List.replicate 12 1), .crash, .start (List.replicate 32 10),
      .store 1 "https://example.org/hook" (List.replicate 12 2), .erase 0]).getD
    ⟨none, none, .stopped, []⟩

theorem secretLaws_restarted : SecretLaws Backup.plain (fun _ => ()) restarted :=
  secretLaws_of_reachable Backup.plain (fun _ => ()) Base64.decode Backup.authentic_plain restarted
    (Transition.Machine.reachableWhen_exec (by simp [Restores]) rfl (by decide +kernel))

end SteamBee.Secrets
