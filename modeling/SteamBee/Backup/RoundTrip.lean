import SteamBee.Backup.Length
import SteamBee.Text.JsonRoundTrip

/-! What is encrypted is decrypted again, unless it is too long for the decoder. -/
namespace SteamBee.Backup
open Text Outcome
variable {Key : Type} {p : Platform Key}

def readBack (entry : BackupEntry) : PayloadEntry := ⟨some (.str entry.path), entry.data⟩

theorem havePaths_manifestEntry (p : Platform Key) (entries : List BackupEntry) :
    HavePaths (entries.map (manifestEntry p)) (entries.map fun entry => entry.path) := by
  induction entries with
  | nil => exact .nil
  | cons entry entries ih => exact .cons rfl ih

/-- The manifest that the encoder writes is valid just when the entries are the two files. -/
theorem validateManifest_manifestOf (p : Platform Key) (migrationId : Option String)
    (createdAt : Number) {entries : List BackupEntry} {items : List Json} :
    validateManifest (some (manifestOf p entries migrationId createdAt)) = .ok items ↔
      isSafeInteger (some (.num createdAt)) = true ∧
      (entries.map fun entry => entry.path).Perm allowedEntryPaths ∧
      items = entries.map (manifestEntry p) := by
  rw [validateManifest_eq_ok_iff]
  constructor
  · rintro ⟨-, ⟨value, hvalue, hsafe⟩, hitems, names, hnames, hperm⟩
    obtain rfl : some (Json.num createdAt) = value := Except.ok.inj hvalue
    obtain rfl : entries.map (manifestEntry p) = items :=
      Json.arr.inj (Option.some.inj (Except.ok.inj hitems))
    have hsame : names = entries.map fun entry => entry.path := by
      clear hperm hitems hvalue
      induction entries generalizing names with
      | nil =>
        cases hnames
        rfl
      | cons entry entries ih =>
        cases hnames with
        | cons hname hrest =>
          rw [List.map_cons, ih _ hrest]
          have hpath := Json.str.inj (Option.some.inj (Except.ok.inj hname))
          exact congrArg (· :: _) hpath.symm
    exact ⟨hsafe, hsame ▸ hperm, rfl⟩
  · rintro ⟨hsafe, hperm, rfl⟩
    exact ⟨rfl, ⟨_, rfl, hsafe⟩, rfl, _, havePaths_manifestEntry p entries, hperm⟩

theorem decodeEntries_payloadOf {entries : List BackupEntry}
    (htakes : ∀ entry ∈ entries, p.Takes entry.data.length) :
    decodeEntries p (entries.map fun entry => .obj [
      ("path", .str entry.path), ("data", base64 entry.data)]) = .ok (entries.map readBack) := by
  induction entries with
  | nil => rfl
  | cons entry entries ih =>
    obtain ⟨hfirst, hrest⟩ := List.forall_mem_cons.mp htakes
    have hdata : decode p (some (base64 entry.data)) s!"entry {entry.path}" none =
        .ok entry.data :=
      decode_eq_ok_iff.mpr ⟨rfl, fun _ h => (nomatch h), hfirst⟩
    have hentry : decodeEntry p (.obj [("path", .str entry.path), ("data", base64 entry.data)]) =
        .ok (readBack entry) := by
      show (decode p (some (base64 entry.data)) s!"entry {entry.path}" none).bind _ = _
      rw [hdata]
      rfl
    rw [List.map_cons, decodeEntries, hentry, ih hrest]
    rfl

/-- The entry of a path is found again. -/
theorem find_readBack {entries : List BackupEntry} {entry : BackupEntry}
    (hnodup : (entries.map fun entry => entry.path).Nodup) (hmem : entry ∈ entries) :
    (entries.map readBack).find? (fun candidate => isString entry.path candidate.path) =
      some (readBack entry) := by
  induction entries with
  | nil => cases hmem
  | cons first entries ih =>
    obtain ⟨hfirst, hnodup⟩ := List.nodup_cons.mp hnodup
    rw [List.map_cons, List.find?_cons]
    rcases List.mem_cons.mp hmem with rfl | hrest
    · have hsame : isString entry.path (readBack entry).path = true := isString_iff.mpr rfl
      rw [hsame]
    · have hother : isString entry.path (readBack first).path = false := by
        by_contra hsame
        have hpath := isString_iff.mp (Bool.not_eq_false _ |>.mp hsame)
        have heq : first.path = entry.path := Json.str.inj (Option.some.inj hpath)
        exact hfirst (List.mem_map.mpr ⟨entry, hrest, heq.symm⟩)
      rw [hother]
      exact ih hnodup hrest

theorem checkEntries_manifestOf {entries all : List BackupEntry}
    (hnodup : (all.map fun entry => entry.path).Nodup) (hsub : entries ⊆ all) :
    checkEntries p (all.map readBack) (entries.map (manifestEntry p)) = .ok () := by
  induction entries with
  | nil => rfl
  | cons entry entries ih =>
    obtain ⟨hentry, hrest⟩ := List.cons_subset.mp hsub
    have hfind := find_readBack hnodup hentry
    have hsize : isNumber ((readBack entry).data.length : ℤ)
        (some (.num (.integer entry.data.length))) = true := isNumber_iff.mpr rfl
    have hhash : isString (p.sha256 (readBack entry).data) (some (.str (p.sha256 entry.data))) =
        true := isString_iff.mpr rfl
    have hpath : property (some (manifestEntry p entry)) "path" = .ok (some (.str entry.path)) :=
      rfl
    have hsizeOf : property (some (manifestEntry p entry)) "size" =
        .ok (some (.num (.integer entry.data.length))) := rfl
    have hhashOf : property (some (manifestEntry p entry)) "sha256" =
        .ok (some (.str (p.sha256 entry.data))) := rfl
    rw [List.map_cons, checkEntries, hpath]
    simp only [bind, Except.bind, hsizeOf, hhashOf, hfind, hsize, hhash, Bool.and_self, if_true]
    exact ih hrest

theorem readPayload_payloadOf {entries : List BackupEntry} {migrationId : Option String}
    {createdAt : Number} (hsafe : isSafeInteger (some (.num createdAt)) = true)
    (hperm : (entries.map fun entry => entry.path).Perm allowedEntryPaths)
    (htakes : ∀ entry ∈ entries, p.Takes entry.data.length) :
    readPayload p (payloadOf (manifestOf p entries migrationId createdAt) entries) =
      .ok (manifestOf p entries migrationId createdAt, entries.map readBack) := by
  have hvalid := (validateManifest_manifestOf p migrationId createdAt).mpr
    ⟨hsafe, hperm, rfl⟩
  have hnodup : (entries.map fun entry => entry.path).Nodup := hperm.nodup_iff.mpr (by decide)
  have hcheck := checkEntries_manifestOf (p := p) hnodup (List.Subset.refl entries)
  have hmanifest : property (some (payloadOf (manifestOf p entries migrationId createdAt) entries))
      "manifest" = .ok (some (manifestOf p entries migrationId createdAt)) := rfl
  have hentries : property (some (payloadOf (manifestOf p entries migrationId createdAt) entries))
      "entries" = .ok (some (.arr (entries.map fun entry => .obj [
        ("path", .str entry.path), ("data", base64 entry.data)]))) := rfl
  simp [readPayload, hmanifest, hentries, hvalid, decodeEntries_payloadOf htakes, hcheck,
    bind, Except.bind]

theorem printable_payloadOf {entries : List BackupEntry} {migrationId : Option String}
    {createdAt : Number} (hsafe : isSafeInteger (some (.num createdAt)) = true)
    (hsizes : ∀ entry ∈ entries, entry.data.length < 2 ^ 53) :
    (payloadOf (manifestOf p entries migrationId createdAt) entries).Printable := by
  have hcreated : (Json.num createdAt).Printable := by
    cases createdAt with
    | integer n =>
      have hn : Number.IsSafe n := of_decide_eq_true hsafe
      exact hn
    | other literal => cases hsafe
  have hmigration : (migrationId.elim .null .str : Json).Printable := by
    cases migrationId <;> trivial
  have hitems : Json.PrintableItems (entries.map (manifestEntry p)) := by
    apply Json.printableItems_of_mem
    intro v hv
    obtain ⟨entry, hentry, rfl⟩ := List.mem_map.mp hv
    exact ⟨trivial, hsizes entry hentry, trivial, trivial⟩
  have hdata : Json.PrintableItems (entries.map fun entry => .obj [
      ("path", .str entry.path), ("data", base64 entry.data)]) := by
    apply Json.printableItems_of_mem
    intro v hv
    obtain ⟨entry, -, rfl⟩ := List.mem_map.mp hv
    exact ⟨trivial, trivial, trivial⟩
  have hone : Number.IsSafe 1 := by decide
  exact ⟨⟨hone, hcreated, hmigration, hitems, trivial⟩, hdata, trivial⟩

/-- What is read of an envelope that was written. -/
theorem decryptBackup_envelope {passphrase : String} {salt iv : Buffer} (sealed : Buffer × Buffer)
    (hpass : validatePassphrase passphrase = .ok ()) :
    decryptBackup p (toBytes (envelopeOf salt iv sealed).stringify) passphrase = (do
      let salt ← decode p (some (base64 salt)) "salt" (some 16)
      let iv ← decode p (some (base64 iv)) "iv" (some 12)
      let authTag ← decode p (some (base64 sealed.2)) "authTag" (some 16)
      let ciphertext ← decode p (some (base64 sealed.1)) "ciphertext" none
      Except.mapError disguise do
        let plaintext ← orThrow .runtime (p.decipher (p.scryptSync passphrase salt) iv
          (toBytes magic.toList) (ciphertext, authTag))
        let payload ← orThrow .runtime (Json.parse (p.toText plaintext))
        readPayload p payload) := by
  have hparse : Json.parse (p.toText (toBytes (envelopeOf salt iv sealed).stringify)) =
      some (envelopeOf salt iv sealed) := by
    rw [toText_toBytes]
    exact Json.parse_stringify ⟨trivial, trivial, trivial, trivial, trivial, trivial⟩
  have hformat : property (some (envelopeOf salt iv sealed)) "format" = .ok (some (.str magic)) :=
    rfl
  have hsaltOf : property (some (envelopeOf salt iv sealed)) "salt" = .ok (some (base64 salt)) :=
    rfl
  have hivOf : property (some (envelopeOf salt iv sealed)) "iv" = .ok (some (base64 iv)) := rfl
  have htagOf : property (some (envelopeOf salt iv sealed)) "authTag" =
      .ok (some (base64 sealed.2)) := rfl
  have hcipherOf : property (some (envelopeOf salt iv sealed)) "ciphertext" =
      .ok (some (base64 sealed.1)) := rfl
  have hmagic : isString magic (some (.str magic)) = true := isString_iff.mpr rfl
  simp only [decryptBackup, hpass, hparse, orThrow, hformat, hsaltOf, hivOf, htagOf, hcipherOf,
    hmagic, bind, Except.bind, not_true, if_false]

/-- An untouched envelope leads to its payload. -/
theorem decryptBackup_envelopeOf (hp : p.Authentic) {passphrase : String} {salt iv : Buffer}
    {plaintext : Buffer} {payload : Json} (hpass : validatePassphrase passphrase = .ok ())
    (hsalt : salt.length = 16) (hiv : iv.length = 12) (hlong : 16 ≤ plaintext.length)
    (htakes : p.Takes plaintext.length)
    (hpayload : Json.parse (p.toText plaintext) = some payload) :
    decryptBackup p (toBytes (envelopeOf salt iv (p.encipher (p.scryptSync passphrase salt) iv
      (toBytes magic.toList) plaintext)).stringify) passphrase =
        (readPayload p payload).mapError disguise := by
  have hopen := hp.opens (p.scryptSync passphrase salt) iv (toBytes magic.toList) plaintext
  have htag := hp.tagLength (p.scryptSync passphrase salt) iv (toBytes magic.toList) plaintext
  have htext := hp.textLength (p.scryptSync passphrase salt) iv (toBytes magic.toList) plaintext
  rw [decryptBackup_envelope _ hpass]
  generalize p.encipher (p.scryptSync passphrase salt) iv (toBytes magic.toList) plaintext =
    sealed at hopen htag htext
  have hdecode (data : Buffer) (field : String) (length : ℕ) (hlength : data.length = length)
      (hshort : length ≤ 16) : decode p (some (base64 data)) field (some length) = .ok data :=
    decode_eq_ok_iff.mpr ⟨rfl, fun n hn => Option.some.inj hn ▸ hlength,
      htakes.mono (by omega)⟩
  have hcipher : decode p (some (base64 sealed.1)) "ciphertext" none = .ok sealed.1 :=
    decode_eq_ok_iff.mpr ⟨rfl, fun _ h => (nomatch h), htext ▸ htakes⟩
  simp only [hdecode salt "salt" 16 hsalt le_rfl, hdecode iv "iv" 12 hiv (by decide),
    hdecode _ "authTag" 16 htag le_rfl, hcipher, hopen, orThrow, hpayload, bind, Except.bind]

/-- A sealed text that is too long is not read. -/
theorem decryptBackup_of_not_takes (hp : p.Authentic) {passphrase : String} {salt iv : Buffer}
    {plaintext : Buffer} (hpass : validatePassphrase passphrase = .ok ())
    (hsalt : salt.length = 16) (hiv : iv.length = 12) (hlong : ¬p.Takes plaintext.length) :
    decryptBackup p (toBytes (envelopeOf salt iv (p.encipher (p.scryptSync passphrase salt) iv
      (toBytes magic.toList) plaintext)).stringify) passphrase = .error .runtime := by
  have htag := hp.tagLength (p.scryptSync passphrase salt) iv (toBytes magic.toList) plaintext
  have htext := hp.textLength (p.scryptSync passphrase salt) iv (toBytes magic.toList) plaintext
  rw [decryptBackup_envelope _ hpass]
  generalize p.encipher (p.scryptSync passphrase salt) iv (toBytes magic.toList) plaintext =
    sealed at htag htext
  have hcipher : decode p (some (base64 sealed.1)) "ciphertext" none = .error .runtime :=
    decode_of_not_takes (htext ▸ hlong) _ _
  -- the other fields are read, or the stack has no room for them either
  have hdecode (data : Buffer) (field : String) (length : ℕ) (hlength : data.length = length) :
      decode p (some (base64 data)) field (some length) = .ok data ∨
        decode p (some (base64 data)) field (some length) = .error .runtime := by
    by_cases hshort : p.Takes data.length
    · exact .inl (decode_eq_ok_iff.mpr ⟨rfl, fun n hn => Option.some.inj hn ▸ hlength, hshort⟩)
    · exact .inr (decode_of_not_takes hshort _ _)
  rcases hdecode salt "salt" 16 hsalt with hsalt | hsalt
  · rcases hdecode iv "iv" 12 hiv with hiv | hiv
    · rcases hdecode sealed.2 "authTag" 16 htag with htag | htag
      · simp only [hsalt, hiv, htag, hcipher, bind, Except.bind]
      · simp only [hsalt, hiv, htag, bind, Except.bind]
    · simp only [hsalt, hiv, bind, Except.bind]
  · simp only [hsalt, bind, Except.bind]

/-- What `encryptBackup` gives for valid inputs. -/
theorem encryptBackup_eq_ok_iff {entries : List BackupEntry} {passphrase : String}
    {migrationId : Option String} {createdAt : Number} {salt iv buffer : Buffer} :
    encryptBackup p entries passphrase migrationId createdAt salt iv = .ok buffer ↔
      validatePassphrase passphrase = .ok () ∧
      isSafeInteger (some (.num createdAt)) = true ∧
      (entries.map fun entry => entry.path).Perm allowedEntryPaths ∧
      buffer = toBytes (envelopeOf salt iv (p.encipher (p.scryptSync passphrase salt) iv
        (toBytes magic.toList) (plaintextOf p entries migrationId createdAt))).stringify := by
  constructor
  · intro h
    obtain ⟨_, hpass, h⟩ := bind_eq_ok h
    obtain ⟨items, hvalid, h⟩ := bind_eq_ok h
    obtain ⟨hsafe, hperm, -⟩ := (validateManifest_manifestOf p migrationId createdAt).mp hvalid
    exact ⟨hpass, hsafe, hperm, (Except.ok.inj h).symm⟩
  · rintro ⟨hpass, hsafe, hperm, rfl⟩
    have hvalid := (validateManifest_manifestOf p migrationId createdAt).mpr ⟨hsafe, hperm, rfl⟩
    rw [encryptBackup, hpass]
    simp only [bind, Except.bind, hvalid]
    rfl

/-- A backup is read back as it was written if and only if its text is not too long, and only
well-formed ones are read. -/
theorem backup_round_trip (hp : p.Authentic) :
    (∀ entries passphrase migrationId createdAt salt iv,
      (entries.map fun entry => entry.path).Perm ["steam-bee.sqlite", "instance.secret"] →
      (∀ entry ∈ entries, entry.data.length < 2 ^ 53) →
      12 ≤ codeUnits passphrase → codeUnits passphrase ≤ 256 → Number.IsSafe createdAt →
      salt.length = 16 → iv.length = 12 →
      ((∃ buffer,
          encryptBackup p entries passphrase migrationId (.integer createdAt) salt iv =
            .ok buffer ∧
          decryptBackup p buffer passphrase =
            .ok (manifestOf p entries migrationId (.integer createdAt), entries.map readBack) ∧
          Describes p (some (manifestOf p entries migrationId (.integer createdAt)))
            (entries.map readBack)) ↔
        p.Takes (sealedLength p entries migrationId (.integer createdAt)))) ∧
    ∀ buffer passphrase manifest entries,
      decryptBackup p buffer passphrase = .ok (manifest, entries) →
      Accepted p buffer passphrase manifest entries := by
  refine ⟨?_, fun _ _ _ _ h => accepted_of_decryptBackup hp h⟩
  intro entries passphrase migrationId createdAt salt iv hperm hsizes hshort hlong hdate hsalt hiv
  have hpass : validatePassphrase passphrase = .ok () := by
    rw [validatePassphrase, if_neg]
    omega
  have hsafe : isSafeInteger (some (.num (.integer createdAt))) = true := decide_eq_true hdate
  rw [← length_plaintextOf hperm]
  constructor
  · rintro ⟨buffer, hbuffer, hread, -⟩
    obtain ⟨-, -, -, rfl⟩ := encryptBackup_eq_ok_iff.mp hbuffer
    by_contra hnot
    rw [decryptBackup_of_not_takes hp hpass hsalt hiv hnot] at hread
    cases hread
  · intro htakes
    have hpayload : Json.parse (p.toText (plaintextOf p entries migrationId
        (.integer createdAt))) =
          some (payloadOf (manifestOf p entries migrationId (.integer createdAt)) entries) := by
      rw [plaintextOf, toText_toBytes]
      exact Json.parse_stringify (printable_payloadOf hsafe hsizes)
    have hsealed := length_plaintextOf (p := p) hperm migrationId (.integer createdAt)
    have hentries : ∀ entry ∈ entries, p.Takes entry.data.length :=
      fun entry hentry => (takes_data (hsealed ▸ htakes) hentry).mono (by omega)
    have hsixteen : 16 ≤ (plaintextOf p entries migrationId (.integer createdAt)).length := by
      rw [hsealed, sealedLength]
      omega
    have hread := decryptBackup_envelopeOf hp hpass hsalt hiv hsixteen htakes hpayload
    rw [readPayload_payloadOf hsafe hperm hentries] at hread
    exact ⟨_, encryptBackup_eq_ok_iff.mpr ⟨hpass, hsafe, hperm, rfl⟩, hread,
      (accepted_of_decryptBackup hp hread).describes⟩

/-- A cipher that changes nothing and has one tag, and the limit of the engine of Node 22. -/
def plain : Platform Unit where
  scryptSync _ _ := ()
  encipher _ _ _ text := (text, List.replicate 16 0)
  decipher _ _ _ sealed := if sealed.2 = List.replicate 16 0 then some sealed.1 else none
  sha256 data := toString data.length
  repair _ := []
  regexpLimit := 4473906

theorem authentic_plain : plain.Authentic where
  textLength _ _ _ _ := rfl
  tagLength _ _ _ _ := rfl
  opens _ _ _ _ := by simp [plain]
  rejects _ _ _ sealed text h := by
    simp only [plain] at h ⊢
    split_ifs at h with htag
    exact Prod.ext (Option.some.inj h) htag

def largeDatabase : BackupEntry := ⟨"steam-bee.sqlite", List.replicate 2600000 0⟩

theorem length_largeDatabase : largeDatabase.data.length = 2600000 := List.length_replicate

theorem large_backup_unreadable : ∃ buffer,
    encryptBackup plain [largeDatabase, ⟨"instance.secret", [1, 2, 3]⟩] "correct horse battery" none
      (.integer 1700000000000) (List.replicate 16 7) (List.replicate 12 9) = .ok buffer ∧
    decryptBackup plain buffer "correct horse battery" = .error .runtime := by
  have hpass : validatePassphrase "correct horse battery" = .ok () := by decide
  refine ⟨_, encryptBackup_eq_ok_iff.mpr ⟨hpass, by decide, .refl _, rfl⟩, ?_⟩
  refine decryptBackup_of_not_takes authentic_plain hpass List.length_replicate
    List.length_replicate fun htakes => ?_
  have hmem : largeDatabase ∈ [largeDatabase, ⟨"instance.secret", [1, 2, 3]⟩] :=
    List.mem_cons_self
  rw [length_plaintextOf (.refl _)] at htakes
  have hdata := takes_data htakes hmem
  rw [length_largeDatabase] at hdata
  exact absurd hdata (by unfold Platform.Takes; decide)

theorem backup_round_trip_plain : ∃ buffer,
    encryptBackup plain [⟨"instance.secret", [1, 2, 3]⟩, ⟨"steam-bee.sqlite", [0]⟩]
      "correct horse battery" none (.integer 1700000000000) (List.replicate 16 7)
      (List.replicate 12 9) = .ok buffer ∧
    decryptBackup plain buffer "correct horse battery" =
      .ok (manifestOf plain [⟨"instance.secret", [1, 2, 3]⟩, ⟨"steam-bee.sqlite", [0]⟩] none
        (.integer 1700000000000), [⟨some (.str "instance.secret"), [1, 2, 3]⟩,
          ⟨some (.str "steam-bee.sqlite"), [0]⟩]) := by
  obtain ⟨buffer, hbuffer, hread, -⟩ := ((backup_round_trip authentic_plain).1
    [⟨"instance.secret", [1, 2, 3]⟩, ⟨"steam-bee.sqlite", [0]⟩] "correct horse battery" none
    1700000000000 (List.replicate 16 7) (List.replicate 12 9) (by decide) (by decide) (by decide)
    (by decide) (by decide) rfl rfl).mpr (by unfold Platform.Takes; decide +kernel)
  exact ⟨buffer, hbuffer, hread⟩

end SteamBee.Backup
