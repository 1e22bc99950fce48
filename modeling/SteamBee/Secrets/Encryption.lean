import SteamBee.Backup.RoundTrip

/-! Secrets as the database holds them: sealed by an authenticated cipher under the key of the
instance, in canonical base64. -/
namespace SteamBee.Secrets
open Text Outcome
open Backup (Buffer Platform testBase64_encode testBase64_of_not_takes toBytes toText_toBytes)

structure EncryptedValue where
  ciphertext : String
  iv : String
  authTag : String
  keyVersion : ℤ
  deriving DecidableEq, Repr

/-- What is thrown: an `Error` of this module, or an error of the runtime. -/
inductive SecretError where
  | message (text : String)
  | runtime
  deriving DecidableEq, Repr

def ivLength : ℕ := 12

def authTagLength : ℕ := 16

def currentKeyVersion : ℤ := 1

/-- `buffer.toString("base64")`. -/
def base64 (buffer : Buffer) : String := String.ofList (Base64.encode buffer)

section
variable {Key : Type} (p : Platform Key) (key : Key)

def decodeBase64Field (encoded field : String) : Except SecretError Buffer :=
  let decoded := Base64.decode encoded.toList
  match p.testBase64 encoded.toList with
  | none => .error .runtime
  | some shape =>
    if ¬ shape then
      .error (.message s!"Invalid encrypted payload: {field} must be canonical base64.")
    else if Base64.encode decoded ≠ encoded.toList then
      .error (.message s!"Invalid encrypted payload: {field} must be canonical base64.")
    else .ok decoded

/-- The ciphertext, the nonce and the tag of a value. -/
def validateEncryptedValue (value : EncryptedValue) :
    Except SecretError (Buffer × Buffer × Buffer) :=
  let version := value.keyVersion
  if version ≠ currentKeyVersion then
    .error (.message s!"Unsupported encrypted payload key version: {version}.")
  else do
    let ciphertext ← decodeBase64Field p value.ciphertext "ciphertext"
    let iv ← decodeBase64Field p value.iv "iv"
    let authTag ← decodeBase64Field p value.authTag "authTag"
    if iv.length ≠ ivLength then
      .error (.message s!"Invalid encrypted payload: iv must decode to exactly {ivLength} bytes.")
    else if authTag.length ≠ authTagLength then
      .error (.message
        s!"Invalid encrypted payload: authTag must decode to exactly {authTagLength} bytes.")
    else .ok (ciphertext, iv, authTag)

def encryptSecret (plainText : String) (iv : Buffer) : EncryptedValue :=
  let sealed := p.encipher key iv [] (toBytes plainText.toList)
  ⟨base64 sealed.1, base64 iv, base64 sealed.2, currentKeyVersion⟩

def decryptSecret (value : EncryptedValue) : Except SecretError String := do
  let (ciphertext, iv, authTag) ← validateEncryptedValue p value
  (p.decipher key iv [] (ciphertext, authTag)).elim (.error .runtime) fun text =>
    .ok (String.ofList (p.toText text))

end

/-! ## Round trip -/

section
variable {Key : Type} {p : Platform Key} {key : Key}

theorem base64_injective {data data' : Buffer} (h : base64 data = base64 data') : data = data' := by
  have htext := String.ofList_injective h
  rw [← Base64.decode_encode data, htext, Base64.decode_encode]

theorem decodeBase64Field_eq_ok_iff {encoded field : String} {buffer : Buffer} :
    decodeBase64Field p encoded field = .ok buffer ↔
      encoded = base64 buffer ∧ p.Takes buffer.length := by
  constructor
  · intro h
    have htext : encoded = base64 buffer := by
      unfold decodeBase64Field at h
      split at h
      · cases h
      · dsimp only at h
        split_ifs at h with hshape hcanonical
        obtain rfl := Except.ok.inj h
        rw [base64, not_not.mp hcanonical, String.ofList_toList]
    subst htext
    refine ⟨rfl, ?_⟩
    by_contra hlong
    simp [decodeBase64Field, base64, testBase64_of_not_takes hlong] at h
  · rintro ⟨rfl, htakes⟩
    simp [decodeBase64Field, base64, testBase64_encode htakes, Base64.decode_encode]

/-- A value is valid when it is the canonical text of its parts, which have their lengths and are
not too long. -/
theorem validateEncryptedValue_eq_ok_iff {value : EncryptedValue}
    {ciphertext iv authTag : Buffer} :
    validateEncryptedValue p value = .ok (ciphertext, iv, authTag) ↔
      value = ⟨base64 ciphertext, base64 iv, base64 authTag, currentKeyVersion⟩ ∧
        iv.length = ivLength ∧ authTag.length = authTagLength ∧
          p.Takes (max authTagLength ciphertext.length) := by
  rw [Platform.takes_max]
  constructor
  · intro h
    obtain ⟨hversion, h⟩ := of_guard h
    obtain ⟨ciphertext', hciphertext, h⟩ := bind_eq_ok h
    obtain ⟨iv', hiv, h⟩ := bind_eq_ok h
    obtain ⟨authTag', hauthTag, h⟩ := bind_eq_ok h
    obtain ⟨hivLength, h⟩ := of_guard h
    obtain ⟨htagLength, h⟩ := of_guard h
    obtain ⟨rfl, rfl, rfl⟩ : ciphertext' = ciphertext ∧ iv' = iv ∧ authTag' = authTag := by
      simpa using Except.ok.inj h
    obtain ⟨hciphertext, htakes⟩ := decodeBase64Field_eq_ok_iff.mp hciphertext
    obtain ⟨hiv, -⟩ := decodeBase64Field_eq_ok_iff.mp hiv
    obtain ⟨hauthTag, htakesTag⟩ := decodeBase64Field_eq_ok_iff.mp hauthTag
    rw [not_not.mp htagLength] at htakesTag
    refine ⟨?_, not_not.mp hivLength, not_not.mp htagLength, htakesTag, htakes⟩
    rw [← hciphertext, ← hiv, ← hauthTag, ← not_not.mp hversion]
  · rintro ⟨rfl, hiv, hauthTag, htakesTag, htakes⟩
    have htakesIv : p.Takes iv.length := by
      rw [hiv]
      exact htakesTag.mono (by decide)
    rw [← hauthTag] at htakesTag
    unfold validateEncryptedValue
    dsimp only
    rw [if_neg (not_not.mpr rfl), decodeBase64Field_eq_ok_iff.mpr ⟨rfl, htakes⟩,
      decodeBase64Field_eq_ok_iff.mpr ⟨rfl, htakesIv⟩,
      decodeBase64Field_eq_ok_iff.mpr ⟨rfl, htakesTag⟩]
    show (if iv.length ≠ ivLength then _ else _) = _
    rw [if_neg (not_not.mpr hiv), if_neg (not_not.mpr hauthTag)]

/-- A secret is read back if and only if its text, as that of a tag, is not too long. -/
theorem decryptSecret_encryptSecret (hp : p.Authentic) {iv : Buffer} (hiv : iv.length = ivLength)
    (plainText : String) :
    decryptSecret p key (encryptSecret p key plainText iv) = .ok plainText ↔
      p.Takes (max authTagLength (toBytes plainText.toList).length) := by
  have hlength := hp.textLength key iv [] (toBytes plainText.toList)
  have htag := hp.tagLength key iv [] (toBytes plainText.toList)
  constructor
  · intro h
    obtain ⟨⟨ciphertext, iv', authTag⟩, hvalid, -⟩ := bind_eq_ok h
    obtain ⟨hvalue, -, -, htakes⟩ := validateEncryptedValue_eq_ok_iff.mp hvalid
    obtain ⟨hciphertext, -⟩ := EncryptedValue.mk.inj hvalue
    rwa [← base64_injective hciphertext, hlength] at htakes
  · intro htakes
    have hvalid : validateEncryptedValue p (encryptSecret p key plainText iv) = .ok
        ((p.encipher key iv [] (toBytes plainText.toList)).1, iv,
          (p.encipher key iv [] (toBytes plainText.toList)).2) :=
      validateEncryptedValue_eq_ok_iff.mpr ⟨rfl, hiv, htag, by rwa [hlength]⟩
    unfold decryptSecret
    rw [hvalid]
    have hopens := hp.opens key iv [] (toBytes plainText.toList)
    simp only [bind, Except.bind, Prod.mk.eta, hopens, Option.elim, toText_toBytes,
      String.ofList_toList]

/-- What is decrypted has been encrypted under the same key. -/
theorem sealed_of_decryptSecret (hp : p.Authentic) {value : EncryptedValue} {plainText : String}
    (h : decryptSecret p key value = .ok plainText) :
    ∃ iv text, iv.length = ivLength ∧ plainText = String.ofList (p.toText text) ∧
      value = ⟨base64 (p.encipher key iv [] text).1, base64 iv,
        base64 (p.encipher key iv [] text).2, currentKeyVersion⟩ := by
  obtain ⟨⟨ciphertext, iv, authTag⟩, hvalid, hopens⟩ := bind_eq_ok h
  obtain ⟨rfl, hiv, -⟩ := validateEncryptedValue_eq_ok_iff.mp hvalid
  dsimp only at hopens
  cases hopened : p.decipher key iv [] (ciphertext, authTag) with
  | none =>
    rw [hopened] at hopens
    cases hopens
  | some text =>
    rw [hopened] at hopens
    have hsealed := hp.rejects key iv [] (ciphertext, authTag) text hopened
    obtain rfl := Except.ok.inj hopens
    refine ⟨iv, text, hiv, rfl, ?_⟩
    rw [← hsealed]

end

end SteamBee.Secrets
