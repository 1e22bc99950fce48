import Mathlib.Data.List.Nodup
import Mathlib.Data.List.Perm.Subperm
import SteamBee.Backup.Format
import SteamBee.Data.Outcome

/-! What the decoder accepts: canonical texts around two files, each once and as the manifest
describes it. -/
namespace SteamBee.Backup
open Text Outcome
variable {Key : Type} {p : Platform Key}

/-! ## The steps of the decoder -/

theorem orThrow_eq_ok {α : Type} {error : BackupError} {o : Option α} {a : α}
    (h : orThrow error o = .ok a) : o = some a := by
  cases o with
  | none => cases h
  | some b =>
    obtain rfl := Except.ok.inj h
    rfl

theorem toText_toBytes (p : Platform Key) (text : List Char) : p.toText (toBytes text) = text := by
  have hdecode : text.utf8Encode.utf8Decode? = some text.toArray := List.utf8Decode?_utf8Encode
  simp [Platform.toText, toBytes, hdecode]

theorem isNumber_iff {n : ℤ} {v : Option Json} :
    isNumber n v = true ↔ v = some (.num (.integer n)) := by
  unfold isNumber
  split
  · simp
  · next hne =>
    constructor
    · exact fun h => by cases h
    · rintro rfl
      exact absurd rfl (hne n)

theorem isString_iff {s : String} {v : Option Json} : isString s v = true ↔ v = some (.str s) := by
  unfold isString
  split
  · simp
  · next hne =>
    constructor
    · exact fun h => by cases h
    · rintro rfl
      exact absurd rfl (hne s)

/-- The base64 text of so many bytes is short enough to be tested. -/
def Platform.Takes (p : Platform Key) (size : ℕ) : Prop := (4 * size + 2) / 3 ≤ p.regexpLimit

theorem Platform.Takes.mono {size size' : ℕ} (h : p.Takes size) (hle : size' ≤ size) :
    p.Takes size' := by
  unfold Platform.Takes at h ⊢
  omega

theorem Platform.takes_max {size size' : ℕ} :
    p.Takes (max size size') ↔ p.Takes size ∧ p.Takes size' := by
  unfold Platform.Takes
  omega

theorem testBase64_encode {data : Buffer} (h : p.Takes data.length) :
    p.testBase64 (Base64.encode data) = some true := by
  rw [Platform.testBase64, Base64.length_symbols_encode, if_neg (Nat.not_lt.mpr h),
    Base64.hasShape_encode]

theorem testBase64_of_not_takes {data : Buffer} (h : ¬p.Takes data.length) :
    p.testBase64 (Base64.encode data) = none := by
  rw [Platform.testBase64, Base64.length_symbols_encode, if_pos (Nat.lt_of_not_le h)]

theorem decode_of_not_takes {data : Buffer} (h : ¬p.Takes data.length) (field : String)
    (exactLength : Option ℕ) :
    decode p (some (base64 data)) field exactLength = .error .runtime := by
  simp [decode, base64, testBase64_of_not_takes h]

/-- `decode` accepts the canonical text of the bytes it returns, and no other, if it is not too
long. -/
theorem decode_eq_ok_iff {value : Option Json} {field : String} {exactLength : Option ℕ}
    {data : Buffer} : decode p value field exactLength = .ok data ↔
      value = some (base64 data) ∧ (∀ length, exactLength = some length → data.length = length) ∧
        p.Takes data.length := by
  constructor
  · intro h
    have htext : value = some (base64 data) ∧
        ∀ length, exactLength = some length → data.length = length := by
      unfold decode at h
      split at h
      next text =>
        split at h
        · cases h
        · dsimp only at h
          split_ifs at h with hshape hcanonical hlength
          obtain rfl := Except.ok.inj h
          refine ⟨?_, fun length hl => ?_⟩
          · rw [base64, not_not.mp hcanonical, String.ofList_toList]
          · simpa [hl] using hlength
      next => cases h
    obtain ⟨rfl, hlength⟩ := htext
    refine ⟨rfl, hlength, ?_⟩
    by_contra hlong
    rw [decode_of_not_takes hlong] at h
    cases h
  · rintro ⟨rfl, hlength, htakes⟩
    have htest := testBase64_encode htakes
    have hback := Base64.decode_encode data
    cases exactLength with
    | none => simp [decode, base64, htest, hback]
    | some length => simp [decode, base64, htest, hback, hlength length rfl]

def HavePaths (items : List Json) (paths : List String) : Prop :=
  List.Forall₂ (fun item path => property (some item) "path" = .ok (some (.str path))) items paths

theorem validatePaths_eq_ok_iff {items : List Json} {seen paths : List String}
    (hseen : seen.Nodup) : validatePaths items seen = .ok paths ↔
      ∃ names, HavePaths items names ∧ paths = seen ++ names ∧ paths.Nodup ∧
        ∀ name ∈ names, name ∈ allowedEntryPaths := by
  induction items generalizing seen with
  | nil =>
    constructor
    · intro h
      obtain rfl := Except.ok.inj h
      exact ⟨[], .nil, (List.append_nil _).symm, hseen, fun _ hname => by cases hname⟩
    · rintro ⟨names, hnames, rfl, -⟩
      cases hnames
      rw [List.append_nil]
      rfl
  | cons item items ih =>
    constructor
    · intro h
      obtain ⟨v, hv, h⟩ := bind_eq_ok h
      split at h
      next path =>
        split_ifs at h with hpath
        have hseen' : (seen ++ [path]).Nodup := by
          rw [List.nodup_append]
          refine ⟨hseen, List.nodup_singleton _, fun x hx y hy => ?_⟩
          rw [List.mem_singleton.mp hy]
          rintro rfl
          exact hpath.2 hx
        obtain ⟨names, hnames, hpaths, hnodup, hallowed⟩ := (ih hseen').mp h
        refine ⟨path :: names, .cons hv hnames, ?_, hnodup, ?_⟩
        · rw [hpaths, List.append_assoc]
          rfl
        · exact List.forall_mem_cons.mpr ⟨hpath.1, hallowed⟩
      next => cases h
    · rintro ⟨names, hnames, rfl, hnodup, hallowed⟩
      cases hnames with
      | @cons _ path _ names hitem hnames =>
        obtain ⟨hpath, hallowed⟩ := List.forall_mem_cons.mp hallowed
        have hfresh : path ∉ seen := by
          intro hmem
          have hdisjoint := (List.nodup_append.mp hnodup).2.2
          exact hdisjoint path hmem path List.mem_cons_self rfl
        have hrest : validatePaths items (seen ++ [path]) = .ok (seen ++ path :: names) := by
          have hassoc : seen ++ path :: names = (seen ++ [path]) ++ names := by simp
          have hfirst : (seen ++ [path]).Nodup := (List.nodup_append.mp (hassoc ▸ hnodup)).1
          exact (ih hfirst).mpr ⟨names, hnames, hassoc, hnodup, hallowed⟩
        rw [validatePaths, hitem]
        show (if _ then _ else _ : Result (List String)) = _
        rw [if_pos ⟨hpath, hfresh⟩, hrest]

/-- Two lists of the same paths. -/
theorem perm_allowed {names : List String} (hnodup : names.Nodup)
    (hallowed : ∀ name ∈ names, name ∈ allowedEntryPaths)
    (hcomplete : ∀ path ∈ allowedEntryPaths, path ∈ names) : names.Perm allowedEntryPaths := by
  have hpaths : allowedEntryPaths.Nodup := by decide
  rw [List.perm_ext_iff_of_nodup hnodup hpaths]
  exact fun path => ⟨hallowed path, hcomplete path⟩

/-- A valid manifest has an item for each of the two paths. -/
theorem validateManifest_eq_ok_iff {manifest : Option Json} {items : List Json} :
    validateManifest manifest = .ok items ↔
      (property manifest "formatVersion" = .ok (some (.num (.integer 1)))) ∧
      (∃ createdAt, property manifest "createdAt" = .ok createdAt ∧
        isSafeInteger createdAt = true) ∧
      property manifest "entries" = .ok (some (.arr items)) ∧
      ∃ names, HavePaths items names ∧ names.Perm allowedEntryPaths := by
  constructor
  · intro h
    obtain ⟨formatVersion, hformat, h⟩ := bind_eq_ok h
    obtain ⟨createdAt, hcreated, h⟩ := bind_eq_ok h
    obtain ⟨entries, hentries, h⟩ := bind_eq_ok h
    split at h
    next items' htests =>
      obtain ⟨paths, hpaths, h⟩ := bind_eq_ok h
      split_ifs at h with hcomplete
      obtain rfl := Except.ok.inj h
      obtain ⟨hone, hsafe⟩ := Bool.and_eq_true_iff.mp htests
      obtain ⟨names, hnames, hsame, hnodup, hallowed⟩ := (validatePaths_eq_ok_iff .nil).mp hpaths
      obtain rfl : paths = names := hsame
      refine ⟨by rw [hformat, isNumber_iff.mp hone], ⟨createdAt, hcreated, hsafe⟩, hentries,
        paths, hnames, perm_allowed hnodup hallowed ?_⟩
      simpa using hcomplete
    next => cases h
  · rintro ⟨hformat, ⟨createdAt, hcreated, hsafe⟩, hentries, names, hnames, hperm⟩
    have hnodup : names.Nodup := hperm.nodup_iff.mpr (by decide)
    have hpaths : validatePaths items [] = .ok names :=
      (validatePaths_eq_ok_iff .nil).mpr
        ⟨names, hnames, rfl, hnodup, fun name hname => hperm.mem_iff.mp hname⟩
    have hcomplete : (allowedEntryPaths.all fun path => decide (path ∈ names)) = true := by
      simpa using fun path hpath => hperm.mem_iff.mpr hpath
    have hone : isNumber 1 (some (.num (.integer 1))) = true := rfl
    rw [validateManifest, hformat, hcreated, hentries]
    simp only [bind, Except.bind, hone, hsafe, Bool.and_self, hpaths, hcomplete, if_true]

def Decodes (item : Json) (entry : PayloadEntry) : Prop :=
  property (some item) "path" = .ok entry.path ∧
    property (some item) "data" = .ok (some (base64 entry.data))

theorem decodes_of_decodeEntry {item : Json} {entry : PayloadEntry}
    (h : decodeEntry p item = .ok entry) : Decodes item entry := by
  obtain ⟨path, hpath, h⟩ := bind_eq_ok h
  obtain ⟨text, -, h⟩ := bind_eq_ok h
  obtain ⟨value, hvalue, h⟩ := bind_eq_ok h
  obtain ⟨data, hdata, h⟩ := bind_eq_ok h
  obtain rfl := Except.ok.inj h
  rw [(decode_eq_ok_iff.mp hdata).1] at hvalue
  exact ⟨hpath, hvalue⟩

theorem decodes_of_decodeEntries {items : List Json} {entries : List PayloadEntry}
    (h : decodeEntries p items = .ok entries) : List.Forall₂ Decodes items entries := by
  induction items generalizing entries with
  | nil =>
    obtain rfl := Except.ok.inj h
    exact .nil
  | cons item items ih =>
    obtain ⟨entry, hentry, h⟩ := bind_eq_ok h
    obtain ⟨rest, hrest, h⟩ := bind_eq_ok h
    obtain rfl := Except.ok.inj h
    exact .cons (decodes_of_decodeEntry hentry) (ih hrest)

structure Records (p : Platform Key) (item : Json) (path : String) (entry : PayloadEntry) :
    Prop where
  itemPath : property (some item) "path" = .ok (some (.str path))
  entryPath : entry.path = some (.str path)
  size : property (some item) "size" = .ok (some (.num (.integer entry.data.length)))
  sha256 : property (some item) "sha256" = .ok (some (.str (p.sha256 entry.data)))

/-- Each item of the manifest records an entry. -/
theorem records_of_checkEntries {items : List Json} {entries : List PayloadEntry}
    (h : checkEntries p entries items = .ok ()) :
    ∀ item ∈ items, ∃ path, ∃ entry ∈ entries, Records p item path entry := by
  induction items with
  | nil => exact fun _ hitem => by cases hitem
  | cons item items ih =>
    obtain ⟨path, hpath, h⟩ := bind_eq_ok h
    split at h
    next path =>
      obtain ⟨size, hsize, h⟩ := bind_eq_ok h
      obtain ⟨sha256, hsha, h⟩ := bind_eq_ok h
      split at h
      next entry hfind =>
        split_ifs at h with htests
        obtain ⟨hlength, hhash⟩ := Bool.and_eq_true_iff.mp htests
        have hentry := List.find?_some hfind
        have hmem := List.mem_of_find?_eq_some hfind
        refine List.forall_mem_cons.mpr ⟨⟨path, entry, hmem, hpath, isString_iff.mp hentry, ?_, ?_⟩,
          ih h⟩
        · rw [hsize, isNumber_iff.mp hlength]
        · rw [hsha, isString_iff.mp hhash]
      next => cases h
    next => cases h

/-! ## What is accepted -/

/-- The manifest and the entries hold each of the two paths once, and the data of each entry
has the size and the hash that the manifest records. -/
structure Describes (p : Platform Key) (manifest : Option Json) (entries : List PayloadEntry) :
    Prop where
  formatVersion : property manifest "formatVersion" = .ok (some (.num (.integer 1)))
  createdAt : ∃ createdAt, property manifest "createdAt" = .ok createdAt ∧
    isSafeInteger createdAt = true
  entryPaths : (entries.map fun entry => entry.path).Perm
    [some (.str "steam-bee.sqlite"), some (.str "instance.secret")]
  items : ∃ items names, property manifest "entries" = .ok (some (.arr items)) ∧
    HavePaths items names ∧ names.Perm ["steam-bee.sqlite", "instance.secret"] ∧
    (∀ item ∈ items, ∃ path, ∃ entry ∈ entries, Records p item path entry) ∧
    ∀ entry ∈ entries, ∃ item ∈ items, ∃ path, Records p item path entry

theorem exists_item {items : List Json} {names : List String} (h : HavePaths items names)
    {name : String} (hname : name ∈ names) :
    ∃ item ∈ items, property (some item) "path" = .ok (some (.str name)) := by
  induction h with
  | nil => cases hname
  | cons hitem _ ih =>
    rcases List.mem_cons.mp hname with rfl | hrest
    · exact ⟨_, List.mem_cons_self, hitem⟩
    · obtain ⟨item, hmem, hpath⟩ := ih hrest
      exact ⟨item, List.mem_cons_of_mem _ hmem, hpath⟩

/-- As many entries as items, and one for each path: there is no room for another one. -/
theorem entryPaths_perm {items : List Json} {names : List String} {entries : List PayloadEntry}
    (hnames : HavePaths items names) (hperm : names.Perm allowedEntryPaths)
    (hlength : entries.length = items.length)
    (hrecords : ∀ item ∈ items, ∃ path, ∃ entry ∈ entries, Records p item path entry) :
    (entries.map fun entry => entry.path).Perm (names.map fun name => some (.str name)) := by
  have hnodup : (names.map fun name => some (Json.str name)).Nodup := by
    apply (hperm.nodup_iff.mpr (by decide)).map
    intro a b hab
    exact Json.str.inj (Option.some.inj hab)
  have hsub : (names.map fun name => some (Json.str name)) ⊆
      entries.map fun entry => entry.path := by
    intro v hv
    obtain ⟨name, hname, rfl⟩ := List.mem_map.mp hv
    obtain ⟨item, hitem, hpath⟩ := exists_item hnames hname
    obtain ⟨path, entry, hentry, hrecord⟩ := hrecords item hitem
    obtain rfl : name = path := by
      have heq := hpath.symm.trans hrecord.itemPath
      simpa using heq
    exact List.mem_map.mpr ⟨entry, hentry, hrecord.entryPath⟩
  have hle : (entries.map fun entry => entry.path).length ≤
      (names.map fun name => some (Json.str name)).length := by
    rw [List.length_map, List.length_map, hlength]
    exact hnames.length_eq.le
  exact ((List.subperm_of_subset hnodup hsub).perm_of_length_le hle).symm

/-- What `readPayload` accepts. -/
theorem describes_of_readPayload {payload manifest : Json} {entries : List PayloadEntry}
    (h : readPayload p payload = .ok (manifest, entries)) :
    property (some payload) "manifest" = .ok (some manifest) ∧
      Describes p (some manifest) entries ∧
      ∃ items, property (some payload) "entries" = .ok (some (.arr items)) ∧
        List.Forall₂ Decodes items entries := by
  obtain ⟨manifest', hmanifest, h⟩ := bind_eq_ok h
  obtain ⟨items, hvalid, h⟩ := bind_eq_ok h
  obtain ⟨value, hvalue, h⟩ := bind_eq_ok h
  split at h
  next texts =>
    obtain ⟨entries', hdecode, h⟩ := bind_eq_ok h
    split_ifs at h with hcount
    obtain ⟨_, hcheck, h⟩ := bind_eq_ok h
    obtain ⟨rfl, rfl⟩ := Prod.mk.inj (Except.ok.inj h)
    obtain ⟨hformat, hcreated, hentries, names, hnames, hperm⟩ :=
      validateManifest_eq_ok_iff.mp hvalid
    have hrecords := records_of_checkEntries hcheck
    have hpaths := entryPaths_perm hnames hperm (not_not.mp hcount) hrecords
    have hnodup : (entries'.map fun entry => entry.path).Nodup := by
      apply hpaths.nodup_iff.mpr
      apply (hperm.nodup_iff.mpr (by decide)).map
      intro a b hab
      exact Json.str.inj (Option.some.inj hab)
    obtain ⟨manifest, rfl⟩ : ∃ manifest, manifest' = some manifest := by
      cases manifest' with
      | none => cases hvalid
      | some manifest => exact ⟨manifest, rfl⟩
    refine ⟨hmanifest, ⟨hformat, hcreated, ?_, items, names, hentries, hnames, hperm, hrecords, ?_⟩,
      texts, hvalue, decodes_of_decodeEntries hdecode⟩
    · exact hpaths.trans (hperm.map _)
    · intro entry hentry
      -- the item of the path of the entry records an entry of that path, and there is one only
      have hmem : entry.path ∈ names.map fun name => some (Json.str name) :=
        hpaths.mem_iff.mp (List.mem_map_of_mem hentry)
      obtain ⟨name, hname, hpath⟩ := List.mem_map.mp hmem
      obtain ⟨item, hitem, hitemPath⟩ := exists_item hnames hname
      obtain ⟨path, entry', hentry', hrecord⟩ := hrecords item hitem
      have hsame : entry'.path = entry.path := by
        rw [← hpath, hrecord.entryPath]
        have heq := hitemPath.symm.trans hrecord.itemPath
        simpa using heq.symm
      obtain rfl := List.inj_on_of_nodup_map hnodup hentry' hentry hsame
      exact ⟨item, hitem, path, hrecord⟩
  next => cases h

/-- What is assumed of the authenticated cipher: a sealed text has the length of the text, it is
opened when it is untouched, and under one key and nonce nothing else is. -/
structure Platform.Authentic (p : Platform Key) : Prop where
  textLength : ∀ key iv aad text, (p.encipher key iv aad text).1.length = text.length
  tagLength : ∀ key iv aad text, (p.encipher key iv aad text).2.length = 16
  opens : ∀ key iv aad text, p.decipher key iv aad (p.encipher key iv aad text) = some text
  rejects : ∀ key iv aad sealed text, p.decipher key iv aad sealed = some text →
    sealed = p.encipher key iv aad text

/-- What an accepted backup is: an envelope of canonical texts around the sealed text of a
payload whose data are canonical texts as well. -/
structure Accepted (p : Platform Key) (buffer : Buffer) (passphrase : String) (manifest : Json)
    (entries : List PayloadEntry) : Prop where
  allowed : validatePassphrase passphrase = .ok ()
  describes : Describes p (some manifest) entries
  canonical : ∃ envelope payload salt iv plaintext items,
    Json.parse (p.toText buffer) = some envelope ∧
    property (some envelope) "format" = .ok (some (.str magic)) ∧
    property (some envelope) "salt" = .ok (some (base64 salt)) ∧ salt.length = 16 ∧
    property (some envelope) "iv" = .ok (some (base64 iv)) ∧ iv.length = 12 ∧
    property (some envelope) "authTag" = .ok (some (base64 (p.encipher
      (p.scryptSync passphrase salt) iv (toBytes magic.toList) plaintext).2)) ∧
    property (some envelope) "ciphertext" = .ok (some (base64 (p.encipher
      (p.scryptSync passphrase salt) iv (toBytes magic.toList) plaintext).1)) ∧
    Json.parse (p.toText plaintext) = some payload ∧
    property (some payload) "manifest" = .ok (some manifest) ∧
    property (some payload) "entries" = .ok (some (.arr items)) ∧
    List.Forall₂ Decodes items entries

theorem mapError_eq_ok {α : Type} {x : Result α} {a : α} (h : x.mapError disguise = .ok a) :
    x = .ok a := by
  cases x with
  | error e => cases h
  | ok b => exact h

theorem accepted_of_decryptBackup (hp : p.Authentic) {buffer : Buffer} {passphrase : String}
    {manifest : Json} {entries : List PayloadEntry}
    (h : decryptBackup p buffer passphrase = .ok (manifest, entries)) :
    Accepted p buffer passphrase manifest entries := by
  obtain ⟨_, hpass, h⟩ := bind_eq_ok h
  obtain ⟨envelope, henvelope, h⟩ := bind_eq_ok h
  obtain ⟨format, hformat, h⟩ := bind_eq_ok h
  split_ifs at h with hmagic
  obtain ⟨saltText, hsaltText, h⟩ := bind_eq_ok h
  obtain ⟨salt, hsalt, h⟩ := bind_eq_ok h
  obtain ⟨ivText, hivText, h⟩ := bind_eq_ok h
  obtain ⟨iv, hiv, h⟩ := bind_eq_ok h
  obtain ⟨tagText, htagText, h⟩ := bind_eq_ok h
  obtain ⟨authTag, htag, h⟩ := bind_eq_ok h
  obtain ⟨cipherText, hcipherText, h⟩ := bind_eq_ok h
  obtain ⟨ciphertext, hcipher, h⟩ := bind_eq_ok h
  obtain ⟨plaintext, hplain, hread⟩ := bind_eq_ok (mapError_eq_ok h)
  obtain ⟨payload, hpayload, hread⟩ := bind_eq_ok hread
  obtain ⟨rfl, hsaltLength, -⟩ := decode_eq_ok_iff.mp hsalt
  obtain ⟨rfl, hivLength, -⟩ := decode_eq_ok_iff.mp hiv
  obtain ⟨rfl, -⟩ := decode_eq_ok_iff.mp htag
  obtain ⟨rfl, -⟩ := decode_eq_ok_iff.mp hcipher
  obtain ⟨hmanifest, hdescribes, items, hitems, hdecodes⟩ := describes_of_readPayload hread
  have hsealed := hp.rejects _ _ _ _ _ (orThrow_eq_ok hplain)
  refine ⟨hpass, hdescribes, envelope, payload, salt, iv, plaintext, items,
    orThrow_eq_ok henvelope, ?_, hsaltText, hsaltLength 16 rfl, hivText, hivLength 12 rfl, ?_, ?_,
    orThrow_eq_ok hpayload, hmanifest, hitems, hdecodes⟩
  · rw [hformat, isString_iff.mp hmagic]
  · rw [htagText, ← hsealed]
  · rw [hcipherText, ← hsealed]

end SteamBee.Backup
