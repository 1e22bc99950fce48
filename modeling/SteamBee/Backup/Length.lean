import Mathlib.Algebra.Order.BigOperators.Group.List
import SteamBee.Backup.Accepted

/-! How long the text is that a backup seals: its JSON has few characters besides the data. -/
namespace SteamBee.Backup
open Text
variable {Key : Type} {p : Platform Key}

@[simp] theorem length_toBytes_nil : (toBytes []).length = 0 := rfl

@[simp] theorem length_toBytes_cons (c : Char) (text : List Char) :
    (toBytes (c :: text)).length = c.utf8Size + (toBytes text).length := by
  simp [toBytes, List.utf8Encode]

@[simp] theorem length_toBytes_append (text text' : List Char) :
    (toBytes (text ++ text')).length = (toBytes text).length + (toBytes text').length := by
  simp [toBytes, List.utf8Encode]

theorem utf8Size_of_lt {c : Char} (h : c.toNat < 128) : c.utf8Size = 1 := by
  have hc : c.val ≤ 127 := by
    rw [UInt32.le_iff_toNat_le]
    exact Nat.le_of_lt_succ h
  simp [Char.utf8Size, hc]

/-- The symbols of base64 are single bytes that need no escape. -/
theorem plain_of_mem_encode {c : Char} {data : Buffer} (h : c ∈ Base64.encode data) :
    c.utf8Size = 1 ∧ Json.escape c = [c] := by
  rcases Base64.mem_encode h with hsymbol | rfl
  · obtain ⟨hlow, hhigh, hslash⟩ := Base64.toNat_of_isSymbol hsymbol
    have hshort : Json.shortEscape c = none := by
      unfold Json.shortEscape
      split_ifs with hquote hback
      · subst hquote
        exact absurd hlow (by decide)
      · subst hback
        exact absurd rfl hslash
      -- the other escapes are control characters
      all_goals first | omega | rfl
    refine ⟨utf8Size_of_lt hhigh, ?_⟩
    rw [Json.escape, hshort]
    exact if_neg (by omega)
  · decide

theorem length_toBytes_escape {text : List Char}
    (h : ∀ c ∈ text, c.utf8Size = 1 ∧ Json.escape c = [c]) :
    (toBytes (text.flatMap Json.escape)).length = text.length := by
  induction text with
  | nil => rfl
  | cons c text ih =>
    obtain ⟨⟨hsize, hescape⟩, hrest⟩ := List.forall_mem_cons.mp h
    rw [List.flatMap_cons, hescape, length_toBytes_append, ih hrest]
    simp [hsize]
    omega

/-- How many bytes a value has as a text. -/
def printedLength (v : Json) : ℕ := (toBytes v.stringify).length

theorem printedLength_base64 (data : Buffer) :
    printedLength (base64 data) = 4 * ((data.length + 2) / 3) + 2 := by
  have hplain := length_toBytes_escape fun c (hc : c ∈ Base64.encode data) => plain_of_mem_encode hc
  have hmark : '"'.utf8Size = 1 := by decide
  simp only [printedLength, base64, Json.stringify, Json.quote, String.toList_ofList,
    length_toBytes_cons, length_toBytes_append, hplain, Base64.length_encode, length_toBytes_nil,
    hmark]
  omega

/-- The brackets, the commas and the items. -/
theorem printedLength_arr (v : Json) (items : List Json) : printedLength (.arr (v :: items)) =
    2 + items.length + ((v :: items).map printedLength).sum := by
  have hitems : (toBytes (Json.stringifyItems (v :: items))).length =
      1 + items.length + ((v :: items).map printedLength).sum := by
    induction items generalizing v with
    | nil =>
      have hclose : ']'.utf8Size = 1 := by decide
      simp [Json.stringifyItems, printedLength, hclose]
      omega
    | cons w items ih =>
      have hcomma : ','.utf8Size = 1 := by decide
      simp only [Json.stringifyItems, length_toBytes_append, length_toBytes_cons, ih, hcomma,
        List.map_cons, List.sum_cons, List.length_cons, printedLength]
      omega
  have hopen : '['.utf8Size = 1 := by decide
  rw [printedLength, Json.stringify, length_toBytes_cons, hitems, hopen]
  omega

/-- The braces, the commas, the names with their colons and the values. -/
theorem printedLength_obj (field : String × Json) (fields : List (String × Json)) :
    printedLength (.obj (field :: fields)) = 2 + fields.length +
      ((field :: fields).map fun f => printedLength (.str f.1) + 1 + printedLength f.2).sum := by
  have hfields : (toBytes (Json.stringifyFields (field :: fields))).length = 1 + fields.length +
      ((field :: fields).map fun f => printedLength (.str f.1) + 1 + printedLength f.2).sum := by
    have hcolon : ':'.utf8Size = 1 := by decide
    induction fields generalizing field with
    | nil =>
      have hclose : '}'.utf8Size = 1 := by decide
      simp [Json.stringifyFields, Json.stringify, printedLength, hcolon, hclose]
      omega
    | cons second fields ih =>
      have hcomma : ','.utf8Size = 1 := by decide
      simp only [Json.stringifyFields, Json.stringify, length_toBytes_append, length_toBytes_cons,
        ih, hcolon, hcomma, List.map_cons, List.sum_cons, List.length_cons, printedLength]
      omega
  have hopen : '{'.utf8Size = 1 := by decide
  rw [printedLength, Json.stringify, length_toBytes_cons, hfields, hopen]
  omega

def plaintextOf (p : Platform Key) (entries : List BackupEntry) (migrationId : Option String)
    (createdAt : Number) : Buffer :=
  toBytes (payloadOf (manifestOf p entries migrationId createdAt) entries).stringify

/-- How many bytes `encryptBackup` seals, of the data of both files in base64, their hashes and
sizes, the date and the identifier. -/
def sealedLength (p : Platform Key) (entries : List BackupEntry) (migrationId : Option String)
    (createdAt : Number) : ℕ :=
  250 + printedLength (.num createdAt) + printedLength (migrationId.elim .null .str) +
    (entries.map fun entry => printedLength (.num (.integer entry.data.length)) +
      printedLength (.str (p.sha256 entry.data)) + 4 * ((entry.data.length + 2) / 3)).sum

theorem length_plaintextOf {entries : List BackupEntry}
    (hperm : (entries.map fun entry => entry.path).Perm allowedEntryPaths)
    (migrationId : Option String) (createdAt : Number) :
    (plaintextOf p entries migrationId createdAt).length =
      sealedLength p entries migrationId createdAt := by
  have hlength := hperm.length_eq
  rw [List.length_map] at hlength
  obtain ⟨first, second, rfl⟩ := List.length_eq_two.mp hlength
  have hpaths : printedLength (.str first.path) + printedLength (.str second.path) = 35 := by
    have hsum := (hperm.map fun path => printedLength (.str path)).sum_eq
    have hboth : (allowedEntryPaths.map fun path => printedLength (.str path)).sum = 35 := by decide
    rw [hboth] at hsum
    simpa only [List.map_cons, List.map_nil, List.sum_cons, List.sum_nil, add_zero] using hsum
  have hone : printedLength (.num (.integer 1)) = 1 := by decide
  have hmanifest : printedLength (.str "manifest") = 10 := by decide
  have hentries : printedLength (.str "entries") = 9 := by decide
  have hversion : printedLength (.str "formatVersion") = 15 := by decide
  have hcreated : printedLength (.str "createdAt") = 11 := by decide
  have hmigration : printedLength (.str "migrationId") = 13 := by decide
  have hpath : printedLength (.str "path") = 6 := by decide
  have hsize : printedLength (.str "size") = 6 := by decide
  have hsha : printedLength (.str "sha256") = 8 := by decide
  have hdata : printedLength (.str "data") = 6 := by decide
  unfold plaintextOf sealedLength
  rw [← printedLength]
  simp only [payloadOf, manifestOf, manifestEntry, List.map_cons, List.map_nil, printedLength_obj,
    printedLength_arr, printedLength_base64, List.sum_cons, List.sum_nil, List.length_cons,
    List.length_nil, hone, hmanifest, hentries, hversion, hcreated, hmigration, hpath, hsize, hsha,
    hdata]
  omega

theorem data_le_sealedLength {entries : List BackupEntry} {entry : BackupEntry}
    (hmem : entry ∈ entries) (migrationId : Option String) (createdAt : Number) :
    4 * ((entry.data.length + 2) / 3) ≤ sealedLength p entries migrationId createdAt := by
  have hle := List.single_le_sum (fun _ _ => Nat.zero_le _) _ (List.mem_map_of_mem
    (f := fun entry => printedLength (.num (.integer entry.data.length)) +
      printedLength (.str (p.sha256 entry.data)) + 4 * ((entry.data.length + 2) / 3)) hmem)
  unfold sealedLength
  omega

/-- The data of an entry are base64 in what is sealed, which is base64 in the envelope. -/
theorem takes_data {entries : List BackupEntry} {migrationId : Option String} {createdAt : Number}
    (h : p.Takes (sealedLength p entries migrationId createdAt)) {entry : BackupEntry}
    (hmem : entry ∈ entries) : p.Takes (4 * ((entry.data.length + 2) / 3)) :=
  h.mono (data_le_sealedLength hmem migrationId createdAt)

end SteamBee.Backup
