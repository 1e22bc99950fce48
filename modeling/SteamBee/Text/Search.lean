import Mathlib.Data.Nat.Notation

/-! Searching a text, as the methods and the patterns of a script language do. -/
namespace Text
variable {α : Type}

/-- The white space and the line ends that `\s` stands for. -/
def isSpace (c : Char) : Bool :=
  let n := c.toNat
  (9 ≤ n && n ≤ 13) || n == 0x20 || n == 0xa0 || n == 0x1680 || (0x2000 ≤ n && n ≤ 0x200a) ||
    n == 0x2028 || n == 0x2029 || n == 0x202f || n == 0x205f || n == 0x3000 || n == 0xfeff

def utf16Length : List Char → ℕ
  | [] => 0
  | c :: text => (if c.toNat < 0x10000 then 1 else 2) + utf16Length text

/-- `slice(0, limit)`, in units of 16 bits. Of a pair that is cut in two a lone surrogate is
left, which is U+FFFD here. -/
def sliceUnits : ℕ → List Char → List Char
  | 0, _ => []
  | _, [] => []
  | limit + 1, c :: text =>
    if c.toNat < 0x10000 then c :: sliceUnits limit text
    else
      match limit with
      | 0 => [Char.ofNat 0xfffd]
      | rest + 1 => c :: sliceUnits rest text

/-- The text behind `needle`, which it begins with. -/
def behind (needle text : List Char) : Option (List Char) :=
  if needle.isPrefixOf text then some (text.drop needle.length) else none

def indexOf (needle : List Char) : List Char → Option ℕ
  | [] => if needle.isEmpty then some 0 else none
  | c :: text =>
    if needle.isPrefixOf (c :: text) then some 0 else (indexOf needle text).map Nat.succ

def lastIndexOf (needle text : List Char) (stop : ℕ) : Option ℕ :=
  (List.range (stop + 1)).reverse.find? fun i => needle.isPrefixOf (text.drop i)

/-- The text with each `needle` replaced, of which `skipped` characters still belong to the last
one. -/
def replaceFrom (needle replacement : List Char) : ℕ → List Char → List Char
  | _, [] => []
  | skipped + 1, _ :: text => replaceFrom needle replacement skipped text
  | 0, c :: text =>
    if needle.isPrefixOf (c :: text) then
      replacement ++ replaceFrom needle replacement (needle.length - 1) text
    else c :: replaceFrom needle replacement 0 text

def replaceAll (needle replacement text : List Char) : List Char :=
  replaceFrom needle replacement 0 text

def firstMatch (pattern : List Char → Option α) : List Char → Option α
  | [] => pattern []
  | c :: text =>
    match pattern (c :: text) with
    | some found => some found
    | none => firstMatch pattern text

/-! ## The first occurrence -/

/-- No proper end of the text is a beginning of it, so that two occurrences cannot overlap. -/
def Unbordered (needle : List Char) : Prop :=
  ∀ k < needle.length, 0 < k → ¬ needle.drop k <+: needle

instance (needle : List Char) : Decidable (Unbordered needle) := by
  unfold Unbordered
  infer_instance

theorem not_prefix_append {needle before rest : List Char} (hneedle : Unbordered needle)
    (hbefore : ¬ needle <:+: before) (hne : before ≠ []) :
    ¬ needle <+: before ++ (needle ++ rest) := by
  intro hprefix
  by_cases hlength : needle.length ≤ before.length
  · exact hbefore (List.prefix_of_prefix_length_le hprefix
      (List.prefix_append before _) hlength).isInfix
  · obtain ⟨tail, rfl⟩ := List.prefix_of_prefix_length_le (List.prefix_append before _) hprefix
      (Nat.le_of_not_le hlength)
    have htail : tail <+: before ++ tail ++ rest := (List.prefix_append_right_inj before).mp hprefix
    apply hneedle before.length (Nat.lt_of_not_le hlength) (List.length_pos_iff.mpr hne)
    rw [List.drop_left]
    apply List.prefix_of_prefix_length_le htail (List.prefix_append _ rest)
    rw [List.length_append]
    omega

/-- By induction on the text before it. -/
theorem indexOf_append {needle before : List Char} (rest : List Char)
    (hneedle : Unbordered needle) (hbefore : ¬ needle <:+: before) :
    indexOf needle (before ++ (needle ++ rest)) = some before.length := by
  induction before with
  | nil =>
    cases needle with
    | nil => exact absurd List.nil_infix hbefore
    | cons c needle =>
      rw [List.nil_append, List.cons_append, indexOf, if_pos]
      · rfl
      · exact List.isPrefixOf_iff_prefix.mpr (List.prefix_append (c :: needle) rest)
  | cons c before ih =>
    have hrest : ¬ needle <:+: before := fun h => hbefore (h.trans (List.suffix_cons c _).isInfix)
    have hnot : ¬ needle <+: (c :: before) ++ (needle ++ rest) :=
      not_prefix_append hneedle hbefore (List.cons_ne_nil c before)
    rw [List.cons_append, indexOf, if_neg, ih hrest]
    · rfl
    · rw [List.isPrefixOf_iff_prefix]
      exact hnot

theorem indexOf_eq_none {needle text : List Char} (h : ¬ needle <:+: text) :
    indexOf needle text = none := by
  induction text with
  | nil =>
    have hne : needle ≠ [] := fun heq => h (heq ▸ List.nil_infix)
    rw [indexOf, if_neg (by simpa using hne)]
  | cons c text ih =>
    have hhere : ¬ needle.isPrefixOf (c :: text) = true := by
      rw [List.isPrefixOf_iff_prefix]
      exact fun hprefix => h hprefix.isInfix
    have hrest : ¬ needle <:+: text :=
      fun hwithin => h (hwithin.trans (List.suffix_cons c _).isInfix)
    rw [indexOf, if_neg hhere, ih hrest]
    rfl

/-! ## The last occurrence -/

theorem not_prefix_drop_append {needle rest : List Char} {k : ℕ} (hneedle : Unbordered needle)
    (hpos : 0 < k) (hk : k < needle.length) : ¬ needle <+: needle.drop k ++ rest := by
  intro hprefix
  apply hneedle k hk hpos
  apply List.prefix_of_prefix_length_le (List.prefix_append _ rest) hprefix
  rw [List.length_drop]
  omega

/-- An occurrence of `needle` cannot go on into `key`. -/
def Clear (needle key : List Char) : Prop :=
  ∀ k < needle.length, ¬ needle.drop k <+: key ∧ ¬ key <+: needle.drop k

instance (needle key : List Char) : Decidable (Clear needle key) := by
  unfold Clear
  infer_instance

theorem not_prefix_of_clear {needle key before rest : List Char} (hclear : Clear needle key)
    (hbefore : ¬ needle <:+: before) : ¬ needle <+: before ++ (key ++ rest) := by
  intro hprefix
  by_cases hlength : needle.length ≤ before.length
  · exact hbefore (List.prefix_of_prefix_length_le hprefix
      (List.prefix_append before _) hlength).isInfix
  · have hshort := Nat.lt_of_not_le hlength
    obtain ⟨tail, rfl⟩ := List.prefix_of_prefix_length_le (List.prefix_append before _) hprefix
      (Nat.le_of_lt hshort)
    have htail : tail <+: key ++ rest := (List.prefix_append_right_inj before).mp hprefix
    have hapart := hclear before.length hshort
    rw [List.drop_left] at hapart
    rcases List.prefix_or_prefix_of_prefix htail (List.prefix_append key rest) with hle | hle
    · exact hapart.1 hle
    · exact hapart.2 hle

theorem lastIndexOf_eq {needle text : List Char} {start stop : ℕ} (hle : start ≤ stop)
    (hstart : needle <+: text.drop start)
    (hlast : ∀ i, start < i → i ≤ stop → ¬ needle <+: text.drop i) :
    lastIndexOf needle text stop = some start := by
  unfold lastIndexOf
  induction stop with
  | zero =>
    obtain rfl : start = 0 := Nat.le_zero.mp hle
    simpa using hstart
  | succ stop ih =>
    rw [List.range_succ, List.reverse_append, List.reverse_singleton, List.singleton_append,
      List.find?_cons]
    by_cases hstop : start = stop + 1
    · subst hstop
      rw [List.isPrefixOf_iff_prefix.mpr hstart]
    · have hlt : start < stop + 1 := by omega
      have hnot := hlast (stop + 1) hlt (Nat.le_refl _)
      rw [← List.isPrefixOf_iff_prefix, Bool.not_eq_true] at hnot
      rw [hnot]
      apply ih (Nat.le_of_lt_succ hlt)
      intro i hi histop
      exact hlast i hi (Nat.le_trans histop (Nat.le_succ stop))

/-- Behind a `needle` there is no other up to `key`. -/
theorem lastIndexOf_append {needle before data key rest : List Char} (hneedle : Unbordered needle)
    (hclear : Clear needle key) (hdata : ¬ needle <:+: data) :
    lastIndexOf needle (before ++ (needle ++ data) ++ (key ++ rest))
      (before ++ (needle ++ data)).length = some before.length := by
  apply lastIndexOf_eq
  · rw [List.length_append]
    exact Nat.le_add_right _ _
  · rw [List.append_assoc, List.drop_left, List.append_assoc]
    exact List.prefix_append _ _
  · intro i hi hstop
    obtain ⟨k, rfl⟩ := Nat.exists_eq_add_of_lt hi
    have hbehind : (before ++ (needle ++ data) ++ (key ++ rest)).drop (before.length + k + 1) =
        (needle ++ (data ++ (key ++ rest))).drop (k + 1) := by
      rw [List.append_assoc, List.append_assoc, List.drop_append, Nat.add_assoc,
        List.drop_eq_nil_of_le (Nat.le_add_right _ _), List.nil_append, Nat.add_sub_cancel_left]
    rw [hbehind, List.drop_append]
    by_cases hk : k + 1 < needle.length
    · exact not_prefix_drop_append hneedle (Nat.succ_pos k) hk
    · have hlength : k + 1 - needle.length ≤ data.length := by
        simp only [List.length_append] at hstop
        omega
      rw [List.drop_eq_nil_of_le (Nat.le_of_not_lt hk), List.nil_append,
        List.drop_append_of_le_length hlength]
      apply not_prefix_of_clear hclear
      exact fun hwithin => hdata (hwithin.trans (List.drop_suffix _ data).isInfix)

/-! ## The first match -/

theorem firstMatch_eq_none {pattern : List Char → Option α} {key text : List Char}
    (hkey : ∀ text, ¬ key <+: text → pattern text = none) (h : ¬ key <:+: text) :
    firstMatch pattern text = none := by
  induction text with
  | nil => exact hkey [] fun hprefix => h hprefix.isInfix
  | cons c text ih =>
    have hrest : ¬ key <:+: text := fun hwithin => h (hwithin.trans (List.suffix_cons c _).isInfix)
    rw [firstMatch, hkey (c :: text) fun hprefix => h hprefix.isInfix]
    exact ih hrest

/-- Where the key that the pattern begins with occurs once, the pattern matches there or not at
all. By induction on the text before the key. -/
theorem firstMatch_once {pattern : List Char → Option α} {key before rest : List Char}
    (hkey : ∀ text, ¬ key <+: text → pattern text = none) (hunbordered : Unbordered key)
    (hbefore : ¬ key <:+: before) (hrest : ¬ key <:+: rest) :
    firstMatch pattern (before ++ (key ++ rest)) = pattern (key ++ rest) := by
  induction before with
  | nil =>
    cases key with
    | nil => exact absurd List.nil_infix hbefore
    | cons c key =>
      have hlater : ¬ c :: key <:+: key ++ rest := by
        intro hinfix
        obtain ⟨text, hprefix, hsuffix⟩ := List.infix_iff_prefix_suffix.mp hinfix
        obtain ⟨k, rfl⟩ : ∃ k, text = (key ++ rest).drop k :=
          ⟨_, List.suffix_iff_eq_drop.mp hsuffix⟩
        rw [List.drop_append] at hprefix
        by_cases hk : k < key.length
        · have hinner : c :: key <+: (c :: key).drop (k + 1) ++ rest.drop (k - key.length) :=
            hprefix
          exact not_prefix_drop_append hunbordered (Nat.succ_pos k) (Nat.succ_lt_succ hk) hinner
        · rw [List.drop_eq_nil_of_le (Nat.le_of_not_lt hk), List.nil_append] at hprefix
          exact hrest (List.IsInfix.trans hprefix.isInfix (List.drop_suffix _ rest).isInfix)
      rw [List.nil_append, List.cons_append, firstMatch, firstMatch_eq_none hkey hlater]
      cases pattern (c :: (key ++ rest)) <;> rfl
  | cons c before ih =>
    have hafter : ¬ key <:+: before := fun h => hbefore (h.trans (List.suffix_cons c _).isInfix)
    have hnot : ¬ key <+: c :: (before ++ (key ++ rest)) :=
      not_prefix_append hunbordered hbefore (List.cons_ne_nil c before)
    rw [List.cons_append, firstMatch, hkey _ hnot]
    exact ih hafter

end Text
