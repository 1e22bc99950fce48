import SteamBee.Inventory.PriceScheduler
import SteamBee.Inventory.SteamData
import SteamBee.Text.BraceScan
import SteamBee.Text.JsonRoundTrip

/-! The object that a page of Steam assigns to a variable of a script. The service and the price
reader each extract it with a scanner of their own. -/
namespace SteamBee.Inventory
open Text SteamData

structure ExtractionErrors (ε : Type) where
  missing : ε
  unassigned : ε
  invalid : ε
  unclosed : ε

/-- `/^\s*=\s*/`, and what follows. -/
def assignment (text : List Char) : Option (List Char) :=
  match text.dropWhile isSpace with
  | '=' :: text => some (text.dropWhile isSpace)
  | _ => none

def extractJson {ε : Type} (errors : ExtractionErrors ε) (html variableName : List Char) :
    Except ε Fields :=
  match indexOf variableName html with
  | none => .error errors.missing
  | some start =>
    match assignment (html.drop (start + variableName.length)) with
    | none => .error errors.unassigned
    | some text =>
      match (Scan.inside 0).closing text with
      | none => .error errors.unclosed
      | some count =>
        match Json.parse (text.take count) with
        | some (.obj fields) => .ok fields
        | _ => .error errors.invalid

/-- Extract JSON data only; never execute script received from Steam. -/
def assignedJson (html variableName : List Char) : Except ActionError Fields :=
  extractJson {
    missing := appError ("Steam market wallet information is unavailable. Open the Community " ++
      "Market in Steam first.") 409
    unassigned := appError "Steam returned unsupported market data." 502
    invalid := appError "Steam returned unsupported market data." 502
    unclosed := appError "Steam market wallet information is unavailable." 409 } html variableName

def walletVariable : List Char := "g_rgWalletInfo".toList

/-- Parse the data assignment without evaluating any of Steam's scripts. -/
def walletJson (html : List Char) : Except PriceReadError Fields :=
  extractJson ⟨unavailable, unavailable, unavailable, unavailable⟩ html walletVariable

/-! ## Exactness -/

structure AssignmentPage where
  before : List Char
  variableName : List Char
  left : List Char
  right : List Char
  text : List Char
  after : List Char
  unbordered : Unbordered variableName
  first : ¬ variableName <:+: before
  leftSpace : ∀ c ∈ left, isSpace c = true
  rightSpace : ∀ c ∈ right, isSpace c = true

namespace AssignmentPage

def html (page : AssignmentPage) : List Char :=
  page.before ++ (page.variableName ++
    (page.left ++ '=' :: (page.right ++ (page.text ++ page.after))))

theorem assignment_html (page : AssignmentPage) (h : page.text.head? = some '{') :
    assignment (page.left ++ '=' :: (page.right ++ (page.text ++ page.after))) =
      some (page.text ++ page.after) := by
  have hstop : (page.text ++ page.after).dropWhile isSpace = page.text ++ page.after := by
    cases htext : page.text with
    | nil =>
      rw [htext] at h
      cases h
    | cons c text =>
      rw [htext] at h
      rw [Option.some.inj h]
      rfl
  unfold assignment
  rw [List.dropWhile_append_of_pos page.leftSpace]
  have hequals : isSpace '=' = false := rfl
  simp only [List.dropWhile_cons, hequals, Bool.false_eq_true, if_false]
  rw [List.dropWhile_append_of_pos page.rightSpace, hstop]

theorem extractJson_html {ε : Type} (page : AssignmentPage) {fields : Fields}
    (errors : ExtractionErrors ε) (h : Scan.IsObject page.text fields) :
    extractJson errors page.html page.variableName = .ok fields := by
  have hstart := indexOf_append
    (page.left ++ '=' :: (page.right ++ (page.text ++ page.after))) page.unbordered page.first
  have hdrop : page.html.drop (page.before.length + page.variableName.length) =
      page.left ++ '=' :: (page.right ++ (page.text ++ page.after)) := by
    rw [html, ← List.append_assoc, ← List.length_append, List.drop_left]
  unfold extractJson
  rw [html, hstart]
  dsimp only
  rw [← html, hdrop, page.assignment_html h.opens]
  dsimp only
  rw [h.closing_append]
  dsimp only
  rw [List.take_left, h.parse]

end AssignmentPage

theorem unbordered_walletVariable : Unbordered walletVariable := by decide

/-- Whatever follows the object, and whatever is in its strings. -/
theorem embeddedJson_exact (page : AssignmentPage) {fields : Fields}
    (h : Scan.IsObject page.text fields) :
    assignedJson page.html page.variableName = .ok fields ∧
      (page.variableName = walletVariable → walletJson page.html = .ok fields) := by
  constructor
  · exact page.extractJson_html _ h
  · intro hvariable
    rw [walletJson, ← hvariable]
    exact page.extractJson_html _ h

/-- Braces, quotes and runs of backslashes in the strings of nested objects. -/
def nestedObject : Fields :=
  [("wallet_country", .str "\x7b\"\\\\\x7d"), ("a\\", .obj [("\x7d", .arr [.obj [], .str "\\"])])]

def walletPage : AssignmentPage where
  before := "<script>var g_rg = \x7b\x7d; var ".toList
  variableName := walletVariable
  left := [' ']
  right := ['\n', ' ']
  text := Json.stringify (.obj nestedObject)
  after := "; \x7d \"".toList
  unbordered := unbordered_walletVariable
  first := by decide +kernel
  leftSpace := List.forall_mem_singleton.mpr rfl
  rightSpace := List.forall_mem_cons.mpr ⟨rfl, List.forall_mem_singleton.mpr rfl⟩

theorem embeddedJson_exact_walletPage :
    (assignedJson walletPage.html walletVariable = .ok nestedObject ∧
      walletJson walletPage.html = .ok nestedObject) ∧
    walletPage.text = ("\x7b\"wallet_country\":\"\x7b\\\"\\\\\\\\\x7d\"," ++
      "\"a\\\\\":\x7b\"\x7d\":[\x7b\x7d,\"\\\\\"]\x7d\x7d").toList := by
  have hprintable : Json.Printable (.obj nestedObject) := by
    simp [nestedObject, Json.Printable, Json.PrintableFields, Json.PrintableItems]
  have hobject : Scan.IsObject walletPage.text nestedObject := by
    constructor
    case parse => exact Json.parse_stringify hprintable
    case opens => decide +kernel
    case closes => decide +kernel
  obtain ⟨hassigned, hwallet⟩ := embeddedJson_exact walletPage hobject
  exact ⟨⟨hassigned, hwallet rfl⟩, by decide +kernel⟩

end SteamBee.Inventory
