import Mathlib.Algebra.Group.Nat.Defs
import SteamBee.Data.Table
import SteamBee.Data.Total
import SteamBee.Inventory.Contracts
import SteamBee.Transition.Machine

/-! The stored selection of an account, its games and its custom title, and the routes and presets
that write it. Each call stops at its awaits. -/
namespace SteamBee.Steam

abbrev AppId := ℕ

/-! ## Texts -/

def isWhitespace (c : Char) : Bool :=
  ['\t', '\n', '\u000b', '\u000c', '\r', ' ', '\u00a0', '\u1680', '\u2028', '\u2029', '\u202f',
    '\u205f', '\u3000', '\ufeff'].contains c || ('\u2000' ≤ c && c ≤ '\u200a')

def trim (text : String) : String :=
  .ofList ((text.toList.dropWhile isWhitespace).reverse.dropWhile isWhitespace).reverse

def textLength (text : String) : ℕ :=
  text.toList.total fun c => if c.val < 0x10000 then 1 else 2

/-! ## The limit -/

def maxGames : ℕ := 32

def maxGamesWithCustomTitle : ℕ := 31

def maxSteamAppId : ℕ := 2147483647

def hasTitle (customTitle : Option String) : Bool := customTitle.any fun title => trim title != ""

def gameSelectionLimit (customTitle : Option String) : ℕ :=
  if hasTitle customTitle then maxGamesWithCustomTitle else maxGames

def enforceGameLimit (appIds : List AppId) (customTitle : Option String) : Except AppError Unit :=
  let limit := gameSelectionLimit customTitle
  if appIds.length > limit then
    .error ⟨s!"Too many games selected. This configuration allows at most {limit} entries.", 400,
      .validation⟩
  else .ok ()

/-! ## Rows and requests -/

inductive GameSource where
  | manual
  | preset
  deriving DecidableEq, Repr

structure SelectedGame where
  appId : AppId
  enabled : Bool
  source : GameSource
  deriving DecidableEq, Repr

/-- What the selection reads and writes of a row of `steam_account`. -/
structure SelectionAccount where
  personaState : ℕ
  customTitle : Option String
  activePresetId : Option Uuid
  deriving DecidableEq, Repr

structure BoostPreset where
  name : String
  personaState : ℕ
  customTitle : Option String
  appIds : List AppId
  deriving DecidableEq, Repr

structure SettingsBody where
  personaState : ℕ
  customTitle : Option String
  deriving DecidableEq, Repr

def isAppId (appId : AppId) : Bool := decide (0 < appId) && decide (appId ≤ maxSteamAppId)

/-- `z.string().trim().max(80).nullable()`. -/
def parseTitle (customTitle : Option String) : Option (Option String) :=
  match customTitle with
  | none => some none
  | some title => if textLength (trim title) ≤ 80 then some (some (trim title)) else none

def settingsSchema (body : SettingsBody) : Option SettingsBody := do
  let customTitle ← parseTitle body.customTitle
  if body.personaState ≤ 7 then some { body with customTitle } else none

def gameUpdateSchema (appIds : List AppId) : Option (List AppId) :=
  if appIds.length ≤ maxGames ∧ appIds.all isAppId then some appIds else none

def presetSchema (body : BoostPreset) : Option BoostPreset := do
  let customTitle ← parseTitle body.customTitle
  let appIds ← gameUpdateSchema body.appIds
  let name := trim body.name
  if 1 ≤ textLength name ∧ textLength name ≤ 64 ∧ body.personaState ≤ 7 then
    some { body with name, customTitle, appIds }
  else none

/-- `customTitle || null`. -/
def storedTitle (customTitle : Option String) : Option String := customTitle.filter (· != "")

inductive SelectionCall where
  | settings (body : SettingsBody)
  | saveSettings (body : SettingsBody)
  | games (appIds : List AppId)
  | saveGames (appIds : List AppId)
  | createPreset (values : BoostPreset)
  | requirePreset (presetId : Uuid) (values : BoostPreset)
  | updatePreset (presetId : Uuid) (values : BoostPreset)
  | applyPreset (presetId : Uuid)
  | readPresetGames (presetId : Uuid) (preset : BoostPreset)
  | savePreset (presetId : Uuid) (preset : BoostPreset) (appIds : List AppId)
  deriving DecidableEq, Repr

structure Selection where
  account : SelectionAccount
  games : List SelectedGame
  presets : Table Uuid BoostPreset
  calls : Table ℕ SelectionCall
  drawn : ℕ

namespace Selection

def enabledAppIds (s : Selection) : List AppId :=
  (s.games.filter fun game => game.enabled).map fun game => game.appId

/-- The stored selection can be reported. -/
def Legal (s : Selection) : Prop := enforceGameLimit s.enabledAppIds s.account.customTitle = .ok ()

def call (s : Selection) (call : SelectionCall) : Selection :=
  { s with calls := s.calls.insert s.drawn call, drawn := s.drawn + 1 }

def goOn (s : Selection) (id : ℕ) (call : SelectionCall) : Selection :=
  { s with calls := s.calls.insert id call }

def unlessThrown (s : Selection) (id : ℕ) (check : Except AppError Unit) (call : SelectionCall) :
    Selection :=
  match check with
  | .ok () => s.goOn id call
  | .error _ => { s with calls := s.calls.erase id }

/-- The transaction that replaces the selection: a persona state and a title only where given. -/
def replaceSelectedGames (s : Selection) (appIds : List AppId) (source : GameSource)
    (activePresetId : Option Uuid) (personaState : Option ℕ)
    (customTitle : Option (Option String)) : Selection :=
  { s with
    games := appIds.map fun appId => ⟨appId, true, source⟩
    account :=
      { activePresetId
        personaState := personaState.getD s.account.personaState
        customTitle := customTitle.getD s.account.customTitle } }

def createPresetRecord (s : Selection) (presetId : Uuid) (values : BoostPreset) : Selection :=
  { s with presets := s.presets.insert presetId values }

def updatePresetRecord (s : Selection) (presetId : Uuid) (values : BoostPreset) : Selection :=
  { s with
    presets := s.presets.modify presetId fun _ => values
    account := { s.account with
      activePresetId := s.account.activePresetId.filter (· != presetId) } }

/-! ## Requests -/

def putSettings (s : Selection) (body : SettingsBody) : Option Selection := do
  some (s.call (.settings (← settingsSchema body)))

def putGames (s : Selection) (appIds : List AppId) : Option Selection := do
  some (s.call (.games (← gameUpdateSchema appIds).eraseDups))

/-- What a preset is stored with; the limit is enforced before the first await. -/
def presetValues (body : BoostPreset) : Option BoostPreset := do
  let body ← presetSchema body
  let appIds := body.appIds.eraseDups
  match enforceGameLimit appIds body.customTitle with
  | .ok () => some { body with customTitle := storedTitle body.customTitle, appIds }
  | .error _ => none

def createPreset (s : Selection) (body : BoostPreset) : Option Selection := do
  some (s.call (.createPreset (← presetValues body)))

def updatePreset (s : Selection) (presetId : Uuid) (body : BoostPreset) : Option Selection := do
  some (s.call (.requirePreset presetId (← presetValues body)))

def proceed (s : Selection) (id : ℕ) : Option Selection := do
  let done := { s with calls := s.calls.erase id }
  match ← s.calls.lookup id with
  | .settings body =>
    some (s.unlessThrown id (enforceGameLimit s.enabledAppIds body.customTitle)
      (.saveSettings body))
  | .saveSettings body =>
    some { done with account :=
      ⟨body.personaState, storedTitle body.customTitle, none⟩ }
  | .games appIds =>
    some (s.unlessThrown id (enforceGameLimit appIds s.account.customTitle) (.saveGames appIds))
  | .saveGames appIds => some (done.replaceSelectedGames appIds .manual none none none)
  | .createPreset values =>
    some ({ done with drawn := s.drawn + 1 }.createPresetRecord s.drawn values)
  | .requirePreset presetId values =>
    match s.presets.lookup presetId with
    | none => some done
    | some _ => some (s.goOn id (.updatePreset presetId values))
  | .updatePreset presetId values => some (done.updatePresetRecord presetId values)
  | .applyPreset presetId =>
    match s.presets.lookup presetId with
    | none => some done
    | some preset => some (s.goOn id (.readPresetGames presetId preset))
  | .readPresetGames presetId preset =>
    let appIds := ((s.presets.lookup presetId).map fun preset => preset.appIds).getD []
    some (s.unlessThrown id (enforceGameLimit appIds preset.customTitle)
      (.savePreset presetId preset appIds))
  | .savePreset presetId preset appIds =>
    some (done.replaceSelectedGames appIds .preset (some presetId) (some preset.personaState)
      (some preset.customTitle))

end Selection

inductive SelectionAction where
  | putSettings (body : SettingsBody)
  | putGames (appIds : List AppId)
  | createPreset (body : BoostPreset)
  | updatePreset (presetId : Uuid) (body : BoostPreset)
  | applyPreset (presetId : Uuid)
  | proceed (call : ℕ)
  deriving DecidableEq

def selectionMachine : Transition.Machine Selection SelectionAction where
  Starts s := s.Legal ∧ s.calls = ∅
  next s
    | .putSettings body => s.putSettings body
    | .putGames appIds => s.putGames appIds
    | .createPreset body => s.createPreset body
    | .updatePreset presetId body => s.updatePreset presetId body
    | .applyPreset presetId => some (s.call (.applyPreset presetId))
    | .proceed call => s.proceed call

/-! ## The joint limit -/

namespace Selection
variable {s t : Selection} {id : ℕ} {a : SelectionAction} {appIds : List AppId}
  {customTitle : Option String}

theorem enforceGameLimit_eq_ok :
    enforceGameLimit appIds customTitle = .ok () ↔
      appIds.length ≤ gameSelectionLimit customTitle := by
  unfold enforceGameLimit
  dsimp only
  split_ifs with h
  · simp only [false_iff]
    omega
  · simp only [true_iff]
    omega

theorem legal_iff :
    s.Legal ↔ s.enabledAppIds.length ≤ gameSelectionLimit s.account.customTitle :=
  enforceGameLimit_eq_ok

theorem gameSelectionLimit_le (customTitle : Option String) :
    gameSelectionLimit customTitle ≤ maxGames := by
  unfold gameSelectionLimit
  split_ifs
  · decide
  · exact le_rfl

/-- Within the limit of any title, it is a title and the last place that do not go together. -/
theorem le_gameSelectionLimit_iff {n : ℕ} (h : n ≤ maxGames) :
    n ≤ gameSelectionLimit customTitle ↔ (!hasTitle customTitle || n != maxGames) = true := by
  unfold gameSelectionLimit
  split_ifs with htitle
  · simp only [htitle, Bool.not_true, Bool.false_or, bne_iff_ne]
    simp only [maxGames, maxGamesWithCustomTitle] at h ⊢
    omega
  · simp [h, htitle]

theorem hasTitle_storedTitle : hasTitle (storedTitle customTitle) = hasTitle customTitle := by
  cases customTitle with
  | none => rfl
  | some title =>
    by_cases hempty : title = ""
    · subst hempty
      rfl
    · have hkept : storedTitle (some title) = some title := by
        simp [storedTitle, Option.filter, hempty]
      rw [hkept]

@[simp] theorem enabledAppIds_replaceSelectedGames {source : GameSource}
    {activePresetId : Option Uuid} {personaState : Option ℕ} {title : Option (Option String)} :
    (s.replaceSelectedGames appIds source activePresetId personaState title).enabledAppIds =
      appIds := by
  simp [enabledAppIds, replaceSelectedGames, List.filter_map, Function.comp_def]

def CallKept : SelectionCall → Prop
  | .saveGames appIds => appIds.length ≤ maxGames
  | .savePreset _ preset appIds => appIds.length ≤ gameSelectionLimit preset.customTitle
  | _ => True

def Kept (s : Selection) : Prop := ∀ id call, s.calls.lookup id = some call → CallKept call

/-- A title is not written while all places are taken, nor all places taken while there is a
title: between the check of a route and its write, the other half did not reach its limit. -/
def undisturbed (s : Selection) : SelectionAction → Bool
  | .proceed id =>
    match s.calls.lookup id with
    | some (.saveSettings body) =>
      !hasTitle body.customTitle || s.enabledAppIds.length != maxGames
    | some (.saveGames appIds) => !hasTitle s.account.customTitle || appIds.length != maxGames
    | _ => true
  | _ => true

def Undisturbed (s : Selection) (a : SelectionAction) : Prop := s.undisturbed a = true

theorem Kept.insert (h : s.Kept) {call : SelectionCall} (hcall : CallKept call)
    (ht : t.calls = s.calls.insert id call) : t.Kept := by
  intro other found hfound
  rw [ht, Table.lookup_insert_eq] at hfound
  split_ifs at hfound
  · obtain rfl := Option.some.inj hfound
    exact hcall
  · exact h other found hfound

theorem Kept.erase (h : s.Kept) (ht : t.calls = s.calls.erase id) : t.Kept := by
  intro other found hfound
  rw [ht, Table.lookup_erase_eq] at hfound
  split_ifs at hfound
  exact h other found hfound

theorem Kept.unlessThrown (h : s.Kept) {check : Except AppError Unit} {call : SelectionCall}
    (hcall : check = .ok () → CallKept call) : (s.unlessThrown id check call).Kept := by
  unfold Selection.unlessThrown
  split
  · exact h.insert (hcall rfl) rfl
  · exact h.erase rfl

theorem unlessThrown_same (s : Selection) (id : ℕ) (check : Except AppError Unit)
    (call : SelectionCall) : (s.unlessThrown id check call).games = s.games ∧
      (s.unlessThrown id check call).account = s.account := by
  unfold Selection.unlessThrown
  split
  · exact ⟨rfl, rfl⟩
  · exact ⟨rfl, rfl⟩

theorem Legal.of_same (h : s.Legal) (hgames : t.games = s.games)
    (htitle : t.account.customTitle = s.account.customTitle) : t.Legal := by
  rw [Legal, enabledAppIds, hgames, htitle]
  exact h

theorem length_enabledAppIds_le (h : s.Legal) : s.enabledAppIds.length ≤ maxGames :=
  (legal_iff.mp h).trans (gameSelectionLimit_le _)

/-- The writes of a title and of games keep the limit if and only if they are undisturbed. -/
theorem legal_proceed_iff (hk : s.Kept) (hlegal : s.Legal) (hn : s.proceed id = some t) :
    t.Legal ↔ s.Undisturbed (.proceed id) := by
  obtain ⟨call, hcall, hn⟩ := Option.bind_eq_some_iff.mp hn
  have hkept := hk id call hcall
  rw [Undisturbed, undisturbed, hcall]
  cases call with
  | settings body =>
    obtain rfl := Option.some.inj hn
    obtain ⟨hgames, haccount⟩ := s.unlessThrown_same id
      (enforceGameLimit s.enabledAppIds body.customTitle) (.saveSettings body)
    exact iff_of_true (hlegal.of_same hgames (congrArg _ haccount)) rfl
  | saveSettings body =>
    obtain rfl := Option.some.inj hn
    rw [legal_iff, gameSelectionLimit, hasTitle_storedTitle, ← gameSelectionLimit]
    exact le_gameSelectionLimit_iff (length_enabledAppIds_le (s := s) hlegal)
  | games appIds =>
    obtain rfl := Option.some.inj hn
    obtain ⟨hgames, haccount⟩ := s.unlessThrown_same id
      (enforceGameLimit appIds s.account.customTitle) (.saveGames appIds)
    exact iff_of_true (hlegal.of_same hgames (congrArg _ haccount)) rfl
  | saveGames appIds =>
    obtain rfl := Option.some.inj hn
    rw [legal_iff, enabledAppIds_replaceSelectedGames]
    exact le_gameSelectionLimit_iff hkept
  | createPreset values =>
    obtain rfl := Option.some.inj hn
    exact iff_of_true (hlegal.of_same rfl rfl) rfl
  | requirePreset presetId values =>
    dsimp only at hn
    split at hn
    · obtain rfl := Option.some.inj hn
      exact iff_of_true (hlegal.of_same rfl rfl) rfl
    · obtain rfl := Option.some.inj hn
      exact iff_of_true (hlegal.of_same rfl rfl) rfl
  | updatePreset presetId values =>
    obtain rfl := Option.some.inj hn
    exact iff_of_true (hlegal.of_same rfl rfl) rfl
  | applyPreset presetId =>
    dsimp only at hn
    split at hn
    · obtain rfl := Option.some.inj hn
      exact iff_of_true (hlegal.of_same rfl rfl) rfl
    · obtain rfl := Option.some.inj hn
      exact iff_of_true (hlegal.of_same rfl rfl) rfl
  | readPresetGames presetId preset =>
    obtain rfl := Option.some.inj hn
    obtain ⟨hgames, haccount⟩ := s.unlessThrown_same id _ _
    exact iff_of_true (hlegal.of_same hgames (congrArg _ haccount)) rfl
  | savePreset presetId preset appIds =>
    -- title and games are written together, as they were checked
    obtain rfl := Option.some.inj hn
    rw [legal_iff, enabledAppIds_replaceSelectedGames]
    exact iff_of_true hkept rfl

theorem Kept.proceed (h : s.Kept) (hn : s.proceed id = some t) : t.Kept := by
  obtain ⟨call, hcall, hn⟩ := Option.bind_eq_some_iff.mp hn
  cases call with
  | settings body =>
    obtain rfl := Option.some.inj hn
    exact h.unlessThrown fun _ => trivial
  | games appIds =>
    obtain rfl := Option.some.inj hn
    exact h.unlessThrown fun hok =>
      (enforceGameLimit_eq_ok.mp hok).trans (gameSelectionLimit_le _)
  | readPresetGames presetId preset =>
    obtain rfl := Option.some.inj hn
    exact h.unlessThrown fun hok => enforceGameLimit_eq_ok.mp hok
  | requirePreset presetId values =>
    dsimp only at hn
    split at hn
    · obtain rfl := Option.some.inj hn
      exact h.erase rfl
    · obtain rfl := Option.some.inj hn
      have hcall : CallKept (.updatePreset presetId values) := trivial
      exact h.insert hcall rfl
  | applyPreset presetId =>
    dsimp only at hn
    split at hn
    · obtain rfl := Option.some.inj hn
      exact h.erase rfl
    · obtain rfl := Option.some.inj hn
      have hread (preset : BoostPreset) : CallKept (.readPresetGames presetId preset) := trivial
      exact h.insert (hread _) rfl
  | saveSettings | saveGames | createPreset | updatePreset | savePreset =>
    obtain rfl := Option.some.inj hn
    exact h.erase rfl

theorem Kept.call (h : s.Kept) {call : SelectionCall} (hcall : CallKept call) :
    (s.call call).Kept := h.insert hcall rfl

/-- One step keeps what the calls have checked, and the limit just if it is undisturbed. -/
theorem Kept.next (h : s.Kept) (hlegal : s.Legal) (hn : selectionMachine.next s a = some t) :
    t.Kept ∧ (t.Legal ↔ s.Undisturbed a) := by
  cases a with
  | putSettings body =>
    obtain ⟨body, -, hn⟩ := Option.bind_eq_some_iff.mp hn
    obtain rfl := Option.some.inj hn
    exact ⟨h.call trivial, iff_of_true (hlegal.of_same rfl rfl) rfl⟩
  | putGames appIds =>
    obtain ⟨appIds, -, hn⟩ := Option.bind_eq_some_iff.mp hn
    obtain rfl := Option.some.inj hn
    exact ⟨h.call trivial, iff_of_true (hlegal.of_same rfl rfl) rfl⟩
  | createPreset body =>
    obtain ⟨values, -, hn⟩ := Option.bind_eq_some_iff.mp hn
    obtain rfl := Option.some.inj hn
    exact ⟨h.call trivial, iff_of_true (hlegal.of_same rfl rfl) rfl⟩
  | updatePreset presetId body =>
    obtain ⟨values, -, hn⟩ := Option.bind_eq_some_iff.mp hn
    obtain rfl := Option.some.inj hn
    exact ⟨h.call trivial, iff_of_true (hlegal.of_same rfl rfl) rfl⟩
  | applyPreset presetId =>
    obtain rfl := Option.some.inj hn
    exact ⟨h.call trivial, iff_of_true (hlegal.of_same rfl rfl) rfl⟩
  | proceed id => exact ⟨h.proceed hn, legal_proceed_iff h hlegal hn⟩

theorem kept_of_reachable (h : selectionMachine.ReachableWhen Undisturbed s) :
    s.Kept ∧ s.Legal := by
  apply h.invariant
  · rintro s ⟨hlegal, hcalls⟩
    refine ⟨fun id call hcall => ?_, hlegal⟩
    rw [hcalls] at hcall
    cases hcall
  · rintro s t a ⟨hk, hlegal⟩ hc hn
    obtain ⟨hkept, hiff⟩ := hk.next hlegal hn
    exact ⟨hkept, hiff.mpr hc⟩

end Selection

open Selection

/-- In runs whose steps are undisturbed the stored selection can be reported, and the first step
that is not ends that. -/
theorem legal_of_undisturbed {s : Selection} (h : selectionMachine.ReachableWhen Undisturbed s) :
    s.Legal ∧ ∀ a t, selectionMachine.next s a = some t → (t.Legal ↔ s.Undisturbed a) := by
  obtain ⟨hk, hlegal⟩ := kept_of_reachable h
  exact ⟨hlegal, fun a t hn => (hk.next hlegal hn).2⟩

/-! ## Two requests at once -/

def emptySelection : Selection := ⟨⟨1, none, none⟩, [], ∅, ∅, 0⟩

/-- A title and thirty-one games are saved at once, and then a preset without a title. -/
def savedTogether : Selection :=
  (selectionMachine.execWhen undisturbed emptySelection [.putSettings ⟨1, some " Bees "⟩,
    .putGames ((List.range 31).map Nat.succ), .proceed 0, .proceed 1, .proceed 1, .proceed 0,
    .createPreset ⟨"All", 1, none, (List.range 32).map Nat.succ⟩, .proceed 2, .applyPreset 3,
    .proceed 4, .proceed 4, .proceed 4]).getD emptySelection

theorem legal_savedTogether :
    (savedTogether.Legal ∧ ∀ a t, selectionMachine.next savedTogether a = some t →
      (t.Legal ↔ savedTogether.Undisturbed a)) ∧
    savedTogether.enabledAppIds.length = 32 ∧ savedTogether.account.customTitle = none := by
  have hstarts : selectionMachine.Starts emptySelection := ⟨rfl, rfl⟩
  have hreachable : selectionMachine.ReachableWhen Undisturbed savedTogether :=
    Transition.Machine.reachable_execWhen (fun _ _ h => h) hstarts (by decide +kernel)
  exact ⟨legal_of_undisturbed hreachable, by decide +kernel, by decide +kernel⟩

/-- Thirty-two games are saved between the check of a title and its update. -/
def crowdedBee : Selection :=
  (selectionMachine.exec emptySelection [.putSettings ⟨1, some "Bees"⟩, .proceed 0,
    .putGames ((List.range 32).map Nat.succ), .proceed 1, .proceed 1, .proceed 0]).getD
      emptySelection

theorem not_legal_crowdedBee : ¬ ∀ s, selectionMachine.Reachable s → s.Legal := by
  intro hlegal
  have hstarts : selectionMachine.Starts emptySelection := ⟨rfl, rfl⟩
  have hreachable : selectionMachine.Reachable crowdedBee :=
    Transition.Machine.reachable_exec hstarts (by decide +kernel)
  have hbound := legal_iff.mp (hlegal crowdedBee hreachable)
  revert hbound
  decide +kernel

end SteamBee.Steam
