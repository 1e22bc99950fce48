import SteamBee.Data.Recency
import SteamBee.Text.JsonRoundTrip

/-! What a browser remembers of the free games it has announced. The tabs of an account share it
through the local storage. -/
namespace SteamBee.Web
open Text

structure FreeGameOffer where
  appId : Number
  name : String
  deriving DecidableEq, Repr

structure OfferNotificationState where
  enabled : Bool
  baselined : Bool
  seen : List ℤ
  deriving DecidableEq, Repr

def emptyNotificationState : OfferNotificationState := ⟨false, false, []⟩

def seenLimit : ℕ := 500

/-- `Number.isSafeInteger(id) && id > 0`. -/
def IsOfferId (n : ℤ) : Prop := Number.IsSafe n ∧ 0 < n

instance (n : ℤ) : Decidable (IsOfferId n) := inferInstanceAs (Decidable (_ ∧ _))

def offerId : Number → Option ℤ
  | .integer n => if IsOfferId n then some n else none
  | .other _ => none

def seenId : Json → Option ℤ
  | .num n => offerId n
  | _ => none

/-- The last occurrence is the most recent observation of an offer. -/
def normalizeSeen (values : List Json) : List ℤ :=
  ((values.filterMap seenId).foldl List.touch []).newest seenLimit

def isTrue : Option Json → Bool
  | some (.bool true) => true
  | _ => false

def normalizeState : Json → OfferNotificationState
  | .obj fields => {
      enabled := isTrue (Json.lookup fields "enabled")
      baselined := isTrue (Json.lookup fields "baselined")
      seen :=
        match Json.lookup fields "seen" with
        | some (.arr values) => normalizeSeen values
        | _ => [] }
  | _ => emptyNotificationState

def seenValues (seen : List ℤ) : List Json := seen.map fun n => .num (.integer n)

def OfferNotificationState.value (state : OfferNotificationState) : Json :=
  .obj [("enabled", .bool state.enabled), ("baselined", .bool state.baselined),
    ("seen", .arr (seenValues state.seen))]

abbrev OfferStorage := Option (List Char)

def readStoredState (storage : OfferStorage) : Option OfferNotificationState :=
  match storage with
  | none => none
  | some raw =>
    match Json.parse raw with
    | some (.obj fields) => some (normalizeState (.obj fields))
    | _ => none

def readOfferNotificationState (storage : OfferStorage) : OfferNotificationState :=
  (readStoredState storage).getD emptyNotificationState

def persistState (state : OfferNotificationState) : OfferStorage :=
  some (Json.stringify (normalizeState state.value).value)

structure OfferSnapshot where
  state : OfferNotificationState
  newOffers : List FreeGameOffer
  deriving DecidableEq, Repr

def acceptOffers (baselined : Bool) (seen : List ℤ) : List FreeGameOffer →
    List ℤ × List FreeGameOffer
  | [] => (seen, [])
  | offer :: offers =>
    match offerId offer.appId with
    | none => acceptOffers baselined seen offers
    | some id =>
      let rest := acceptOffers baselined (seen.touch id) offers
      (rest.1, if baselined && !decide (id ∈ seen) then offer :: rest.2 else rest.2)

def acceptOfferSnapshot (state : OfferNotificationState) (offers : List FreeGameOffer) :
    OfferSnapshot :=
  let normalized := normalizeState state.value
  if normalized.enabled then
    let accepted := acceptOffers normalized.baselined normalized.seen offers
    ⟨{ normalized with baselined := true, seen := accepted.1.newest seenLimit }, accepted.2⟩
  else ⟨normalized, []⟩

/-- What is stored goes before what the tab remembers, whose history is kept as the older one. -/
def mergedState (storage : OfferStorage) (fallback : OfferNotificationState) :
    OfferNotificationState :=
  match readStoredState storage with
  | some stored =>
    { stored with seen := normalizeSeen (seenValues (fallback.seen ++ stored.seen)) }
  | none => fallback

/-- Under the lock. The flags are what `isCurrent` says at the beginning and at the end. -/
def commitOfferSnapshot (storage : OfferStorage) (fallbackState : OfferNotificationState)
    (offers : List FreeGameOffer) (baseline current current' : Bool) :
    OfferStorage × OfferSnapshot :=
  let fallback := normalizeState fallbackState.value
  if current then
    let merged := mergedState storage fallback
    if merged.enabled then
      let snapshot := acceptOfferSnapshot
        (if baseline then { merged with baselined := false } else merged) offers
      if current' then (persistState snapshot.state, snapshot)
      else (storage, ⟨merged, []⟩)
    else (storage, ⟨merged, []⟩)
  else (storage, ⟨fallback, []⟩)

/-! ## Normal states -/

structure OfferNotificationState.Normal (state : OfferNotificationState) : Prop where
  ids : ∀ id ∈ state.seen, IsOfferId id
  distinct : state.seen.Nodup
  limit : state.seen.length ≤ seenLimit

theorem offerId_eq_some_iff {number : Number} {id : ℤ} :
    offerId number = some id ↔ number = .integer id ∧ IsOfferId id := by
  cases number with
  | integer n =>
    unfold offerId
    dsimp only
    split_ifs with h
    · rw [Option.some.injEq, Number.integer.injEq]
      constructor
      · rintro rfl
        exact ⟨rfl, h⟩
      · exact fun hid => hid.1
    · simp only [Number.integer.injEq, false_iff, not_and]
      rintro rfl
      exact h
  | other literal => simp [offerId]

theorem isOfferId_of_seenId {value : Json} {id : ℤ} (h : seenId value = some id) :
    IsOfferId id := by
  cases value with
  | num number => exact (offerId_eq_some_iff.mp h).2
  | _ => cases h

theorem filterMap_seenValues {seen : List ℤ} (h : ∀ id ∈ seen, IsOfferId id) :
    (seenValues seen).filterMap seenId = seen := by
  unfold seenValues
  rw [List.filterMap_map]
  induction seen with
  | nil => rfl
  | cons id seen ih =>
    have hid : (seenId ∘ fun n => .num (.integer n)) id = some id := by
      exact offerId_eq_some_iff.mpr ⟨rfl, h id List.mem_cons_self⟩
    rw [List.filterMap_cons_some hid,
      ih fun other hother => h other (List.mem_cons_of_mem _ hother)]

theorem normal_newest (enabled baselined : Bool) {seen : List ℤ}
    (hids : ∀ id ∈ seen, IsOfferId id) (hdistinct : seen.Nodup) :
    OfferNotificationState.Normal ⟨enabled, baselined, seen.newest seenLimit⟩ where
  ids id hid := hids id ((List.newest_sublist seenLimit seen).subset hid)
  distinct := hdistinct.sublist (List.newest_sublist seenLimit seen)
  limit := List.length_newest_le seenLimit seen

theorem normal_normalizeSeen (enabled baselined : Bool) (values : List Json) :
    OfferNotificationState.Normal ⟨enabled, baselined, normalizeSeen values⟩ := by
  apply normal_newest
  · intro id hid
    rw [List.mem_foldl_touch] at hid
    rcases hid with hid | hid
    · cases hid
    · obtain ⟨value, -, hvalue⟩ := List.mem_filterMap.mp hid
      exact isOfferId_of_seenId hvalue
  · exact List.nodup_foldl_touch List.nodup_nil _

theorem normal_normalizeState (value : Json) : (normalizeState value).Normal := by
  have hempty (enabled baselined : Bool) :
      OfferNotificationState.Normal ⟨enabled, baselined, []⟩ := by
    constructor
    case ids => exact fun _ h => (by cases h)
    case distinct => exact List.nodup_nil
    case limit => exact Nat.zero_le _
  unfold normalizeState
  split
  · split
    · exact normal_normalizeSeen _ _ _
    · exact hempty _ _
  · exact hempty false false

theorem isTrue_bool (b : Bool) : isTrue (some (.bool b)) = b := by
  cases b <;> rfl

theorem OfferNotificationState.Normal.eq {state : OfferNotificationState} (h : state.Normal) :
    normalizeState state.value = state := by
  have hseen : normalizeSeen (seenValues state.seen) = state.seen := by
    unfold normalizeSeen
    rw [filterMap_seenValues h.ids, List.foldl_touch_nodup h.distinct, List.filter_nil,
      List.nil_append, List.newest_of_length_le h.limit]
  show OfferNotificationState.mk (isTrue (some (.bool state.enabled)))
    (isTrue (some (.bool state.baselined))) (normalizeSeen (seenValues state.seen)) = state
  rw [isTrue_bool, isTrue_bool, hseen]

/-- What is written is read back. -/
theorem readStoredState_persistState {state : OfferNotificationState} (h : state.Normal) :
    readStoredState (persistState state) = some state := by
  have hprintable : Json.Printable state.value := by
    have hseen : Json.PrintableItems (seenValues state.seen) := by
      apply Json.printableItems_of_mem
      intro v hv
      obtain ⟨id, hid, rfl⟩ := List.mem_map.mp hv
      exact (h.ids id hid).1
    simp [OfferNotificationState.value, Json.Printable, Json.PrintableFields, hseen]
  unfold persistState readStoredState
  dsimp only
  rw [h.eq, Json.parse_stringify hprintable]
  exact congrArg some h.eq

end SteamBee.Web
