import SteamBee.Data.Keyed
import SteamBee.Data.Total
import SteamBee.Inventory.ObservationAge
import SteamBee.Text.Search

/-! The store of the price overview: the inventories that prices may be asked for, of a few
accounts and with a bound on their variants together. Each call reads the clock once. -/
namespace SteamBee.Inventory
namespace PriceOverview
open Text PriceReader

def priceContextTtl : ℕ := 5 * 60000

def maxPriceContextAccounts : ℕ := 8

/-- At least the complete supported inventory of 40,000 assets must fit on its own. -/
def maxPriceContextVariants : ℕ := 50000

abbrev Variants := Cache String PriceVariant

structure Context where
  fetchedAt : ℕ
  expiresAt : ℕ
  variants : Variants
  tooLarge : Bool

abbrev Contexts := Cache AccountId Context

def held (contexts : Contexts) : ℕ := contexts.total fun e => e.2.variants.length

/-! ## The calls -/

/-- `/[1-9]\d{0,24}/`. -/
def isLongNumber (digits : List Char) : Bool :=
  digits.all Char.isDigit && digits.head?.any (· != '0') && decide (digits.length ≤ 25)

/-- `/^753:6:[1-9]\d{0,24}:(?:0|[1-9]\d{0,24})$/`. -/
def isInventoryVariantId (id : String) : Bool :=
  match behind "753:6:".toList id.toList with
  | none => false
  | some rest =>
    match rest.dropWhile Char.isDigit with
    | ':' :: instanceId =>
      isLongNumber (rest.takeWhile Char.isDigit) &&
        (instanceId == ['0'] || isLongNumber instanceId)
    | _ => false

def contextExpired : ActionError :=
  appError "Inventory price context expired. Refresh the inventory before loading prices." 409

def contextTooLarge : ActionError :=
  appError "This inventory exceeds the price overview context limit." 409

def invalidVariants : ActionError :=
  appError "Choose between one and ten distinct inventory variants." 400

def prune (now : ℕ) (contexts : Contexts) : Contexts :=
  contexts.filter fun e => now < e.2.expiresAt

/-- A `Map` of the items by their ids, of which a later one replaces an earlier one. -/
def variantsOf (items : List (String × PriceVariant)) : Variants :=
  items.foldl (fun variants e => variants.upsert Prod.fst e.1 (fun _ => e) e) []

def contextOf (now : ℕ) (items : List (String × PriceVariant)) (fetchedAt : ℕ) : Context :=
  let tooLarge := decide (maxPriceContextVariants < (variantsOf items).length)
  { fetchedAt
    expiresAt := now + priceContextTtl
    variants := if tooLarge then [] else variantsOf items
    tooLarge }

def needsRoom (size : ℕ) (contexts : Contexts) : Prop :=
  maxPriceContextAccounts ≤ contexts.length ∨ maxPriceContextVariants < held contexts + size

instance (size : ℕ) (contexts : Contexts) : Decidable (needsRoom size contexts) :=
  inferInstanceAs (Decidable (_ ∨ _))

/-- The loop in `seed`, which deletes the oldest entry as long as there is one. -/
def evict (size : ℕ) : Contexts → Contexts
  | [] => []
  | oldest :: rest => if needsRoom size (oldest :: rest) then evict size rest else oldest :: rest

def seed (now : ℕ) (accountId : AccountId) (items : List (String × PriceVariant))
    (fetchedAt : ℕ) (contexts : Contexts) : Contexts :=
  let context := contextOf now items fetchedAt
  evict context.variants.length (delete (prune now contexts) accountId) ++ [(accountId, context)]

/-- `read` up to its first request: the context that it goes on with. -/
def read (now : ℕ) (accountId : AccountId) (variantIds : List String) (contexts : Contexts) :
    Except ActionError Context × Contexts :=
  if variantIds = [] ∨ 10 < variantIds.length ∨ ¬variantIds.Nodup ∨
      variantIds.any (fun id => !isInventoryVariantId id) then
    (.error invalidVariants, contexts)
  else match find (prune now contexts) accountId with
    | none => (.error contextExpired, prune now contexts)
    | some context =>
      if context.tooLarge then (.error contextTooLarge, prune now contexts)
      else (.ok context, delete (prune now contexts) accountId ++ [(accountId, context)])

def clearAccount (accountId : AccountId) (contexts : Contexts) : Contexts :=
  delete contexts accountId

/-! ## Runs -/

inductive StoreEvent where
  | seed (accountId : AccountId) (items : List (String × PriceVariant)) (fetchedAt : ℕ)
  | read (accountId : AccountId) (variantIds : List String)
  | prune
  | clearAccount (accountId : AccountId)
  | shutdown

def step (now : ℕ) : StoreEvent → Contexts → Contexts
  | .seed accountId items fetchedAt, s => seed now accountId items fetchedAt s
  | .read accountId variantIds, s => (read now accountId variantIds s).2
  | .prune, s => prune now s
  | .clearAccount accountId, s => clearAccount accountId s
  | .shutdown, _ => []

def run (events : List (ℕ × StoreEvent)) : Contexts :=
  events.foldl (fun s e => step e.1 e.2 s) []

/-- A context is used when it is seeded, and when it is read and not refused. -/
def usedBy (now : ℕ) : StoreEvent → Contexts → List AccountId
  | .seed accountId _ _, _ => [accountId]
  | .read accountId variantIds, s =>
    match (read now accountId variantIds s).1 with
    | .ok _ => [accountId]
    | .error _ => []
  | .prune, _ | .clearAccount _, _ | .shutdown, _ => []

def usesFrom : Contexts → List (ℕ × StoreEvent) → List AccountId
  | _, [] => []
  | s, e :: events => usedBy e.1 e.2 s ++ usesFrom (step e.1 e.2 s) events

def uses (events : List (ℕ × StoreEvent)) : List AccountId := usesFrom [] events

theorem run_concat (events : List (ℕ × StoreEvent)) (e : ℕ × StoreEvent) :
    run (events ++ [e]) = step e.1 e.2 (run events) := by
  unfold run
  rw [List.foldl_append]
  rfl

theorem usesFrom_append (s : Contexts) (events events' : List (ℕ × StoreEvent)) :
    usesFrom s (events ++ events') =
      usesFrom s events ++ usesFrom (events.foldl (fun s e => step e.1 e.2 s) s) events' := by
  induction events generalizing s with
  | nil => rfl
  | cons e events ih =>
    simp only [List.cons_append, usesFrom, List.foldl_cons]
    rw [ih, List.append_assoc]

theorem uses_concat (events : List (ℕ × StoreEvent)) (e : ℕ × StoreEvent) :
    uses (events ++ [e]) = uses events ++ usedBy e.1 e.2 (run events) := by
  unfold uses
  rw [usesFrom_append]
  simp only [usesFrom, List.append_nil]
  rfl

/-! ## Entries -/

section Cache
variable {K V : Type} [DecidableEq K] {cache : Cache K V} {key k : K} {value : V}

theorem find_append_of_notMem (h : key ∉ cache.map Prod.fst) (value : V) :
    find (cache ++ [(key, value)]) key = some value := by
  have hnone : cache.find? (fun e => e.1 = key) = none := by
    rw [List.find?_eq_none]
    intro e he hkey
    apply h
    rw [← of_decide_eq_true hkey]
    exact List.mem_map_of_mem he
  unfold find
  rw [List.find?_append, hnone]
  simp

theorem notMem_delete (cache : Cache K V) (key : K) : key ∉ (delete cache key).map Prod.fst := by
  intro h
  obtain ⟨e, he, hkey⟩ := List.mem_map.mp h
  exact of_decide_eq_true (List.mem_filter.mp he).2 hkey

theorem find_append_delete (h : k ≠ key) (value : V) :
    find (delete cache k ++ [(k, value)]) key = find cache key := by
  unfold find delete
  rw [List.find?_append, List.find?_filter]
  have hlast : [(k, value)].find? (fun e => decide (e.1 = key)) = none := by simp [h]
  rw [hlast, Option.or_none]
  congr 2
  funext e
  by_cases he : e.1 = key
  · simp [he, h.symm]
  · simp [he]

theorem find_filter {p : K × V → Bool} (h : find cache key = some value)
    (hp : p (key, value) = true) : find (cache.filter p) key = some value := by
  induction cache with
  | nil => cases h
  | cons e cache ih =>
    unfold find at h ih ⊢
    by_cases he : e.1 = key
    · have hvalue : e.2 = value := by simpa [he] using h
      have hkeep : p e = true := by
        rw [← he, ← hvalue] at hp
        exact hp
      simp [hkeep, he, hvalue]
    · have hrest : (cache.find? fun e => e.1 = key).map Prod.snd = some value := by
        simpa [he] using h
      rw [List.filter_cons]
      split
      · simpa [he] using ih hrest
      · exact ih hrest

theorem perm_touch (hkeys : (cache.map Prod.fst).Nodup) (h : find cache key = some value) :
    (delete cache key ++ [(key, value)]).Perm cache := by
  obtain ⟨s, t, rfl⟩ := List.append_of_mem (mem_of_find h)
  have hout : ∀ e ∈ s ++ t, e.1 ≠ key := by
    intro e he heq
    rw [List.map_append, List.map_cons, List.nodup_middle, List.nodup_cons,
      ← List.map_append] at hkeys
    exact hkeys.1 (List.mem_map.mpr ⟨e, he, heq⟩)
  have hdelete : delete (s ++ (key, value) :: t) key = s ++ t := by
    have hkeep : (s ++ t).filter (fun e => decide (e.1 ≠ key)) = s ++ t := by
      rw [List.filter_eq_self]
      intro e he
      exact decide_eq_true (hout e he)
    rw [List.filter_append] at hkeep
    unfold delete
    rw [List.filter_append, List.filter_cons_of_neg (by simp)]
    exact hkeep
  rw [hdelete, List.append_assoc]
  exact (List.perm_append_comm).append_left s

end Cache

variable {now : ℕ} {accountId : AccountId} {items : List (String × PriceVariant)}
  {fetchedAt size : ℕ} {variantIds : List String} {context : Context} {s s' : Contexts}
  {event : StoreEvent} {history : List AccountId}

/-! ## What a call does -/

theorem read_cases (now : ℕ) (accountId : AccountId) (variantIds : List String) (s : Contexts) :
    (∃ e, read now accountId variantIds s = (.error e, s)) ∨
    (∃ e, read now accountId variantIds s = (.error e, prune now s)) ∨
    ∃ context, find (prune now s) accountId = some context ∧
      read now accountId variantIds s =
        (.ok context, delete (prune now s) accountId ++ [(accountId, context)]) := by
  unfold read
  split
  · exact .inl ⟨_, rfl⟩
  · cases hfind : find (prune now s) accountId with
    | none => exact .inr (.inl ⟨_, rfl⟩)
    | some context =>
      dsimp only
      split
      · exact .inr (.inl ⟨_, rfl⟩)
      · exact .inr (.inr ⟨context, rfl, rfl⟩)

theorem prune_sublist (now : ℕ) (s : Contexts) : (prune now s).Sublist s := List.filter_sublist

theorem delete_sublist (s : Contexts) (accountId : AccountId) : (delete s accountId).Sublist s :=
  List.filter_sublist

theorem length_variants_contextOf (now : ℕ) (items : List (String × PriceVariant))
    (fetchedAt : ℕ) :
    (contextOf now items fetchedAt).variants.length ≤ maxPriceContextVariants := by
  unfold contextOf
  by_cases h : maxPriceContextVariants < (variantsOf items).length
  · simp [h]
  · simp only [h, decide_false, Bool.false_eq_true, if_false]
    exact Nat.not_lt.mp h

/-- The loop deletes from the front, for as long as there is no room, and there is room behind
it: by induction on the entries that it may delete. -/
theorem evict_spec (hsize : size ≤ maxPriceContextVariants) (s : Contexts) :
    ∃ evicted, s = evicted ++ evict size s ∧
      (∀ i < evicted.length, needsRoom size (s.drop i)) ∧ ¬needsRoom size (evict size s) := by
  induction s with
  | nil =>
    refine ⟨[], rfl, fun i hi => absurd hi (Nat.not_lt_zero i), ?_⟩
    unfold needsRoom held evict
    rw [List.total_nil, Nat.zero_add, not_or]
    exact ⟨by decide, Nat.not_lt.mpr hsize⟩
  | cons oldest rest ih =>
    rw [evict]
    split
    · rename_i hroom
      obtain ⟨evicted, hsplit, hevicted, hdone⟩ := ih
      refine ⟨oldest :: evicted, congrArg (oldest :: ·) hsplit, ?_, hdone⟩
      intro i hi
      cases i with
      | zero => exact hroom
      | succ i => exact hevicted i (Nat.lt_of_succ_lt_succ hi)
    · rename_i hroom
      exact ⟨[], rfl, fun i hi => absurd hi (Nat.not_lt_zero i), hroom⟩

theorem evict_sublist (size : ℕ) (s : Contexts) : (evict size s).Sublist s := by
  induction s with
  | nil => exact List.Sublist.refl []
  | cons oldest rest ih =>
    rw [evict]
    split
    · exact ih.cons oldest
    · exact List.Sublist.refl _

theorem notMem_evict (size : ℕ) (s : Contexts) (accountId : AccountId) :
    accountId ∉ (evict size (delete s accountId)).map Prod.fst := by
  intro h
  apply notMem_delete s accountId
  exact ((evict_sublist size _).map Prod.fst).subset h

/-! ## The bounds -/

/-- The store keeps to its bounds, and its order is the one in which the accounts in the history
were last used. -/
structure Bounded (history : List AccountId) (s : Contexts) : Prop where
  recent : List.ByRecency history (s.map Prod.fst)
  accounts : s.length ≤ maxPriceContextAccounts
  variants : held s ≤ maxPriceContextVariants

theorem held_append (s s' : Contexts) : held (s ++ s') = held s + held s' :=
  List.total_append s s' _

theorem held_sublist (h : s'.Sublist s) : held s' ≤ held s := by
  unfold held
  induction h with
  | slnil => exact Nat.le_refl _
  | cons e _ ih =>
    rw [List.total_cons]
    omega
  | cons_cons e _ ih =>
    rw [List.total_cons, List.total_cons]
    omega

theorem Bounded.sublist (h : Bounded history s) (hsub : s'.Sublist s) : Bounded history s' := by
  constructor
  · exact h.recent.sublist (hsub.map Prod.fst)
  · exact hsub.length_le.trans h.accounts
  · exact (held_sublist hsub).trans h.variants

theorem Bounded.concat (h : Bounded history s) (hnew : accountId ∉ s.map Prod.fst)
    (hroom : ¬needsRoom context.variants.length s) :
    Bounded (history ++ [accountId]) (s ++ [(accountId, context)]) := by
  unfold needsRoom at hroom
  rw [not_or] at hroom
  constructor
  · rw [List.map_append]
    exact h.recent.concat hnew
  · rw [List.length_append, List.length_singleton]
    omega
  · rw [held_append]
    have hlast : held [(accountId, context)] = context.variants.length := by
      unfold held
      rw [List.total_cons, List.total_nil, Nat.add_zero]
    omega

theorem Bounded.use (h : Bounded history s) (hfind : find s accountId = some context) :
    Bounded (history ++ [accountId]) (delete s accountId ++ [(accountId, context)]) := by
  have hperm := perm_touch h.recent.nodup hfind
  have hdelete : List.ByRecency history ((delete s accountId).map Prod.fst) :=
    h.recent.sublist ((delete_sublist s accountId).map Prod.fst)
  constructor
  · rw [List.map_append]
    exact hdelete.concat (notMem_delete s accountId)
  · rw [hperm.length_eq]
    exact h.accounts
  · unfold held
    rw [hperm.total_eq]
    exact h.variants

theorem Bounded.seed (h : Bounded history s) (now : ℕ) (accountId : AccountId)
    (items : List (String × PriceVariant)) (fetchedAt : ℕ) :
    Bounded (history ++ [accountId]) (seed now accountId items fetchedAt s) := by
  have hold : Bounded history (delete (prune now s) accountId) :=
    (h.sublist (prune_sublist now s)).sublist (delete_sublist _ _)
  obtain ⟨-, -, -, hroom⟩ :=
    evict_spec (length_variants_contextOf now items fetchedAt) (delete (prune now s) accountId)
  exact (hold.sublist (evict_sublist _ _)).concat (notMem_evict _ _ _) hroom

theorem Bounded.step (h : Bounded history s) (now : ℕ) (event : StoreEvent) :
    Bounded (history ++ usedBy now event s) (step now event s) := by
  have hprune : Bounded history (prune now s) := h.sublist (prune_sublist now s)
  cases event with
  | seed accountId items fetchedAt => exact h.seed now accountId items fetchedAt
  | read accountId variantIds =>
    unfold PriceOverview.step usedBy
    rcases read_cases now accountId variantIds s with ⟨e, he⟩ | ⟨e, he⟩ | ⟨context, hfind, hread⟩
    · simpa only [he, List.append_nil] using h
    · simpa only [he, List.append_nil] using hprune
    · simpa only [hread] using hprune.use hfind
  | prune =>
    rw [usedBy, List.append_nil]
    exact hprune
  | clearAccount accountId =>
    rw [usedBy, List.append_nil]
    exact h.sublist (delete_sublist s accountId)
  | shutdown =>
    rw [usedBy, List.append_nil]
    exact h.sublist (List.nil_sublist s)

theorem run_bounded (events : List (ℕ × StoreEvent)) : Bounded (uses events) (run events) := by
  induction events using List.reverseRecOn with
  | nil => exact ⟨List.ByRecency.nil _, Nat.zero_le _, Nat.zero_le _⟩
  | append_singleton events e ih =>
    rw [run_concat, uses_concat]
    exact ih.step e.1 e.2

/-! ## The context that was seeded last -/

/-- Calls that neither seed a context nor drop the one of an account on purpose. -/
def StoreEvent.Keeps : StoreEvent → Prop
  | .read _ _ | .prune => True
  | .seed _ _ _ | .clearAccount _ | .shutdown => False

theorem find_prune (h : find s accountId = some context) (hnow : now < context.expiresAt) :
    find (prune now s) accountId = some context :=
  find_filter h (decide_eq_true hnow)

theorem find_seed (now : ℕ) (accountId : AccountId) (items : List (String × PriceVariant))
    (fetchedAt : ℕ) (s : Contexts) :
    find (seed now accountId items fetchedAt s) accountId =
      some (contextOf now items fetchedAt) :=
  find_append_of_notMem (notMem_evict _ _ _) _

theorem find_step (h : find s accountId = some context) (hkeeps : event.Keeps)
    (hnow : now < context.expiresAt) : find (step now event s) accountId = some context := by
  have hprune := find_prune h hnow
  cases event with
  | seed => cases hkeeps
  | clearAccount => cases hkeeps
  | shutdown => cases hkeeps
  | prune => exact hprune
  | read other variantIds =>
    rw [step]
    rcases read_cases now other variantIds s with ⟨e, he⟩ | ⟨e, he⟩ | ⟨found, hfind, hread⟩
    · rw [he]
      exact h
    · rw [he]
      exact hprune
    · rw [hread]
      dsimp only
      by_cases heq : other = accountId
      · subst heq
        rw [Option.some.inj (hprune.symm.trans hfind)]
        exact find_append_of_notMem (notMem_delete _ _) found
      · rw [find_append_delete heq]
        exact hprune

theorem find_run {before after : List (ℕ × StoreEvent)}
    (hbefore : find (run before) accountId = some context)
    (hafter : ∀ e ∈ after, e.2.Keeps ∧ e.1 < context.expiresAt) :
    find (run (before ++ after)) accountId = some context := by
  induction after using List.reverseRecOn with
  | nil => rwa [List.append_nil]
  | append_singleton after e ih =>
    obtain ⟨hkeeps, hnow⟩ := hafter e (by simp)
    rw [← List.append_assoc, run_concat]
    exact find_step (ih fun e he => hafter e (List.mem_append_left _ he)) hkeeps hnow

/-! ## Runs and their bounds -/

/-- `kept` is what room for `size` more variants is made to: the first entries leave, for as long
as there is no room, and each of them was last used before each one that stays. -/
def LeavesRoom (history : List AccountId) (size : ℕ) (s kept : Contexts) : Prop :=
  ∃ evicted, s = evicted ++ kept ∧
    (∀ i < evicted.length, needsRoom size (s.drop i)) ∧ ¬needsRoom size kept ∧
    ∀ x ∈ evicted, ∀ y ∈ kept, y.1 ∈ history.since x.1

theorem Bounded.leavesRoom (h : Bounded history s) (hsize : size ≤ maxPriceContextVariants) :
    LeavesRoom history size s (evict size s) := by
  obtain ⟨evicted, hsplit, hevicted, hroom⟩ := evict_spec hsize s
  refine ⟨evicted, hsplit, hevicted, hroom, ?_⟩
  intro x hx y hy
  have hrecent := h.recent
  rw [hsplit, List.map_append] at hrecent
  exact hrecent.later (List.mem_map_of_mem hx) (List.mem_map_of_mem hy)

/-- In every run the store keeps to both bounds; a seed evicts the least recently used contexts
and leaves room, whatever its size; and what is seeded last is there until it expires. -/
theorem contexts_bounded (events : List (ℕ × StoreEvent)) :
    (run events).length ≤ maxPriceContextAccounts ∧
    held (run events) ≤ maxPriceContextVariants ∧
    (∀ now accountId items fetchedAt, ∃ kept,
      LeavesRoom (uses events) (contextOf now items fetchedAt).variants.length
        (delete (prune now (run events)) accountId) kept ∧
      run (events ++ [(now, .seed accountId items fetchedAt)]) =
        kept ++ [(accountId, contextOf now items fetchedAt)]) ∧
    ∀ now accountId items fetchedAt after,
      (∀ e ∈ after, StoreEvent.Keeps e.2 ∧ e.1 < now + priceContextTtl) →
        find (run (events ++ (now, .seed accountId items fetchedAt) :: after)) accountId =
          some (contextOf now items fetchedAt) := by
  have hrun := run_bounded events
  refine ⟨hrun.accounts, hrun.variants, ?_, ?_⟩
  · intro now accountId items fetchedAt
    have hold : Bounded (uses events) (delete (prune now (run events)) accountId) :=
      (hrun.sublist (prune_sublist now _)).sublist (delete_sublist _ _)
    refine ⟨_, hold.leavesRoom (length_variants_contextOf now items fetchedAt), ?_⟩
    rw [run_concat]
    rfl
  · intro now accountId items fetchedAt after hafter
    rw [List.append_cons]
    apply find_run _ hafter
    rw [run_concat]
    exact find_seed now accountId items fetchedAt _

theorem contexts_bounded_read :
    find (run [(0, .seed "a" [("753:6:440:0", ⟨some "440-Card", some "0.10", true⟩)] 0),
      (299999, .read "a" ["753:6:440:0"])]) "a" =
        some (contextOf 0 [("753:6:440:0", ⟨some "440-Card", some "0.10", true⟩)] 0) :=
  (contexts_bounded []).2.2.2 0 "a" _ 0 [(299999, .read "a" ["753:6:440:0"])] (by
    intro e he
    rw [List.mem_singleton.mp he]
    exact ⟨trivial, by decide⟩)

/-- Pruning drops the context that was seeded last, once it has expired. -/
theorem not_contexts_bounded_present :
    ¬∀ before now accountId items fetchedAt after,
      (∀ e ∈ after, StoreEvent.Keeps e.2) →
        (find (run (before ++ (now, .seed accountId items fetchedAt) :: after))
          accountId).isSome := by
  intro h
  have hpresent := h [] 0 "a" [] 0 [(300000, .prune)] (by
    intro e he
    rw [List.mem_singleton.mp he]
    trivial)
  revert hpresent
  decide

end PriceOverview
end SteamBee.Inventory
