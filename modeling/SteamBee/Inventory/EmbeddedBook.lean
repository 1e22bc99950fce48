import Mathlib.Data.List.TakeWhile
import SteamBee.Inventory.OrderBook
import SteamBee.Text.Quoting

/-! The order book that is read off a listing page is the one of the first order-book query, as
long as the key of that query is not written anywhere before it. -/
namespace SteamBee.Inventory
open Text

/-! ## Pages -/

/-- How the queries of a page are written: as they are, or inside a string literal. -/
inductive Quoting where
  | plain | escaped
  deriving DecidableEq, Repr

def Quoting.quote : Quoting → List Char
  | .plain => ['"']
  | .escaped => ['\\', '"']

def Quoting.write : Quoting → List Char → List Char
  | .plain, text => text
  | .escaped, text => Text.escaped text

/-- A dehydrated query: what its state has behind `{"state":{"data":`, up to its key, and the rest
of it behind `"queryKey":[`. -/
structure Dehydrated where
  data : List Char
  key : List Char

namespace Dehydrated

def state (query : Dehydrated) : List Char := stateStart ++ query.data

def text (query : Dehydrated) : List Char :=
  query.state ++ "\"queryKey\":[".toList ++ query.key

def IsOrderBook (query : Dehydrated) : Prop := "\"market\",\"orderbook\",".toList <+: query.key

end Dehydrated

/-- A listing page with its first order-book query, and any text around its queries. -/
structure Listing where
  quoting : Quoting
  front : List Char
  earlier : List Dehydrated
  query : Dehydrated
  later : List Dehydrated
  back : List Char

namespace Listing

def before (listing : Listing) : List Char :=
  listing.front ++ listing.earlier.flatMap fun query => listing.quoting.write query.text

def html (listing : Listing) : List Char :=
  listing.before ++ listing.quoting.write listing.query.text ++
    (listing.later.flatMap fun query => listing.quoting.write query.text) ++ listing.back

structure Proper (listing : Listing) : Prop where
  orderBook : listing.query.IsOrderBook
  first : ¬ listing.quoting.write orderBookKey <:+:
    listing.before ++ listing.quoting.write listing.query.state
  unquoted : listing.quoting = .plain → ¬ Text.escaped orderBookKey <:+: listing.html
  nested : ¬ stateStart <:+: listing.query.data
  short : utf16Length (listing.quoting.write listing.query.state) ≤ 20000

end Listing

/-! ## Members of a state -/

def memberKey (name : String) : List Char := '"' :: (name.toList ++ ['"', ':'])

/-- A member has the value `null`, or a natural number of at most 15 digits. -/
structure IsValue (text : List Char) (value : Option ℕ) : Prop where
  closed : ∃ literal close after, text = literal ++ close :: after ∧ (close = ',' ∨ close = '}') ∧
    (literal = "null".toList ∧ value = none ∨
      literal ≠ [] ∧ literal.length ≤ 15 ∧ (∀ c ∈ literal, c.isDigit = true) ∧
        value = some (Nat.ofDigitChars 10 literal 0))

structure OnceBefore (name : String) (state rest : List Char) : Prop where
  split : ∃ before, state = before ++ (memberKey name ++ rest) ∧ ¬ memberKey name <:+: before
  last : ¬ memberKey name <:+: rest

def HasMember (name : String) (state : List Char) (value : Option ℕ) : Prop :=
  ∃ rest, OnceBefore name state rest ∧ IsValue rest value

def LacksMember (name : String) (state : List Char) : Prop :=
  ¬ memberKey name <:+: state ∨
    ∃ rest, OnceBefore name state rest ∧ ∀ value, ¬ IsValue rest value

def bookMembers : List String := ["eCurrency", "amtMinSellOrder", "amtMaxBuyOrder"]

variable {name : String} {text state rest : List Char} {value : Option ℕ} {listing : Listing}

theorem behind_eq_some_iff {needle text rest : List Char} :
    behind needle text = some rest ↔ text = needle ++ rest := by
  unfold behind
  constructor
  · intro h
    split at h
    next hprefix =>
      obtain ⟨tail, rfl⟩ := List.isPrefixOf_iff_prefix.mp hprefix
      rw [List.drop_left] at h
      rw [Option.some.inj h]
    next => cases h
  · rintro rfl
    rw [if_pos (List.isPrefixOf_iff_prefix.mpr (List.prefix_append needle rest)), List.drop_left]

theorem fieldAt_of_not_prefix (h : ¬ memberKey name <+: text) : fieldAt name text = none := by
  have hnone : behind (memberKey name) text = none := by
    unfold behind
    rw [if_neg]
    rw [List.isPrefixOf_iff_prefix]
    exact h
  show (behind (memberKey name) text).bind _ = none
  rw [hnone]
  rfl

theorem exists_close (h : text.head? = some ',' ∨ text.head? = some '}') :
    ∃ close after, text = close :: after ∧ (close = ',' ∨ close = '}') := by
  cases text with
  | nil => simp at h
  | cons close after =>
    refine ⟨close, after, rfl, ?_⟩
    simpa using h

/-- The pattern reads the value of a member. -/
theorem fieldAt_memberKey (name : String) (rest : List Char) (value : Option ℕ) :
    fieldAt name (memberKey name ++ rest) = some value ↔ IsValue rest value := by
  have hbehind : behind (memberKey name) (memberKey name ++ rest) = some rest :=
    behind_eq_some_iff.mpr rfl
  unfold fieldAt
  change (behind (memberKey name) (memberKey name ++ rest)).bind _ = _ ↔ _
  rw [hbehind, Option.bind_some]
  constructor
  · intro h
    split at h
    next after hnull =>
      rw [behind_eq_some_iff] at hnull
      split at h
      next hclose =>
        obtain rfl := Option.some.inj h
        obtain ⟨close, rest, rfl, hend⟩ := exists_close hclose
        constructor
        exact ⟨_, close, rest, hnull, hend, Or.inl ⟨rfl, rfl⟩⟩
      next => cases h
    next =>
      dsimp only at h
      split at h
      next hdigits =>
        obtain ⟨hne, hlength, hclose⟩ := hdigits
        obtain rfl := Option.some.inj h
        have hall : ∀ c ∈ rest.takeWhile Char.isDigit, c.isDigit = true :=
          fun c hc => List.mem_takeWhile_imp hc
        have hsplit : rest = rest.takeWhile Char.isDigit ++ rest.dropWhile Char.isDigit :=
          List.takeWhile_append_dropWhile.symm
        obtain ⟨close, after, hafter, hend⟩ := exists_close hclose
        rw [hafter] at hsplit
        constructor
        exact ⟨_, close, after, hsplit, hend, Or.inr ⟨hne, hlength, hall, rfl⟩⟩
      next => cases h
  · rintro ⟨literal, close, after, rfl, hclose, hliteral⟩
    have hhead : (close :: after).head? = some ',' ∨ (close :: after).head? = some '}' := by
      rcases hclose with rfl | rfl
      · exact Or.inl rfl
      · exact Or.inr rfl
    rcases hliteral with ⟨rfl, rfl⟩ | ⟨hne, hlength, hdigits, rfl⟩
    · rw [behind_eq_some_iff.mpr rfl]
      exact if_pos hhead
    · have hstop : close.isDigit = false := by rcases hclose with rfl | rfl <;> rfl
      have hnumber : behind "null".toList (literal ++ close :: after) = none := by
        cases literal with
        | nil => exact absurd rfl hne
        | cons c literal =>
          have hc : c ≠ 'n' := by
            rintro rfl
            exact absurd (hdigits 'n' List.mem_cons_self) (by decide)
          simp [behind, List.isPrefixOf, Ne.symm hc]
      have htake : (literal ++ close :: after).takeWhile Char.isDigit = literal := by
        rw [List.takeWhile_append_of_pos hdigits, List.takeWhile_cons, if_neg (by simp [hstop]),
          List.append_nil]
      have hdrop : (literal ++ close :: after).dropWhile Char.isDigit = close :: after := by
        rw [List.dropWhile_append_of_pos hdigits, List.dropWhile_cons, if_neg (by simp [hstop])]
      rw [hnumber]
      dsimp only
      rw [htake, hdrop]
      exact if_pos ⟨hne, hlength, hhead⟩

/-! ## The search for a member -/

theorem fieldAt_doubled (hname : '\\' ∉ name.toList) (text : List Char) :
    fieldAt name (doubled text) = fieldAt name text := by
  have hkey : '\\' ∉ memberKey name := by
    unfold memberKey
    simpa using hname
  unfold fieldAt
  change (behind (memberKey name) (doubled text)).bind _ = (behind (memberKey name) text).bind _
  rw [behind_doubled hkey]
  cases behind (memberKey name) text with
  | none => rfl
  | some rest =>
    rw [Option.map_some, Option.bind_some, Option.bind_some, behind_doubled (by decide)]
    cases behind "null".toList rest with
    | none =>
      dsimp only [Option.map_none]
      rw [(takeWhile_doubled rest).1, (takeWhile_doubled rest).2]
    | some after =>
      dsimp only [Option.map_some]
      rw [head_doubled]

theorem bookOfState_doubled (state : List Char) :
    bookOfState (doubled state) = bookOfState state := by
  have hfield (name : String) (hname : '\\' ∉ name.toList) :
      firstMatch (fieldAt name) (doubled state) = firstMatch (fieldAt name) state := by
    apply firstMatch_doubled (fieldAt_doubled hname)
    intro text
    apply fieldAt_of_not_prefix
    simp [memberKey]
  unfold bookOfState
  rw [hfield "eCurrency" (by decide), hfield "amtMinSellOrder" (by decide),
    hfield "amtMaxBuyOrder" (by decide)]

theorem unbordered_memberKey (hname : name ∈ bookMembers) : Unbordered (memberKey name) := by
  simp only [bookMembers, List.mem_cons, List.not_mem_nil, or_false] at hname
  rcases hname with rfl | rfl | rfl <;> decide

theorem firstMatch_of_once (hname : name ∈ bookMembers) (h : OnceBefore name state rest) :
    firstMatch (fieldAt name) state = fieldAt name (memberKey name ++ rest) := by
  obtain ⟨before, rfl, hbefore⟩ := h.split
  exact firstMatch_once (fun _ => fieldAt_of_not_prefix) (unbordered_memberKey hname) hbefore h.last

theorem firstMatch_of_hasMember (hname : name ∈ bookMembers) (h : HasMember name state value) :
    firstMatch (fieldAt name) state = some value := by
  obtain ⟨rest, honce, hvalue⟩ := h
  rw [firstMatch_of_once hname honce]
  exact (fieldAt_memberKey name rest value).mpr hvalue

theorem firstMatch_of_lacksMember (hname : name ∈ bookMembers) (h : LacksMember name state) :
    firstMatch (fieldAt name) state = none := by
  rcases h with hmissing | ⟨rest, honce, hvalue⟩
  · exact firstMatch_eq_none (fun _ => fieldAt_of_not_prefix) hmissing
  · rw [firstMatch_of_once hname honce, Option.eq_none_iff_forall_ne_some]
    intro value hfield
    exact hvalue value ((fieldAt_memberKey name rest value).mp hfield)

/-! ## The book -/

/-- What is read when the members of the state are there. -/
theorem bookOfState_of_members {currency lowest highest : Option ℕ}
    (hcurrency : HasMember "eCurrency" state currency)
    (hlowest : HasMember "amtMinSellOrder" state lowest)
    (hhighest : HasMember "amtMaxBuyOrder" state highest) :
    bookOfState state = currency.map fun currencyId =>
      ⟨currencyId, lowest.filter (· != 0), highest.filter (· != 0)⟩ := by
  unfold bookOfState
  rw [firstMatch_of_hasMember (by decide) hcurrency, firstMatch_of_hasMember (by decide) hlowest,
    firstMatch_of_hasMember (by decide) hhighest]
  cases currency <;> rfl

theorem bookOfState_of_lacks (hname : name ∈ bookMembers) (h : LacksMember name state) :
    bookOfState state = none := by
  have hnone := firstMatch_of_lacksMember hname h
  unfold bookOfState
  simp only [bookMembers, List.mem_cons, List.not_mem_nil, or_false] at hname
  rcases hname with rfl | rfl | rfl
  · rw [hnone]
    rfl
  · rw [hnone]
    cases firstMatch (fieldAt "eCurrency") state with
    | none => rfl
    | some currency => cases currency <;> rfl
  · rw [hnone]
    cases firstMatch (fieldAt "eCurrency") state with
    | none => rfl
    | some currency =>
      cases currency with
      | none => rfl
      | some currencyId => cases firstMatch (fieldAt "amtMinSellOrder") state <;> rfl

/-! ## The cut -/

theorem write_append (quoting : Quoting) (left right : List Char) :
    quoting.write (left ++ right) = quoting.write left ++ quoting.write right := by
  cases quoting with
  | plain => rfl
  | escaped => exact escaped_append left right

theorem replaceAll_write (quoting : Quoting) :
    replaceAll ['"'] quoting.quote orderBookKey = quoting.write orderBookKey ∧
      replaceAll ['"'] quoting.quote stateStart = quoting.write stateStart := by
  cases quoting <;> decide +kernel

theorem unbordered_write (quoting : Quoting) :
    Unbordered (quoting.write orderBookKey) ∧ Unbordered (quoting.write stateStart) ∧
      Clear (quoting.write stateStart) (quoting.write orderBookKey) := by
  cases quoting <;> decide +kernel

/-- The members of a state are found as it is written. -/
theorem bookOfState_write (quoting : Quoting) (state : List Char) :
    bookOfState (replaceAll quoting.quote ['"'] (quoting.write state)) = bookOfState state := by
  cases quoting with
  | plain => exact congrArg bookOfState (replaceAll_quote state)
  | escaped =>
    show bookOfState (replaceAll ['\\', '"'] ['"'] (escaped state)) = _
    rw [replaceAll_escaped, bookOfState_doubled]

theorem not_infix_write {data : List Char} (h : ¬ stateStart <:+: data) (quoting : Quoting) :
    ¬ quoting.write stateStart <:+: quoting.write data := by
  cases quoting with
  | plain => exact h
  | escaped =>
    intro hinfix
    apply h
    exact infix_of_escaped (c := '{') (by decide) (by decide) hinfix

/-- A page is cut at the key of its first order-book query, and before it at the state. -/
theorem Listing.exists_split (h : listing.Proper) : ∃ tail,
    listing.html =
      listing.before ++ (listing.quoting.write stateStart ++
        listing.quoting.write listing.query.data) ++
      (listing.quoting.write orderBookKey ++ tail) := by
  obtain ⟨rest, hrest⟩ := h.orderBook
  have hkey : "\"queryKey\":[".toList ++ listing.query.key = orderBookKey ++ rest := by
    rw [← hrest, ← List.append_assoc]
    rfl
  refine ⟨listing.quoting.write rest ++
    (listing.later.flatMap fun query => listing.quoting.write query.text) ++ listing.back, ?_⟩
  unfold Listing.html Dehydrated.text Dehydrated.state
  rw [List.append_assoc (stateStart ++ _), hkey]
  simp only [write_append, List.append_assoc]

theorem bookIn_html (h : listing.Proper) :
    bookIn listing.quoting.quote listing.html = some (bookOfState listing.query.state) := by
  obtain ⟨tail, hhtml⟩ := Listing.exists_split h
  obtain ⟨hkey, hstart⟩ := replaceAll_write listing.quoting
  obtain ⟨hkeyOnce, hstartOnce, hclear⟩ := unbordered_write listing.quoting
  have hstate : listing.quoting.write listing.query.state =
      listing.quoting.write stateStart ++ listing.quoting.write listing.query.data :=
    write_append _ _ _
  have hfirst := h.first
  have hshort := h.short
  have hbook := bookOfState_write listing.quoting listing.query.state
  rw [hstate] at hfirst hshort hbook
  have hcut : ((listing.html.take (listing.before ++ (listing.quoting.write stateStart ++
      listing.quoting.write listing.query.data)).length).drop listing.before.length) =
      listing.quoting.write stateStart ++ listing.quoting.write listing.query.data := by
    rw [hhtml, List.take_left, List.drop_left]
  unfold bookIn
  rw [hkey, hstart]
  have hend : indexOf (listing.quoting.write orderBookKey) listing.html =
      some (listing.before ++ (listing.quoting.write stateStart ++
        listing.quoting.write listing.query.data)).length := by
    rw [hhtml]
    exact indexOf_append tail hkeyOnce hfirst
  have hlast : lastIndexOf (listing.quoting.write stateStart) listing.html
      (listing.before ++ (listing.quoting.write stateStart ++
        listing.quoting.write listing.query.data)).length = some listing.before.length := by
    rw [hhtml]
    exact lastIndexOf_append hstartOnce hclear (not_infix_write h.nested listing.quoting)
  rw [hend, Option.map_some, hlast]
  show some (if 20000 < utf16Length _ then none else bookOfState _) = _
  rw [hcut, if_neg (Nat.not_lt.mpr hshort), hbook]

/-- The page is read as the state of its first order-book query. -/
theorem parseListingOrderBook_html (h : listing.Proper) :
    parseListingOrderBook listing.html = bookOfState listing.query.state := by
  have hbook := bookIn_html h
  unfold parseListingOrderBook
  cases hquoting : listing.quoting with
  | plain =>
    have hnone : bookIn ['\\', '"'] listing.html = none := by
      unfold bookIn
      have hkey : replaceAll ['"'] ['\\', '"'] orderBookKey = escaped orderBookKey :=
        (replaceAll_write .escaped).1
      rw [hkey, indexOf_eq_none (h.unquoted hquoting)]
      rfl
    rw [hquoting] at hbook
    rw [hnone]
    show (bookIn Quoting.plain.quote listing.html).join = _
    rw [hbook]
    rfl
  | escaped =>
    rw [hquoting] at hbook
    have hescaped : bookIn ['\\', '"'] listing.html = some (bookOfState listing.query.state) :=
      hbook
    rw [hescaped]

/-- The book of a page is that of its first order-book query, if the key of such a query is not
written before it, and there is none where a member of that query is not as it should be. -/
theorem parseListingOrderBook_first (h : listing.Proper) :
    (∀ currency lowest highest, HasMember "eCurrency" listing.query.state currency →
      HasMember "amtMinSellOrder" listing.query.state lowest →
      HasMember "amtMaxBuyOrder" listing.query.state highest →
      parseListingOrderBook listing.html = currency.map fun currencyId =>
        ⟨currencyId, lowest.filter (· != 0), highest.filter (· != 0)⟩) ∧
    ∀ name ∈ bookMembers, LacksMember name listing.query.state →
      parseListingOrderBook listing.html = none := by
  rw [parseListingOrderBook_html h]
  exact ⟨fun _ _ _ => bookOfState_of_members, fun _ => bookOfState_of_lacks⟩

/-! ## Two pages -/

def cardQuery : Dehydrated where
  data := "\x7b\"amtMaxBuyOrder\":7,\"amtMinSellOrder\":10,\"eCurrency\":3\x7d\x7d,".toList
  key := "\"market\",\"orderbook\",753,\"209330-Card\"]\x7d".toList

def otherQuery : Dehydrated where
  data := "\x7b\"amtMaxBuyOrder\":70,\"amtMinSellOrder\":100,\"eCurrency\":1\x7d\x7d,".toList
  key := "\"market\",\"orderbook\",753,\"Other\"]\x7d".toList

def quotingQuery : Dehydrated where
  data := '"' :: (escaped otherQuery.text ++ "\"\x7d,".toList)
  key := "\"page\"]\x7d".toList

theorem hasMember_number (before literal after : List Char) (close : Char)
    (hstate : state = before ++ (memberKey name ++ (literal ++ close :: after)))
    (hbefore : ¬ memberKey name <:+: before)
    (hlast : ¬ memberKey name <:+: literal ++ close :: after)
    (hclose : close = ',' ∨ close = '}')
    (hliteral : literal ≠ [] ∧ literal.length ≤ 15 ∧ literal.all Char.isDigit = true) :
    HasMember name state (some (Nat.ofDigitChars 10 literal 0)) := by
  obtain ⟨hne, hlength, hall⟩ := hliteral
  have hdigits : ∀ c ∈ literal, c.isDigit = true := List.all_eq_true.mp hall
  refine ⟨_, ⟨⟨before, hstate, hbefore⟩, hlast⟩, ⟨literal, close, after, rfl, hclose, ?_⟩⟩
  exact Or.inr ⟨hne, hlength, hdigits, rfl⟩

theorem hasMember_cardQuery : HasMember "eCurrency" cardQuery.state (some 3) ∧
    HasMember "amtMinSellOrder" cardQuery.state (some 10) ∧
    HasMember "amtMaxBuyOrder" cardQuery.state (some 7) := by
  refine ⟨?_, ?_, ?_⟩
  · apply hasMember_number
      (stateStart ++ "\x7b\"amtMaxBuyOrder\":7,\"amtMinSellOrder\":10,".toList) ['3']
      "\x7d,".toList '}' <;> decide +kernel
  · apply hasMember_number (stateStart ++ "\x7b\"amtMaxBuyOrder\":7,".toList) ['1', '0']
      "\"eCurrency\":3\x7d\x7d,".toList ',' <;> decide +kernel
  · apply hasMember_number (stateStart ++ ['{']) ['7']
      "\"amtMinSellOrder\":10,\"eCurrency\":3\x7d\x7d,".toList ',' <;> decide +kernel

/-- A page may quote a query in the text of another one, and is then read as what it quotes. -/
theorem not_parseListingOrderBook_first : ¬ ∀ listing : Listing, listing.query.IsOrderBook →
    (∀ query ∈ listing.earlier, ¬ query.IsOrderBook) → ¬ stateStart <:+: listing.query.data →
    utf16Length (listing.quoting.write listing.query.state) ≤ 20000 →
    ∀ currency lowest highest, HasMember "eCurrency" listing.query.state currency →
      HasMember "amtMinSellOrder" listing.query.state lowest →
      HasMember "amtMaxBuyOrder" listing.query.state highest →
      parseListingOrderBook listing.html = currency.map fun currencyId =>
        ⟨currencyId, lowest.filter (· != 0), highest.filter (· != 0)⟩ := by
  intro h
  have hread : parseListingOrderBook
      (Listing.html ⟨.plain, [], [], cardQuery, [quotingQuery], []⟩) =
        some ⟨1, some 100, some 70⟩ := by decide +kernel
  obtain ⟨hcurrency, hlowest, hhighest⟩ := hasMember_cardQuery
  have hclaimed := h ⟨.plain, [], [], cardQuery, [quotingQuery], []⟩
    (by unfold Dehydrated.IsOrderBook; decide +kernel)
    (fun _ hquery => nomatch hquery) (by decide +kernel) (by decide +kernel) _ _ _ hcurrency
    hlowest hhighest
  rw [hread] at hclaimed
  revert hclaimed
  decide +kernel

/-- The book of the card between the queries of another item, all inside a literal. -/
theorem parseListingOrderBook_first_card :
    parseListingOrderBook
      (Listing.html ⟨.escaped, [], [quotingQuery], cardQuery, [otherQuery], []⟩) =
        some ⟨3, some 10, some 7⟩ := by
  have hproper : Listing.Proper ⟨.escaped, [], [quotingQuery], cardQuery, [otherQuery], []⟩ := by
    constructor
    case orderBook =>
      unfold Dehydrated.IsOrderBook
      decide +kernel
    case first => decide +kernel
    case unquoted => exact fun hplain => nomatch hplain
    case nested => decide +kernel
    case short => decide +kernel
  obtain ⟨hcurrency, hlowest, hhighest⟩ := hasMember_cardQuery
  exact (parseListingOrderBook_first hproper).1 _ _ _ hcurrency hlowest hhighest

end SteamBee.Inventory
