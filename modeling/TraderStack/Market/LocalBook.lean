import TraderStack.Models
import TraderStack.Lib.Machine
import TraderStack.Lib.TopLevels

/-!
# The local order book (market/adapters.py)

The venue's book channel sends a snapshot of its best levels and then only what changes among
them. The parser keeps every level it was told of and shows the best of these, so a level that
the venue stopped maintaining stays in the local book.

- `agrees_merge`: the local book keeps the venue's best levels through every message;
- `listing_agrees`: so it does along every conforming stream;
- `shows_top_iff`: **the local book shows the venue's best levels** after a message exactly when
  every level that stands announced but is gone at the venue has so many better ones there.
-/

namespace TraderStack

open Lib

/-! ## Messages -/

/-- `BookLevel` (market/models.py:55–57), with its validators as fields. -/
structure BookLevel where
  price : ℚ
  qty : ℚ
  price_pos : 0 < price
  qty_nonneg : 0 ≤ qty

/-- A level as its two numbers. -/
def BookLevel.pair (l : BookLevel) : ℚ × ℚ := (l.price, l.qty)

/-- `BookSnapshot` (market/models.py:60–70). -/
structure BookSnapshot where
  source : MarketSource
  symbol : String
  observedAt : Time
  bids : List BookLevel
  asks : List BookLevel

/-- A level of a message: the price and the quantity, where they are numbers. -/
structure LevelRow where
  price : Option ℚ
  qty : Option ℚ

/-- The row of a message: the members that are of the expected type, and the time its text
stands for, if it does. Items of the lists that are no objects are `none`. -/
structure BookRow where
  symbol : Option String
  bids : Option (List (Option LevelRow))
  asks : Option (List (Option LevelRow))
  timestamp : Option Time

/-- A message of the websocket. -/
structure KrakenMessage where
  channel : Option String
  type : Option String
  data : Option (List (Option BookRow))

/-- The field of a level that fails its validation. -/
inductive BookLevelError where
  | price
  | qty
deriving DecidableEq

/-! ## The parser -/

/-- `_LocalOrderBook` (lines 160–163). -/
structure LocalOrderBook where
  bids : Dict ℚ ℚ
  asks : Dict ℚ ℚ

/-- One level of `_merge_levels` (lines 183–191). -/
def mergeLevel (side : Dict ℚ ℚ) : Option LevelRow → Dict ℚ ℚ
  | some ⟨some price, some qty⟩ => if qty ≤ 0 then side.erase price else side.set price qty
  | _ => side

/-- `_merge_levels` (lines 182–191). -/
def mergeLevels (side : Dict ℚ ℚ) (levels : List (Option LevelRow)) : Dict ℚ ℚ :=
  levels.foldl mergeLevel side

namespace LocalOrderBook

/-- A book without levels. -/
def empty : LocalOrderBook := ⟨Dict.empty, Dict.empty⟩

/-- `apply` (lines 165–170). -/
def apply (book : LocalOrderBook) (messageType : String) (bids asks : List (Option LevelRow)) :
    LocalOrderBook :=
  let book := if messageType = "snapshot" then empty else book
  { bids := mergeLevels book.bids bids
    asks := mergeLevels book.asks asks }

/-- `BookLevel(price=..., qty=...)`. -/
def level (e : ℚ × ℚ) : Except BookLevelError BookLevel :=
  if hprice : 0 < e.1 then
    if hqty : 0 ≤ e.2 then .ok ⟨e.1, e.2, hprice, hqty⟩ else .error .qty
  else .error .price

/-- The best bids of `top` (line 173). -/
def bestBids (book : LocalOrderBook) (depth : ℕ) : List (ℚ × ℚ) :=
  (book.bids.entries.insertionSort fun a b => b.1 ≤ a.1).take depth

/-- The best asks of `top` (line 174). -/
def bestAsks (book : LocalOrderBook) (depth : ℕ) : List (ℚ × ℚ) :=
  (book.asks.entries.insertionSort fun a b => a.1 ≤ b.1).take depth

/-- `top` (lines 172–178). -/
def top (book : LocalOrderBook) (depth : ℕ) :
    Except BookLevelError (List BookLevel × List BookLevel) := do
  let bids ← (book.bestBids depth).mapM level
  let asks ← (book.bestAsks depth).mapM level
  return (bids, asks)

end LocalOrderBook

/-- `parse_kraken_book_message` (lines 203–236): what it returns, and the books afterwards. -/
def parseKrakenBookMessage (message : KrakenMessage) (books : Dict String LocalOrderBook)
    (depth : ℕ) (now : Time) :
    Except BookLevelError (Option BookSnapshot) × Dict String LocalOrderBook :=
  if message.channel ≠ some "book" then (.ok none, books)
  else
    match message.type with
    | none => (.ok none, books)
    | some type =>
      if type ≠ "snapshot" ∧ type ≠ "update" then (.ok none, books)
      else
        match message.data with
        | some (some row :: _) =>
          match row.symbol, row.bids, row.asks with
          | some symbol, some bids, some asks =>
            let book := ((books.get? symbol).getD LocalOrderBook.empty).apply type bids asks
            let snapshot := (book.top depth).map fun levels => some {
              source := .kraken
              symbol := symbol
              observedAt := row.timestamp.getD now
              bids := levels.1
              asks := levels.2 }
            (snapshot, books.set symbol book)
          | _, _, _ => (.ok none, books)
        | _ => (.ok none, books)

/-! ## The venue's stream -/

/-- One side of the venue's book. -/
structure VenueSide where
  levels : Dict ℚ ℚ
  pos : ∀ e ∈ levels.entries, 0 < e.1 ∧ 0 < e.2

/-- The venue's book of a symbol. -/
structure VenueBook where
  bids : VenueSide
  asks : VenueSide

/-- A bid ranks by its price, the highest first. -/
def bidKey (e : ℚ × ℚ) : ℚᵒᵈ := OrderDual.toDual e.1

/-- An ask ranks by its price, the lowest first. -/
def askKey (e : ℚ × ℚ) : ℚ := e.1

section Sides

variable {κ : Type*} [LinearOrder κ] (key : ℚ × ℚ → κ) (n : ℕ)

/-- A snapshot carries the best levels. -/
def CarriesTop (side : VenueSide) (levels : List (ℚ × ℚ)) : Prop :=
  ∀ e, e ∈ levels ↔ e ∈ top key n side.levels.entries

/-- **What an update carries** when the venue's side goes from `old` to `new`: every level that
changes within the best or newly enters them, and a zero quantity for every level that was
deleted while among the best; nothing else but levels that are among the best. -/
structure CarriesChange (old new : VenueSide) (levels : List (ℚ × ℚ)) : Prop where
  told : ∀ e ∈ levels, e ∈ top key n new.levels.entries ∨
    (e.2 = 0 ∧ (∃ f ∈ top key n old.levels.entries, f.1 = e.1) ∧ e.1 ∉ new.levels.keys)
  changed : ∀ e ∈ top key n new.levels.entries, e ∉ top key n old.levels.entries → e ∈ levels
  deleted : ∀ e ∈ top key n old.levels.entries, e.1 ∉ new.levels.keys → (e.1, 0) ∈ levels

end Sides

/-- A message of the stream: what it carries, and the venue's book when it is sent. -/
structure BookEvent where
  symbol : String
  isSnapshot : Bool
  book : VenueBook
  bids : List (ℚ × ℚ)
  asks : List (ℚ × ℚ)
  timestamp : Option Time

namespace BookEvent

/-- A level as it stands in a message. -/
def row (e : ℚ × ℚ) : Option LevelRow := some ⟨some e.1, some e.2⟩

/-- The message as the parser reads it. -/
def message (ev : BookEvent) : KrakenMessage where
  channel := some "book"
  type := some (if ev.isSnapshot then "snapshot" else "update")
  data := some [some {
    symbol := some ev.symbol
    bids := some (ev.bids.map row)
    asks := some (ev.asks.map row)
    timestamp := ev.timestamp }]

/-- The venue's books after a message. -/
def track (venue : String → Option VenueBook) (ev : BookEvent) : String → Option VenueBook :=
  Function.update venue ev.symbol (some ev.book)

/-- **The message is what the venue sends** at depth `n`, from its books before. -/
def Carries (n : ℕ) (venue : String → Option VenueBook) (ev : BookEvent) : Prop :=
  if ev.isSnapshot then
    CarriesTop bidKey n ev.book.bids ev.bids ∧ CarriesTop askKey n ev.book.asks ev.asks
  else
    ∃ old, venue ev.symbol = some old ∧ CarriesChange bidKey n old.bids ev.book.bids ev.bids ∧
      CarriesChange askKey n old.asks ev.book.asks ev.asks

/-- No symbol is listed before the first message. -/
def unlisted : String → Option VenueBook := fun _ => none

/-- **A stream of the venue** at depth `n`. -/
def Conforms (n : ℕ) (events : List BookEvent) : Prop := Along track (Carries n) unlisted events

end BookEvent

/-- The books after the messages of a stream. -/
def booksAfter (n : ℕ) (now : Time) (events : List BookEvent) : Dict String LocalOrderBook :=
  run (fun books ev => (parseKrakenBookMessage ev.message books n now).2) Dict.empty events

/-! ## What a side was told -/

/-- The last quantity that levels tell of a price. -/
def lastWord (price : ℚ) (levels : List (ℚ × ℚ)) : Option ℚ :=
  ((levels.filter fun e => e.1 = price).map (·.2)).getLast?

/-- The side that levels make. -/
def merged (levels : List (ℚ × ℚ)) : Dict ℚ ℚ := mergeLevels Dict.empty (levels.map BookEvent.row)

theorem lastWord_append (price : ℚ) (levels : List (ℚ × ℚ)) (e : ℚ × ℚ) :
    lastWord price (levels ++ [e]) = if e.1 = price then some e.2 else lastWord price levels := by
  by_cases h : e.1 = price <;> simp [lastWord, h]

/-- The last word is one of the levels. -/
theorem mem_of_lastWord {price q : ℚ} {levels : List (ℚ × ℚ)} (h : lastWord price levels = some q) :
    (price, q) ∈ levels := by
  obtain ⟨e, he, hq⟩ := List.mem_map.mp (List.mem_of_getLast? h)
  obtain ⟨hmem, hprice⟩ := List.mem_filter.mp he
  have heq : e = (price, q) := Prod.ext (by simpa using hprice) hq
  rwa [← heq]

/-- A price that is mentioned has a last word. -/
theorem exists_lastWord {e : ℚ × ℚ} {levels : List (ℚ × ℚ)} (h : e ∈ levels) :
    ∃ q, lastWord e.1 levels = some q := by
  have hmem : e.2 ∈ (levels.filter fun f => f.1 = e.1).map (·.2) :=
    List.mem_map_of_mem (List.mem_filter.mpr ⟨h, by simp⟩)
  rw [lastWord]
  cases hlast : ((levels.filter fun f => f.1 = e.1).map (·.2)).getLast? with
  | none =>
    rw [List.getLast?_eq_none_iff.mp hlast] at hmem
    cases hmem
  | some q => exact ⟨q, rfl⟩

/-- **What a side holds of a price**: the last word on it, where there is one. -/
theorem get?_mergeLevels (side : Dict ℚ ℚ) (levels : List (ℚ × ℚ)) (price : ℚ) :
    (mergeLevels side (levels.map BookEvent.row)).get? price =
      match lastWord price levels with
      | none => side.get? price
      | some q => if q ≤ 0 then none else some q := by
  induction levels using List.reverseRecOn with
  | nil => rfl
  | append_singleton levels e ih =>
    have hstep : mergeLevels side ((levels ++ [e]).map BookEvent.row) =
        mergeLevel (mergeLevels side (levels.map BookEvent.row)) (BookEvent.row e) := by
      rw [List.map_append, mergeLevels, List.foldl_append, ← mergeLevels]
      rfl
    have hlevel : ∀ side' : Dict ℚ ℚ, mergeLevel side' (BookEvent.row e) =
        if e.2 ≤ 0 then side'.erase e.1 else side'.set e.1 e.2 := fun _ => rfl
    rw [hstep, hlevel, lastWord_append]
    by_cases hprice : e.1 = price
    · subst hprice
      rw [if_pos rfl]
      by_cases hq : e.2 ≤ 0 <;> simp [hq, Dict.get?_erase]
    · have hne : price ≠ e.1 := Ne.symm hprice
      rw [if_neg hprice, ← ih]
      by_cases hq : e.2 ≤ 0 <;> simp [hq, hne, Dict.get?_erase, Dict.get?_set]

/-- The entries of a side made of levels: the last words that are positive. -/
theorem mem_merged_iff {levels : List (ℚ × ℚ)} {e : ℚ × ℚ} :
    e ∈ (merged levels).entries ↔ lastWord e.1 levels = some e.2 ∧ 0 < e.2 := by
  show (e.1, e.2) ∈ (merged levels).entries ↔ _
  rw [Dict.mem_entries_iff, merged, get?_mergeLevels]
  cases lastWord e.1 levels with
  | none => simp
  | some q =>
    by_cases hq : q ≤ 0
    · simp only [hq, if_true, reduceCtorEq, Option.some.injEq, false_iff, not_and]
      rintro rfl
      exact not_lt.mpr hq
    · simp only [hq, if_false, Option.some.injEq]
      constructor
      · rintro rfl
        exact ⟨rfl, not_le.mp hq⟩
      · exact fun h => h.1

/-! ## The best levels are kept -/

section Sides

variable {κ : Type*} [LinearOrder κ] {key : ℚ × ℚ → κ} {n : ℕ} {old new : VenueSide}
  {levels : List (ℚ × ℚ)}

/-- The key is the price's. -/
def KeyOfPrice (key : ℚ × ℚ → κ) : Prop := ∀ e f, key e = key f ↔ e.1 = f.1

omit [LinearOrder κ] in
theorem nodup_keys (hkey : KeyOfPrice key) (d : Dict ℚ ℚ) : (d.entries.map key).Nodup := by
  have hprices : (d.entries.map Prod.fst).Nodup := d.nodup
  rw [List.Nodup, List.pairwise_map] at hprices ⊢
  exact hprices.imp fun hne heq => hne ((hkey _ _).mp heq)

/-- A price has one quantity at the venue. -/
theorem qty_unique {side : VenueSide} {p q q' : ℚ} (h : (p, q) ∈ side.levels.entries)
    (h' : (p, q') ∈ side.levels.entries) : q = q' := by
  have := (Dict.mem_entries_iff.mp h).symm.trans (Dict.mem_entries_iff.mp h')
  exact Option.some.inj this

theorem mem_keys_of_mem {side : VenueSide} {e : ℚ × ℚ} (h : e ∈ side.levels.entries) :
    e.1 ∈ side.levels.keys :=
  List.mem_map_of_mem h

/-- A snapshot leaves the local side with the best levels. -/
theorem agrees_snapshot (h : CarriesTop key n new levels) :
    AgreesOnTop key n new.levels.entries (merged levels).entries := by
  intro e he
  obtain ⟨q, hq⟩ := exists_lastWord ((h e).mpr he)
  have hmem := mem_of_mem_top ((h _).mp (mem_of_lastWord hq))
  have hsame : q = e.2 := qty_unique hmem (mem_of_mem_top he)
  exact mem_merged_iff.mpr ⟨by rw [hq, hsame], (new.pos e (mem_of_mem_top he)).2⟩

/-- What an update says of one of the best levels is right. -/
theorem lastWord_of_top (h : CarriesChange key n old new levels) {e : ℚ × ℚ}
    (he : e ∈ top key n new.levels.entries) {q : ℚ} (hq : lastWord e.1 levels = some q) :
    q = e.2 := by
  have hmem := mem_of_mem_top he
  rcases h.told _ (mem_of_lastWord hq) with htop | ⟨-, -, hgone⟩
  · exact qty_unique (mem_of_mem_top htop) hmem
  · exact absurd (mem_keys_of_mem hmem) hgone

/-- **One message**: a side that keeps the best levels keeps them through an update. -/
theorem agrees_merge {said : List (ℚ × ℚ)}
    (hsaid : AgreesOnTop key n old.levels.entries (merged said).entries)
    (h : CarriesChange key n old new levels) :
    AgreesOnTop key n new.levels.entries (merged (said ++ levels)).entries := by
  intro e he
  have hpos := (new.pos e (mem_of_mem_top he)).2
  have happend : merged (said ++ levels) =
      mergeLevels (merged said) (levels.map BookEvent.row) := by
    rw [merged, List.map_append, mergeLevels, List.foldl_append]
    rfl
  show (e.1, e.2) ∈ _
  rw [Dict.mem_entries_iff, happend, get?_mergeLevels]
  cases hword : lastWord e.1 levels with
  | none =>
    -- unmentioned, so it was among the best already
    have hold : e ∈ top key n old.levels.entries := by
      by_contra hnew
      obtain ⟨q, hq⟩ := exists_lastWord (h.changed e he hnew)
      rw [hword] at hq
      cases hq
    exact Dict.mem_entries_iff.mp (hsaid e hold)
  | some q =>
    rw [lastWord_of_top h he hword]
    simp [not_le.mpr hpos]

/-- **No ghost ranks**: a price whose last word was a quantity, but that is gone at the venue, has
`n` better ones there. -/
def NoGhostRanks (key : ℚ × ℚ → κ) (n : ℕ) (side : VenueSide) (said : List (ℚ × ℚ)) : Prop :=
  ∀ price q, lastWord price said = some q → 0 < q → price ∉ side.levels.keys →
    n ≤ (ahead key side.levels.entries (key (price, q))).length

theorem ghostsOutranked_iff (hkey : KeyOfPrice key) {said : List (ℚ × ℚ)} :
    GhostsOutranked key n new.levels.entries (merged said).entries ↔
      NoGhostRanks key n new said := by
  have hgone : ∀ e : ℚ × ℚ, key e ∉ new.levels.entries.map key ↔ e.1 ∉ new.levels.keys := by
    intro e
    rw [not_iff_not, Dict.keys, List.mem_map, List.mem_map]
    exact exists_congr fun f => and_congr_right fun _ => hkey f e
  constructor
  · intro h price q hword hq hnone
    exact h (price, q) (mem_merged_iff.mpr ⟨hword, hq⟩) ((hgone _).mpr hnone)
  · intro h e he hnone
    obtain ⟨hword, hq⟩ := mem_merged_iff.mp he
    exact h e.1 e.2 hword hq ((hgone e).mp hnone)

/-- **One side**: what the local side shows is the venue's best levels exactly when no ghost
ranks. -/
theorem top_merged_iff (hkey : KeyOfPrice key) {said : List (ℚ × ℚ)}
    (hsaid : AgreesOnTop key n new.levels.entries (merged said).entries) :
    top key n (merged said).entries = top key n new.levels.entries ↔
      NoGhostRanks key n new said := by
  rw [top_eq_iff (nodup_keys hkey _) (nodup_keys hkey _) hsaid, ghostsOutranked_iff hkey]

end Sides

theorem bidKey_keyOfPrice : KeyOfPrice bidKey := fun _ _ => OrderDual.toDual_inj

theorem askKey_keyOfPrice : KeyOfPrice askKey := fun _ _ => Iff.rfl

/-! ## Along the stream -/

open BookEvent

/-- What a symbol's messages have told of a side since the last snapshot. -/
def saidOf (levelsOf : BookEvent → List (ℚ × ℚ)) (symbol : String) (events : List BookEvent) :
    List (ℚ × ℚ) :=
  events.foldl (fun said ev =>
    if ev.symbol = symbol then
      if ev.isSnapshot then levelsOf ev else said ++ levelsOf ev
    else said) []

theorem saidOf_append (levelsOf : BookEvent → List (ℚ × ℚ)) (symbol : String)
    (events : List BookEvent) (ev : BookEvent) :
    saidOf levelsOf symbol (events ++ [ev]) =
      if ev.symbol = symbol then
        if ev.isSnapshot then levelsOf ev else saidOf levelsOf symbol events ++ levelsOf ev
      else saidOf levelsOf symbol events := by
  rw [saidOf, List.foldl_append]
  rfl

/-- The local book that a symbol's messages make. -/
def heard (symbol : String) (events : List BookEvent) : LocalOrderBook where
  bids := merged (saidOf (·.bids) symbol events)
  asks := merged (saidOf (·.asks) symbol events)

/-- A message makes the book that its symbol's messages make. -/
theorem apply_heard (events : List BookEvent) (ev : BookEvent) :
    (heard ev.symbol events).apply (if ev.isSnapshot then "snapshot" else "update")
        (ev.bids.map row) (ev.asks.map row) = heard ev.symbol (events ++ [ev]) := by
  have hmerged : ∀ said more : List (ℚ × ℚ),
      merged (said ++ more) = mergeLevels (merged said) (more.map row) := by
    intro said more
    rw [merged, List.map_append, mergeLevels, List.foldl_append]
    rfl
  cases hkind : ev.isSnapshot with
  | true => simp [LocalOrderBook.apply, heard, saidOf_append, hkind, LocalOrderBook.empty, merged]
  | false => simp [LocalOrderBook.apply, heard, saidOf_append, hkind, hmerged]

/-- **What a message does**: the book of its symbol takes it in, and its best levels are
returned. -/
theorem parse_message (n : ℕ) (now : Time) (books : Dict String LocalOrderBook) (ev : BookEvent) :
    parseKrakenBookMessage ev.message books n now =
      let book := ((books.get? ev.symbol).getD LocalOrderBook.empty).apply
        (if ev.isSnapshot then "snapshot" else "update") (ev.bids.map row) (ev.asks.map row)
      ((book.top n).map fun levels => some {
        source := .kraken
        symbol := ev.symbol
        observedAt := ev.timestamp.getD now
        bids := levels.1
        asks := levels.2 }, books.set ev.symbol book) := by
  cases hkind : ev.isSnapshot <;> simp [parseKrakenBookMessage, message, hkind]

variable {n : ℕ} {now : Time}

theorem booksAfter_append (events : List BookEvent) (ev : BookEvent) :
    booksAfter n now (events ++ [ev]) =
      (parseKrakenBookMessage ev.message (booksAfter n now events) n now).2 := by
  rw [booksAfter, run_append]
  rfl

/-- **The local books** are what each symbol's messages make. -/
theorem book_after (events : List BookEvent) (symbol : String) :
    ((booksAfter n now events).get? symbol).getD LocalOrderBook.empty = heard symbol events := by
  induction events using List.reverseRecOn with
  | nil => rfl
  | append_singleton events ev ih =>
    rw [booksAfter_append, parse_message]
    simp only
    by_cases hsymbol : ev.symbol = symbol
    · subst hsymbol
      rw [Dict.get?_set_self, Option.getD_some, ih, apply_heard]
    · have hne : symbol ≠ ev.symbol := Ne.symm hsymbol
      rw [Dict.get?_set_of_ne _ hne, ih, heard, heard, saidOf_append, saidOf_append,
        if_neg hsymbol, if_neg hsymbol]

/-- The venue's books after a stream. -/
def venueAfter (events : List BookEvent) : String → Option VenueBook := run track unlisted events

theorem venueAfter_append (events : List BookEvent) (ev : BookEvent) :
    venueAfter (events ++ [ev]) = Function.update (venueAfter events) ev.symbol (some ev.book) := by
  rw [venueAfter, run_append]
  rfl

theorem conforms_append {events : List BookEvent} {ev : BookEvent} :
    Conforms n (events ++ [ev]) ↔ Conforms n events ∧ Carries n (venueAfter events) ev := by
  rw [Conforms, along_append]
  exact and_congr_right fun _ => ⟨fun h => h.1, fun h => ⟨h, trivial⟩⟩

/-- The local book has the venue's best levels, and only prices that are positive. -/
structure Follows (n : ℕ) (book : VenueBook) (symbol : String) (events : List BookEvent) :
    Prop where
  bids : AgreesOnTop bidKey n book.bids.levels.entries
    (merged (saidOf (·.bids) symbol events)).entries
  asks : AgreesOnTop askKey n book.asks.levels.entries
    (merged (saidOf (·.asks) symbol events)).entries
  bids_pos : ∀ e ∈ saidOf (·.bids) symbol events, 0 < e.1
  asks_pos : ∀ e ∈ saidOf (·.asks) symbol events, 0 < e.1

section

variable {κ : Type*} [LinearOrder κ] {key : ℚ × ℚ → κ} {old new : VenueSide}
  {levels : List (ℚ × ℚ)}

theorem price_pos_of_snapshot (h : CarriesTop key n new levels) : ∀ e ∈ levels, 0 < e.1 :=
  fun e he => (new.pos e (mem_of_mem_top ((h e).mp he))).1

theorem price_pos_of_update (h : CarriesChange key n old new levels) :
    ∀ e ∈ levels, 0 < e.1 := by
  intro e he
  rcases h.told e he with htop | ⟨-, ⟨f, hf, hfe⟩, -⟩
  · exact (new.pos e (mem_of_mem_top htop)).1
  · rw [← hfe]
    exact (old.pos f (mem_of_mem_top hf)).1

end

/-- **The local book follows the venue** along every conforming stream: it has the best levels of
every listed symbol. -/
theorem listing_agrees {events : List BookEvent} (h : Conforms n events) {symbol : String}
    {book : VenueBook} (hbook : venueAfter events symbol = some book) :
    Follows n book symbol events := by
  induction events using List.reverseRecOn generalizing book with
  | nil => cases hbook
  | append_singleton events ev ih =>
    obtain ⟨hevents, hcarries⟩ := conforms_append.mp h
    rw [venueAfter_append] at hbook
    by_cases hsymbol : ev.symbol = symbol
    · subst hsymbol
      rw [Function.update_self] at hbook
      cases hbook
      cases hkind : ev.isSnapshot with
      | true =>
        simp only [Carries, hkind, if_true] at hcarries
        obtain ⟨hbids, hasks⟩ := hcarries
        constructor <;> simp only [saidOf_append, hkind, if_true]
        · exact agrees_snapshot hbids
        · exact agrees_snapshot hasks
        · exact price_pos_of_snapshot hbids
        · exact price_pos_of_snapshot hasks
      | false =>
        simp only [Carries, hkind, Bool.false_eq_true, if_false] at hcarries
        obtain ⟨old, hold, hbids, hasks⟩ := hcarries
        have hbefore := ih hevents hold
        constructor <;> simp only [saidOf_append, hkind, if_true, Bool.false_eq_true, if_false]
        · exact agrees_merge hbefore.bids hbids
        · exact agrees_merge hbefore.asks hasks
        · intro e he
          rcases List.mem_append.mp he with he | he
          · exact hbefore.bids_pos e he
          · exact price_pos_of_update hbids e he
        · intro e he
          rcases List.mem_append.mp he with he | he
          · exact hbefore.asks_pos e he
          · exact price_pos_of_update hasks e he
    · have hne : symbol ≠ ev.symbol := Ne.symm hsymbol
      rw [Function.update_of_ne hne] at hbook
      have hbefore := ih hevents hbook
      constructor <;> simp only [saidOf_append, hsymbol, if_false]
      · exact hbefore.bids
      · exact hbefore.asks
      · exact hbefore.bids_pos
      · exact hbefore.asks_pos

/-! ## What is shown -/

/-- Levels with positive prices are returned as they are. -/
theorem mapM_level {levels : List (ℚ × ℚ)} (h : ∀ e ∈ levels, 0 < e.1 ∧ 0 ≤ e.2) :
    ∃ shown, levels.mapM LocalOrderBook.level = .ok shown ∧ shown.map BookLevel.pair = levels := by
  induction levels with
  | nil => exact ⟨[], rfl, rfl⟩
  | cons e levels ih =>
    obtain ⟨hprice, hqty⟩ := h e (List.mem_cons_self ..)
    obtain ⟨shown, hshown, hpairs⟩ := ih fun f hf => h f (List.mem_cons_of_mem _ hf)
    refine ⟨⟨e.1, e.2, hprice, hqty⟩ :: shown, ?_, ?_⟩
    · simp only [List.mapM_cons, LocalOrderBook.level, hprice, hqty, dite_true, hshown]
      rfl
    · rw [List.map_cons, hpairs]
      rfl

theorem bestBids_eq (book : LocalOrderBook) :
    book.bestBids n = top bidKey n book.bids.entries := rfl

theorem bestAsks_eq (book : LocalOrderBook) :
    book.bestAsks n = top askKey n book.asks.entries := rfl

/-- The best levels of a book made of positive prices are returned. -/
theorem top_merged {said : List (ℚ × ℚ)} {κ : Type*} [LinearOrder κ] (key : ℚ × ℚ → κ) (n : ℕ)
    (h : ∀ e ∈ said, 0 < e.1) : ∀ e ∈ top key n (merged said).entries, 0 < e.1 ∧ 0 ≤ e.2 := by
  intro e he
  obtain ⟨hword, hq⟩ := mem_merged_iff.mp (mem_of_mem_top he)
  exact ⟨h _ (mem_of_lastWord hword), hq.le⟩

/-- **The venue's best levels are shown** for a symbol. -/
def Shows (n : ℕ) (book : VenueBook) (symbol : String)
    (returned : Except BookLevelError (Option BookSnapshot)) : Prop :=
  ∃ snapshot, returned = .ok (some snapshot) ∧ snapshot.symbol = symbol ∧
    snapshot.bids.map BookLevel.pair = top bidKey n book.bids.levels.entries ∧
    snapshot.asks.map BookLevel.pair = top askKey n book.asks.levels.entries

/-- **The local book shows the venue's best levels** after a message of a conforming stream
exactly when no ghost ranks on either side. -/
theorem shows_top_iff (n : ℕ) (now : Time) (done : List BookEvent) (ev : BookEvent)
    (h : Conforms n (done ++ [ev])) :
    Shows n ev.book ev.symbol
        (parseKrakenBookMessage ev.message (booksAfter n now done) n now).1 ↔
      NoGhostRanks bidKey n ev.book.bids (saidOf (·.bids) ev.symbol (done ++ [ev])) ∧
        NoGhostRanks askKey n ev.book.asks (saidOf (·.asks) ev.symbol (done ++ [ev])) := by
  have hvenue : venueAfter (done ++ [ev]) ev.symbol = some ev.book := by
    rw [venueAfter_append, Function.update_self]
  have hfollows := listing_agrees h hvenue
  rw [← top_merged_iff bidKey_keyOfPrice hfollows.bids,
    ← top_merged_iff askKey_keyOfPrice hfollows.asks]
  obtain ⟨bids, hbids, hbidPairs⟩ := mapM_level (top_merged bidKey n hfollows.bids_pos)
  obtain ⟨asks, hasks, haskPairs⟩ := mapM_level (top_merged askKey n hfollows.asks_pos)
  have htop : (heard ev.symbol (done ++ [ev])).top n = .ok (bids, asks) := by
    rw [LocalOrderBook.top, bestBids_eq, bestAsks_eq]
    simp only [heard, hbids, hasks]
    rfl
  have hparse : (parseKrakenBookMessage ev.message (booksAfter n now done) n now).1 =
      .ok (some {
        source := .kraken
        symbol := ev.symbol
        observedAt := ev.timestamp.getD now
        bids := bids
        asks := asks }) := by
    rw [parse_message, book_after, apply_heard]
    simp only [htop]
    rfl
  rw [hparse, ← hbidPairs, ← haskPairs]
  constructor
  · rintro ⟨snapshot, hsnapshot, -, hbidTop, haskTop⟩
    cases hsnapshot
    exact ⟨hbidTop, haskTop⟩
  · rintro ⟨hbidTop, haskTop⟩
    exact ⟨_, rfl, rfl, hbidTop, haskTop⟩

/-! ### A level that is pushed out, then deleted -/

namespace Pushed

theorem ask_pos : ∀ e ∈ [((105 : ℚ), (1 : ℚ))], 0 < e.1 ∧ 0 < e.2 := by decide

theorem one_pos : ∀ e ∈ [((100 : ℚ), (1 : ℚ))], 0 < e.1 ∧ 0 < e.2 := by decide

theorem two_pos : ∀ e ∈ [((101 : ℚ), (1 : ℚ)), (100, 1)], 0 < e.1 ∧ 0 < e.2 := by decide

theorem last_pos : ∀ e ∈ [((99 : ℚ), (1 : ℚ))], 0 < e.1 ∧ 0 < e.2 := by decide

theorem ask_nodup : ([((105 : ℚ), (1 : ℚ))].map Prod.fst).Nodup := by decide

theorem one_nodup : ([((100 : ℚ), (1 : ℚ))].map Prod.fst).Nodup := by decide

theorem two_nodup : ([((101 : ℚ), (1 : ℚ)), (100, 1)].map Prod.fst).Nodup := by decide

theorem last_nodup : ([((99 : ℚ), (1 : ℚ))].map Prod.fst).Nodup := by decide

/-- The one ask. -/
def ask : VenueSide := ⟨⟨_, ask_nodup⟩, ask_pos⟩

/-- A bid at 100; then one at 101 above it; then both are gone and there is one at 99. -/
def one : VenueBook := ⟨⟨⟨_, one_nodup⟩, one_pos⟩, ask⟩

def two : VenueBook := ⟨⟨⟨_, two_nodup⟩, two_pos⟩, ask⟩

def last : VenueBook := ⟨⟨⟨_, last_nodup⟩, last_pos⟩, ask⟩

/-- The messages at depth one. -/
def opening : BookEvent := ⟨"BTC/USD", true, one, [(100, 1)], [(105, 1)], none⟩

def pushes : BookEvent := ⟨"BTC/USD", false, two, [(101, 1)], [], none⟩

def deletes : BookEvent := ⟨"BTC/USD", false, last, [(101, 0), (99, 1)], [], none⟩

theorem conforms : Conforms 1 ([opening, pushes] ++ [deletes]) := by
  have hbids : top bidKey 1 one.bids.levels.entries = [(100, 1)] := by decide
  have hasks : top askKey 1 ask.levels.entries = [(105, 1)] := by decide
  have hsame : CarriesChange askKey 1 ask ask [] :=
    ⟨nofun, fun e he hne => absurd he hne, fun e he hgone =>
      absurd (mem_keys_of_mem (mem_of_mem_top he)) hgone⟩
  refine ⟨⟨fun e => ?_, fun e => ?_⟩, ⟨one, rfl, ⟨?_, ?_, ?_⟩, hsame⟩,
    ⟨two, rfl, ⟨?_, ?_, ?_⟩, hsame⟩, trivial⟩
  · rw [show opening.book = one from rfl, hbids]
    rfl
  · rw [show opening.book.asks = ask from rfl, hasks]
    rfl
  all_goals decide

/-- The bids that are returned. -/
def shownBids : Except BookLevelError (Option BookSnapshot) → Option (List (ℚ × ℚ))
  | .ok (some snapshot) => some (snapshot.bids.map BookLevel.pair)
  | _ => none

theorem shownBids_of_shows {book : VenueBook} {symbol : String}
    {returned : Except BookLevelError (Option BookSnapshot)} (h : Shows 1 book symbol returned) :
    shownBids returned = some (top bidKey 1 book.bids.levels.entries) := by
  obtain ⟨snapshot, rfl, -, hbids, -⟩ := h
  rw [← hbids]
  rfl

end Pushed

/-- After 100 was pushed out by 101 and deleted, and 101 was deleted for 99, the local book shows
the bid of 100 that the venue no longer has. -/
theorem pushed_level_resurfaces :
    Conforms 1 ([Pushed.opening, Pushed.pushes] ++ [Pushed.deletes]) ∧
      ¬Shows 1 Pushed.deletes.book Pushed.deletes.symbol
        (parseKrakenBookMessage Pushed.deletes.message
          (booksAfter 1 0 [Pushed.opening, Pushed.pushes]) 1 0).1 := by
  refine ⟨Pushed.conforms, fun h => ?_⟩
  have hshown := Pushed.shownBids_of_shows h
  revert hshown
  decide

/-- While 100 is at the venue, the best bid that is shown is the venue's. -/
theorem shows_top_pushed :
    Shows 1 Pushed.two "BTC/USD"
      (parseKrakenBookMessage Pushed.pushes.message (booksAfter 1 0 [Pushed.opening]) 1 0).1 := by
  have hconforms : Conforms 1 ([Pushed.opening] ++ [Pushed.pushes]) :=
    (conforms_append.mp Pushed.conforms).1
  refine (shows_top_iff 1 0 [Pushed.opening] Pushed.pushes hconforms).mpr ⟨?_, ?_⟩
  · intro price q hword _ hgone
    have hknown : ∀ e ∈ saidOf (·.bids) "BTC/USD" [Pushed.opening, Pushed.pushes],
        e.1 ∈ Pushed.two.bids.levels.keys := by decide
    exact absurd (hknown _ (mem_of_lastWord hword)) hgone
  · intro price q hword _ hgone
    have hknown : ∀ e ∈ saidOf (·.asks) "BTC/USD" [Pushed.opening, Pushed.pushes],
        e.1 ∈ Pushed.two.asks.levels.keys := by decide
    exact absurd (hknown _ (mem_of_lastWord hword)) hgone

end TraderStack
