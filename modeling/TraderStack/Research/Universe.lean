import TraderStack.Lib.TopLevels
import TraderStack.Lib.Text
import TraderStack.Research.Backtest

/-!
# The liquidity universe (research/universe.py)

On the first day of every month the names with a full trailing window are ranked by their
median dollar volume. Several histories can stand for one canonical name; the longest one is
taken, and its length counts the bars after the snapshot too.

- `mem_liquiditySnapshots`: a snapshot is decided from the windows at its date;
- `measure_of_represents`: a history measures the same in two runs that agree on the past;
- `liquidity_point_in_time_iff`: **two runs that agree on the past emit the same snapshot**
  exactly when every name that no history stands for in both, and that measures differently, is
  outranked in both.
-/

namespace TraderStack

open Lib Lib.Text

/-! ## The calendar -/

/-- The month of a day, counted in months from January of the year 0. -/
def monthOf (day : ℤ) : ℤ :=
  let z := day + 719468
  let era := z / 146097
  let doe := z % 146097
  let yoe := (doe - doe / 1460 + doe / 36524 - doe / 146096) / 365
  let doy := doe - (365 * yoe + yoe / 4 - yoe / 100)
  -- months are counted from March, so that the leap day is the last of a year
  let mp := (5 * doy + 2) / 153
  if mp < 10 then (yoe + era * 400) * 12 + (mp + 2) else (yoe + era * 400 + 1) * 12 + (mp - 10)

/-- The first day of a month. -/
def firstDayOf (month : ℤ) : ℤ :=
  let year := if month % 12 < 2 then month / 12 - 1 else month / 12
  let mp := if month % 12 < 2 then month % 12 + 10 else month % 12 - 2
  let yoe := year % 400
  let doe := yoe * 365 + yoe / 4 - yoe / 100 + (153 * mp + 2) / 5
  year / 400 * 146097 + doe - 719468

/-- `datetime(year, month, day, tzinfo=UTC)`, `none` where it raises `ValueError`. -/
def datetimeOf (month day : ℤ) : Option Time :=
  if 12 ≤ month ∧ month < 120000 ∧ 1 ≤ day ∧ day ≤ firstDayOf (month + 1) - firstDayOf month then
    some (86400 * (firstDayOf month + (day - 1)) : ℤ)
  else none

example : datetimeOf (2024 * 12 + 1) 29 = some 1709164800 ∧ datetimeOf (2023 * 12 + 1) 29 = none ∧
    monthOf (utcDate 1709164800) = 2024 * 12 + 1 := by decide +kernel

/-! ## Canonical names -/

/-- What the universe functions raise. -/
inductive UniverseError where
  | notPositive
  | noDate (month day : ℤ)
deriving DecidableEq

/-- `BASE_ALIASES` (line 51). -/
def baseAlias (text : List Char) : List Char :=
  if text = ['X', 'B', 'T'] then ['B', 'T', 'C']
  else if text = ['X', 'D', 'G'] then ['D', 'O', 'G', 'E']
  else text

/-- `canonical_symbol` (lines 135–140). -/
def canonicalSymbol (base : List Char) : Option String :=
  let text := (strip base).map Char.toUpper
  if text = [] then none
  else some (String.ofList (baseAlias text ++ ['/', 'U', 'S', 'D']))

/-- The quotes of a symbol without a separator, in the order they are tried. -/
def quoteSuffixes : List (List Char) :=
  [['U', 'S', 'D', 'T'], ['U', 'S', 'D', 'C'], ['U', 'S', 'D']]

/-- `canonical_from_symbol` (lines 143–158), `none` where it raises. -/
def canonicalFromSymbol (symbol : String) : Option String :=
  let text := ((strip symbol.toList).map Char.toUpper).map fun c => if c = '-' then '/' else c
  let parts :=
    if '/' ∈ text then
      some (text.takeWhile (· ≠ '/'), (text.dropWhile (· ≠ '/')).tail)
    else
      (quoteSuffixes.find? fun suffix =>
        suffix.isSuffixOf text ∧ suffix.length < text.length).map fun suffix =>
          (text.take (text.length - suffix.length), suffix)
  match parts with
  | none => none
  | some (base, quote) =>
    if quote ∈ quoteSuffixes ++ [['Z', 'U', 'S', 'D']] then canonicalSymbol base else none

example : canonicalFromSymbol "XBT/USD" = some "BTC/USD" ∧
    canonicalFromSymbol "btcusdt" = some "BTC/USD" ∧ canonicalFromSymbol "BTC-EUR" = none := by
  decide +kernel

/-! ## Histories -/

/-- `sorted(candles, key=opened_at)`. -/
def sortedBars (candles : List Candle) : List Candle :=
  candles.insertionSort fun a b => a.openedAt ≤ b.openedAt

/-- The canonical name a history counts for, if it does. -/
def nameOf (interval : String) (candles : List Candle) : Option String :=
  match candles with
  | [] => none
  | first :: _ => if first.interval ≠ interval then none else canonicalFromSymbol first.symbol

/-- `histories_by_canonical` (lines 249–267): the longest history of each name, the first of
equal ones. -/
def historiesByCanonical (histories : Dict String (List Candle)) (interval : String) :
    Dict String (List Candle) :=
  histories.values.foldl (fun out candles =>
    match nameOf interval candles with
    | none => out
    | some canonical =>
      let ordered := sortedBars candles
      match out.get? canonical with
      | none => out.set canonical ordered
      | some existing =>
        if ordered.length > existing.length then out.set canonical ordered else out) Dict.empty

/-- `dollar_volume_series` (lines 243–246). -/
def dollarVolumeSeries (candles : List Candle) : Dict Time ℚ :=
  Dict.ofList (candles.map fun c => (c.openedAt, c.close * c.volume))

/-- The month starts from a month on (lines 273–283); the loop leaves at the first one after the
last bar. -/
def monthStartsFrom (first last : Time) (snapshotDay : ℤ) :
    ℕ → ℤ → Except UniverseError (List Time)
  | 0, _ => .ok []
  | turns + 1, month =>
    match datetimeOf month snapshotDay with
    | none => .error (.noDate month snapshotDay)
    | some candidate =>
      if candidate > last then .ok []
      else
        match monthStartsFrom first last snapshotDay turns (month + 1) with
        | .error e => .error e
        | .ok rest => .ok (if candidate > first then candidate :: rest else rest)

/-- Turns enough for the loop to leave: a month has more than 26 days. -/
def turnsFor (last : Time) (month : ℤ) : ℕ := (utcDate last - firstDayOf month).toNat / 26 + 2

/-- `_month_starts` (lines 270–283). -/
def monthStarts (first last : Time) (snapshotDay : ℤ) : Except UniverseError (List Time) :=
  let start := monthOf (utcDate first)
  monthStartsFrom first last snapshotDay (turnsFor last start) start

theorem month_length (month : ℤ) : firstDayOf month + 26 ≤ firstDayOf (month + 1) := by
  simp only [firstDayOf]
  split_ifs <;> omega

/-- A date of a month that starts after the last bar's day is after the last bar. -/
theorem lt_datetimeOf {last candidate : Time} {month day : ℤ}
    (h : datetimeOf month day = some candidate) (hlast : utcDate last < firstDayOf month) :
    last < candidate := by
  rw [datetimeOf] at h
  split_ifs at h with hvalid
  cases h
  have hday : last / 86400 < (firstDayOf month : ℚ) := by
    have hfloor := Int.lt_floor_add_one (last / 86400)
    have hnext : (utcDate last : ℚ) + 1 ≤ firstDayOf month := by exact_mod_cast hlast
    exact lt_of_lt_of_le hfloor hnext
  have hfirst : (0 : ℚ) ≤ ((day - 1 : ℤ) : ℚ) := by
    have hpos := hvalid.2.2.1
    exact_mod_cast (by omega : 0 ≤ day - 1)
  push_cast at hfirst ⊢
  linarith

/-- One turn of the loop. -/
theorem monthStartsFrom_turn (first last : Time) (snapshotDay : ℤ) (turns : ℕ) (month : ℤ) :
    monthStartsFrom first last snapshotDay (turns + 1) month =
      match datetimeOf month snapshotDay with
      | none => .error (.noDate month snapshotDay)
      | some candidate =>
        if candidate > last then .ok []
        else
          match monthStartsFrom first last snapshotDay turns (month + 1) with
          | .error e => .error e
          | .ok rest => .ok (if candidate > first then candidate :: rest else rest) :=
  rfl

theorem monthStartsFrom_succ (first last : Time) (snapshotDay : ℤ) (turns : ℕ) (month : ℤ)
    (h : utcDate last < firstDayOf month + 26 * turns) :
    monthStartsFrom first last snapshotDay (turns + 1) month =
      monthStartsFrom first last snapshotDay (turns + 2) month := by
  induction turns generalizing month with
  | zero =>
    rw [monthStartsFrom_turn, monthStartsFrom_turn]
    cases hdate : datetimeOf month snapshotDay with
    | none => rfl
    | some candidate =>
      have hlate : candidate > last := lt_datetimeOf hdate (by simpa using h)
      simp only [if_pos hlate]
  | succ turns ih =>
    have hlength := month_length month
    have hnext := ih (month + 1) (by push_cast at h; omega)
    rw [monthStartsFrom_turn, hnext, ← monthStartsFrom_turn]

/-- **The loop over the months leaves by itself**: more turns than `turnsFor` change nothing. -/
theorem monthStarts_turns (first last : Time) (snapshotDay month : ℤ) (more : ℕ) :
    monthStartsFrom first last snapshotDay (turnsFor last month + more) month =
      monthStartsFrom first last snapshotDay (turnsFor last month) month := by
  induction more with
  | zero => rfl
  | succ more ih =>
    have hturns : utcDate last <
        firstDayOf month + 26 * ((utcDate last - firstDayOf month).toNat / 26 + 1 + more : ℕ) := by
      push_cast
      omega
    have hstep := monthStartsFrom_succ first last snapshotDay _ month hturns
    have hcount : turnsFor last month + more =
        (utcDate last - firstDayOf month).toNat / 26 + 1 + more + 1 := by
      rw [turnsFor]
      omega
    rw [← ih, hcount, hstep]
    congr 1
    omega

/-! ## Snapshots -/

/-- `UniverseSnapshot` (lines 233–240). -/
structure UniverseSnapshot where
  snapshotAt : Time
  names : List String
  medianDollarVolume : Dict String ℚ
  candidatesConsidered : ℕ
  candidatesSkipped : ℕ

/-- `statistics.median` of a list that is not empty. -/
def medianOf (values : List ℚ) : ℚ :=
  let data := values.insertionSort (· ≤ ·)
  let n := data.length
  if n % 2 = 1 then data.getD (n / 2) 0 else (data.getD (n / 2 - 1) 0 + data.getD (n / 2) 0) / 2

/-- The window of a series before a date, and its median if it is full and not zero
(lines 312–320). -/
def windowMedian (lookback : ℕ) (snapshotAt : Time) (series : Dict Time ℚ) : Option ℚ :=
  let windowStart := snapshotAt - 86400 * lookback
  let values := (series.entries.filter fun e => windowStart ≤ e.1 ∧ e.1 < snapshotAt).map (·.2)
  if values.length < lookback then none
  else if medianOf values ≤ 0 then none
  else some (medianOf values)

/-- The names that can be ranked, with their medians. -/
def rankable (lookback : ℕ) (snapshotAt : Time) (volumes : Dict String (Dict Time ℚ)) :
    List (ℚ × String) :=
  volumes.entries.filterMap fun e =>
    (windowMedian lookback snapshotAt e.2).map fun med => (med, e.1)

/-- `key=lambda item: (-item[0], item[1])`. -/
def rankKey (item : ℚ × String) : Lex (ℚ × String) := toLex (-item.1, item.2)

/-- The snapshot of a date (lines 307–334), if a name can be ranked. -/
def snapshotOf (lookback topN : ℕ) (volumes : Dict String (Dict Time ℚ)) (snapshotAt : Time) :
    Option UniverseSnapshot :=
  let ranked := rankable lookback snapshotAt volumes
  if ranked = [] then none
  else
    let chosen := top rankKey topN ranked
    some {
      snapshotAt := snapshotAt
      names := chosen.map (·.2)
      medianDollarVolume := Dict.ofList (chosen.map fun item => (item.2, item.1))
      candidatesConsidered := volumes.entries.length
      candidatesSkipped := volumes.entries.length - ranked.length }

/-- The opening times of the first and the last bars of histories (lines 305–306). -/
def ends (byName : Dict String (List Candle)) : Option (Time × Time) :=
  match (byName.values.filterMap (·.head?)).map (·.openedAt),
      (byName.values.filterMap (·.getLast?)).map (·.openedAt) with
  | first :: firsts, last :: lasts => some (firsts.foldl min first, lasts.foldl max last)
  | _, _ => none

/-- `liquidity_snapshots` (lines 286–335). -/
def liquiditySnapshots (histories : Dict String (List Candle)) (snapshotDay lookback topN : ℤ) :
    Except UniverseError (List UniverseSnapshot) :=
  if lookback ≤ 0 ∨ topN ≤ 0 then .error .notPositive
  else
    let byName := historiesByCanonical histories "1d"
    match ends byName with
    | none => .ok []
    | some (first, last) =>
      let volumes := byName.map fun _ candles => dollarVolumeSeries candles
      match monthStarts first last snapshotDay with
      | .error e => .error e
      | .ok months => .ok (months.filterMap (snapshotOf lookback.toNat topN.toNat volumes))

/-! ## What a snapshot is decided from -/

/-- The measure of a name at a date: the median of its chosen history's window. -/
def measure (lookback : ℕ) (snapshotAt : Time) (histories : Dict String (List Candle))
    (name : String) : Option ℚ :=
  ((historiesByCanonical histories "1d").get? name).bind fun candles =>
    windowMedian lookback snapshotAt (dollarVolumeSeries candles)

/-- The names that can be ranked at a date. -/
def rankedAt (lookback : ℕ) (snapshotAt : Time) (histories : Dict String (List Candle)) :
    List (ℚ × String) :=
  rankable lookback snapshotAt
    ((historiesByCanonical histories "1d").map fun _ candles => dollarVolumeSeries candles)

/-- **The ranked names** are those that measure. -/
theorem mem_rankedAt_iff {lookback : ℕ} {snapshotAt : Time}
    {histories : Dict String (List Candle)} {item : ℚ × String} :
    item ∈ rankedAt lookback snapshotAt histories ↔
      measure lookback snapshotAt histories item.2 = some item.1 := by
  rw [rankedAt, rankable, List.mem_filterMap, measure, Option.bind_eq_some_iff]
  constructor
  · rintro ⟨e, he, hitem⟩
    obtain ⟨med, hmed, rfl⟩ := Option.map_eq_some_iff.mp hitem
    have hseries := Dict.mem_entries_iff.mp (show (e.1, e.2) ∈ _ from he)
    rw [Dict.get?_map, Option.map_eq_some_iff] at hseries
    obtain ⟨candles, hcandles, hseries⟩ := hseries
    refine ⟨candles, hcandles, ?_⟩
    rw [hseries]
    exact hmed
  · rintro ⟨candles, hcandles, hmed⟩
    refine ⟨(item.2, dollarVolumeSeries candles), ?_, ?_⟩
    · rw [Dict.mem_entries_iff, Dict.get?_map, hcandles]
      rfl
    · show (windowMedian lookback snapshotAt (dollarVolumeSeries candles)).map
        (fun med => (med, item.2)) = some item
      rw [hmed]
      rfl

theorem rankKey_inj {a b : ℚ × String} (h : rankKey a = rankKey b) : a = b := by
  have hpair := toLex.injective h
  simp only [Prod.mk.injEq, neg_inj] at hpair
  exact Prod.ext hpair.1 hpair.2

/-- A name is ranked once. -/
theorem nodup_rankedAt (lookback : ℕ) (snapshotAt : Time)
    (histories : Dict String (List Candle)) :
    ((rankedAt lookback snapshotAt histories).map Prod.snd).Nodup := by
  rw [rankedAt, rankable]
  generalize (historiesByCanonical histories "1d").map (fun _ candles =>
    dollarVolumeSeries candles) = volumes
  have hkeys := volumes.nodup
  rw [List.Nodup, List.pairwise_map] at hkeys ⊢
  refine hkeys.filterMap _ fun e f hne item hitem item' hitem' => ?_
  obtain ⟨med, -, rfl⟩ := Option.map_eq_some_iff.mp hitem
  obtain ⟨med', -, rfl⟩ := Option.map_eq_some_iff.mp hitem'
  exact hne

theorem nodup_rankKey (lookback : ℕ) (snapshotAt : Time)
    (histories : Dict String (List Candle)) :
    ((rankedAt lookback snapshotAt histories).map rankKey).Nodup :=
  ((nodup_rankedAt lookback snapshotAt histories).of_map _).map_on fun _ _ _ _ h => rankKey_inj h

/-- **A snapshot is decided from the names that measure at its date**, and from nothing else. -/
theorem mem_liquiditySnapshots {histories : Dict String (List Candle)}
    {snapshotDay lookback topN : ℤ} {snapshots : List UniverseSnapshot}
    (h : liquiditySnapshots histories snapshotDay lookback topN = .ok snapshots)
    {snapshot : UniverseSnapshot} (hmem : snapshot ∈ snapshots) :
    snapshot.names =
        (top rankKey topN.toNat (rankedAt lookback.toNat snapshot.snapshotAt histories)).map (·.2) ∧
      snapshot.medianDollarVolume =
        Dict.ofList ((top rankKey topN.toNat
          (rankedAt lookback.toNat snapshot.snapshotAt histories)).map fun item =>
            (item.2, item.1)) := by
  rw [liquiditySnapshots] at h
  split at h
  · cases h
  · simp only at h
    split at h
    · cases h
      cases hmem
    · split at h
      · cases h
      · cases h
        obtain ⟨moment, -, hsnapshot⟩ := List.mem_filterMap.mp hmem
        rw [snapshotOf] at hsnapshot
        simp only at hsnapshot
        split at hsnapshot
        · cases hsnapshot
        · cases hsnapshot
          exact ⟨rfl, rfl⟩

/-- The names and their medians are the same when the chosen items are. -/
theorem medians_eq_iff {n : ℕ} {lookback : ℕ} {snapshotAt : Time}
    {histories histories' : Dict String (List Candle)} :
    (Dict.ofList ((top rankKey n (rankedAt lookback snapshotAt histories)).map fun item =>
        (item.2, item.1)) =
      Dict.ofList ((top rankKey n (rankedAt lookback snapshotAt histories')).map fun item =>
        (item.2, item.1))) ↔
      top rankKey n (rankedAt lookback snapshotAt histories) =
        top rankKey n (rankedAt lookback snapshotAt histories') := by
  have hentries : ∀ histories : Dict String (List Candle),
      (Dict.ofList ((top rankKey n (rankedAt lookback snapshotAt histories)).map fun item =>
        (item.2, item.1))).entries =
      (top rankKey n (rankedAt lookback snapshotAt histories)).map fun item =>
        (item.2, item.1) := by
    intro histories
    have hnames : ((top rankKey n (rankedAt lookback snapshotAt histories)).map Prod.snd).Nodup :=
      (((perm_ranked _).map Prod.snd).nodup_iff.mpr
        (nodup_rankedAt lookback snapshotAt histories)).sublist
          ((List.take_sublist _ _).map _)
    have := Dict.foldl_set_entries (d := Dict.empty)
      (l := (top rankKey n (rankedAt lookback snapshotAt histories)).map fun item =>
        (item.2, item.1)) (by simpa [Dict.empty, Function.comp_def] using hnames)
    simpa [Dict.ofList, Dict.empty] using this
  constructor
  · intro h
    have hlists := congrArg Dict.entries h
    rw [hentries, hentries] at hlists
    exact List.map_injective_iff.mpr (fun a b hab => Prod.ext (Prod.mk.inj hab).2
      (Prod.mk.inj hab).1) hlists
  · intro h
    rw [h]

/-! ## Runs that agree on the past -/

/-- The bars before a date, in order. -/
def past (snapshotAt : Time) (candles : List Candle) : List Candle :=
  (sortedBars candles).filter fun c => c.openedAt < snapshotAt

/-- **The two sets of histories agree on the past** of a date: every history has the same bars
before it in both. -/
def AgreeOnPast (snapshotAt : Time) (histories histories' : Dict String (List Candle)) : Prop :=
  ∀ key, past snapshotAt ((histories.get? key).getD []) =
    past snapshotAt ((histories'.get? key).getD [])

/-- The history of a key stands for the name: it is the one that is taken. -/
def Represents (histories : Dict String (List Candle)) (name key : String) : Prop :=
  ∃ candles, histories.get? key = some candles ∧
    (historiesByCanonical histories "1d").get? name = some (sortedBars candles)

/-- A window before a date is made of the past. -/
theorem windowMedian_past (lookback : ℕ) (snapshotAt : Time) (candles : List Candle) :
    windowMedian lookback snapshotAt (dollarVolumeSeries (sortedBars candles)) =
      windowMedian lookback snapshotAt (dollarVolumeSeries (past snapshotAt candles)) := by
  have hseries : ∀ bars : List Candle,
      (dollarVolumeSeries bars).entries.filter (fun e => decide (e.1 < snapshotAt)) =
        (dollarVolumeSeries (bars.filter fun c => c.openedAt < snapshotAt)).entries := by
    intro bars
    rw [dollarVolumeSeries, Dict.filter_ofList (fun t => decide (t < snapshotAt)),
      dollarVolumeSeries, List.filter_map]
    rfl
  have hpast : (dollarVolumeSeries (past snapshotAt candles)).entries.filter
      (fun e => decide (e.1 < snapshotAt)) =
      (dollarVolumeSeries (sortedBars candles)).entries.filter
        (fun e => decide (e.1 < snapshotAt)) := by
    rw [hseries, hseries, past, List.filter_filter]
    simp
  have hsplit : ∀ series : Dict Time ℚ,
      (series.entries.filter fun e => snapshotAt - 86400 * lookback ≤ e.1 ∧ e.1 < snapshotAt) =
        (series.entries.filter (fun e => decide (e.1 < snapshotAt))).filter
          (fun e => decide (snapshotAt - 86400 * lookback ≤ e.1)) := by
    intro series
    rw [List.filter_filter]
    simp
  simp only [windowMedian, hsplit, hpast]

/-- **A history that stands for a name in both runs** measures the same in both. -/
theorem measure_of_represents {lookback : ℕ} {snapshotAt : Time}
    {histories histories' : Dict String (List Candle)}
    (hagree : AgreeOnPast snapshotAt histories histories') {name key : String}
    (h : Represents histories name key) (h' : Represents histories' name key) :
    measure lookback snapshotAt histories name = measure lookback snapshotAt histories' name := by
  obtain ⟨candles, hkey, hname⟩ := h
  obtain ⟨candles', hkey', hname'⟩ := h'
  have hpast := hagree key
  rw [hkey, hkey', Option.getD_some, Option.getD_some] at hpast
  rw [measure, measure, hname, hname', Option.bind_some, Option.bind_some, windowMedian_past,
    windowMedian_past, hpast]

/-- The name is outranked: it does not measure, or so many names rank ahead of it. -/
def OutrankedAt (lookback n : ℕ) (snapshotAt : Time) (histories : Dict String (List Candle))
    (name : String) : Prop :=
  ∀ med, measure lookback snapshotAt histories name = some med →
    n ≤ (ahead rankKey (rankedAt lookback snapshotAt histories) (rankKey (med, name))).length

/-- **No choice of history shows**: a name that no history stands for in both runs measures the
same in both, or is outranked in both. -/
def NoChoiceShows (lookback n : ℕ) (snapshotAt : Time)
    (histories histories' : Dict String (List Candle)) : Prop :=
  ∀ name, (¬∃ key, Represents histories name key ∧ Represents histories' name key) →
    measure lookback snapshotAt histories name ≠ measure lookback snapshotAt histories' name →
    OutrankedAt lookback n snapshotAt histories name ∧
      OutrankedAt lookback n snapshotAt histories' name

/-- Two runs choose the same items when no choice of history shows. -/
theorem top_rankedAt_iff {lookback n : ℕ} {snapshotAt : Time}
    {histories histories' : Dict String (List Candle)}
    (hagree : AgreeOnPast snapshotAt histories histories') :
    top rankKey n (rankedAt lookback snapshotAt histories) =
        top rankKey n (rankedAt lookback snapshotAt histories') ↔
      NoChoiceShows lookback n snapshotAt histories histories' := by
  rw [top_eq_top_iff (nodup_rankKey _ _ _) (nodup_rankKey _ _ _)]
  constructor
  · rintro ⟨hleft, hright⟩ name - hne
    constructor
    · intro med hmed
      refine hleft (med, name) (mem_rankedAt_iff.mpr hmed) fun hmem => hne ?_
      rw [hmed, mem_rankedAt_iff.mp hmem]
    · intro med hmed
      refine hright (med, name) (mem_rankedAt_iff.mpr hmed) fun hmem => hne ?_
      rw [hmed, mem_rankedAt_iff.mp hmem]
  · intro h
    -- a history that stands for a name in both runs measures the same
    have hdiffer : ∀ name, measure lookback snapshotAt histories name ≠
        measure lookback snapshotAt histories' name →
        OutrankedAt lookback n snapshotAt histories name ∧
          OutrankedAt lookback n snapshotAt histories' name := by
      intro name hne
      refine h name ?_ hne
      rintro ⟨key, hrep, hrep'⟩
      exact hne (measure_of_represents hagree hrep hrep')
    constructor
    · intro item hitem hnot
      have hmed := mem_rankedAt_iff.mp hitem
      refine (hdiffer item.2 fun heq => hnot ?_).1 item.1 hmed
      rw [mem_rankedAt_iff, ← heq, hmed]
    · intro item hitem hnot
      have hmed := mem_rankedAt_iff.mp hitem
      refine (hdiffer item.2 fun heq => hnot ?_).2 item.1 hmed
      rw [mem_rankedAt_iff, heq, hmed]

/-- **The liquidity universe is point-in-time**: two runs that agree on the bars before a date,
and that both emit a snapshot of it, emit the same names in the same order with the same medians
exactly when no choice of history shows. -/
theorem liquidity_point_in_time_iff {histories histories' : Dict String (List Candle)}
    {snapshotDay lookback topN : ℤ} {snapshots snapshots' : List UniverseSnapshot}
    {snapshot snapshot' : UniverseSnapshot}
    (hrun : liquiditySnapshots histories snapshotDay lookback topN = .ok snapshots)
    (hrun' : liquiditySnapshots histories' snapshotDay lookback topN = .ok snapshots')
    (hmem : snapshot ∈ snapshots) (hmem' : snapshot' ∈ snapshots')
    (hdate : snapshot'.snapshotAt = snapshot.snapshotAt)
    (hagree : AgreeOnPast snapshot.snapshotAt histories histories') :
    (snapshot.names = snapshot'.names ∧
        snapshot.medianDollarVolume = snapshot'.medianDollarVolume) ↔
      NoChoiceShows lookback.toNat topN.toNat snapshot.snapshotAt histories histories' := by
  obtain ⟨hnames, hmedians⟩ := mem_liquiditySnapshots hrun hmem
  obtain ⟨hnames', hmedians'⟩ := mem_liquiditySnapshots hrun' hmem'
  rw [hdate] at hnames' hmedians'
  rw [← top_rankedAt_iff hagree, hnames, hnames', hmedians, hmedians', medians_eq_iff]
  constructor
  · exact fun h => h.2
  · intro h
    exact ⟨by rw [h], h⟩

/-! ### Two venues of one name -/

namespace Venues

theorem bar_high : max (1 : ℚ) 1 ≤ 1 := le_of_eq (max_self 1)

theorem bar_low : (1 : ℚ) ≤ min 1 1 := le_of_eq (min_self 1).symm

theorem volume_nonneg (volume : ℕ) : (0 : ℚ) ≤ volume := Nat.cast_nonneg volume

/-- The first of February 2024. -/
def february : Time := 1706745600

/-- A daily bar so many days from the first of February. -/
def bar (symbol : String) (volume : ℕ) (day : ℤ) : Candle where
  symbol := symbol
  interval := "1d"
  openedAt := february + 86400 * day
  openPrice := 1
  high := 1
  low := 1
  close := 1
  volume := volume
  open_pos := unit_pos
  high_pos := unit_pos
  low_pos := unit_pos
  close_pos := unit_pos
  volume_nonneg := volume_nonneg volume
  high_contains := bar_high
  low_contains := bar_low

/-- Kraken's bars of the last two days of January and of the first of February, and Binance's
bars of the two days of January and of some days from the first of February on. -/
def histories (later : List ℤ) : Dict String (List Candle) :=
  (Dict.empty.set "BTC@kraken" ([-2, -1, 0].map (bar "BTC/USD" 1))).set "BTC@binance"
    (([-2, -1] ++ later).map (bar "BTCUSDT" 2))

theorem agree (later later' : List ℤ)
    (h : past february (([-2, -1] ++ later).map (bar "BTCUSDT" 2)) =
      past february (([-2, -1] ++ later').map (bar "BTCUSDT" 2))) :
    AgreeOnPast february (histories later) (histories later') := by
  intro key
  simp only [histories, Dict.get?_set]
  by_cases hkey : key = "BTC@binance"
  · rw [if_pos hkey, if_pos hkey, Option.getD_some, Option.getD_some, h]
  · rw [if_neg hkey, if_neg hkey]

/-- The one snapshot of a run: its date and its medians. -/
def decided : Except UniverseError (List UniverseSnapshot) → Option (Time × List (String × ℚ))
  | .ok [snapshot] => some (snapshot.snapshotAt, snapshot.medianDollarVolume.entries)
  | _ => none

theorem exists_of_decided {run : Except UniverseError (List UniverseSnapshot)} {moment : Time}
    {medians : List (String × ℚ)} (h : decided run = some (moment, medians)) :
    ∃ snapshot, run = .ok [snapshot] ∧ snapshot.snapshotAt = moment ∧
      snapshot.medianDollarVolume.entries = medians := by
  match run with
  | .error e => cases h
  | .ok [] => cases h
  | .ok [snapshot] =>
    cases h
    exact ⟨snapshot, rfl, rfl, rfl⟩
  | .ok (_ :: _ :: _) => cases h

theorem february_dates :
    decided (liquiditySnapshots (histories []) 1 2 1) = some (february, [("BTC/USD", 1)]) ∧
      decided (liquiditySnapshots (histories [0]) 1 2 1) = some (february, [("BTC/USD", 1)]) ∧
      decided (liquiditySnapshots (histories [0, 1]) 1 2 1) =
        some (february, [("BTC/USD", 2)]) := by
  decide +kernel

theorem represents : Represents (histories []) "BTC/USD" "BTC@kraken" ∧
    Represents (histories [0]) "BTC/USD" "BTC@kraken" := by
  refine ⟨⟨[-2, -1, 0].map (bar "BTC/USD" 1), ?_, ?_⟩,
    ⟨[-2, -1, 0].map (bar "BTC/USD" 1), ?_, ?_⟩⟩ <;> decide +kernel

/-- Only BTC measures. -/
theorem measure_of_ne {later : List ℤ} {name : String} {lookback : ℕ} {moment : Time}
    (hkeys : (historiesByCanonical (histories later) "1d").keys = ["BTC/USD"])
    (hname : name ≠ "BTC/USD") : measure lookback moment (histories later) name = none := by
  have hnone : (historiesByCanonical (histories later) "1d").get? name = none := by
    rw [Dict.get?_eq_none_iff, hkeys]
    simpa using hname
  rw [measure, hnone]
  rfl

end Venues

/-- With two more bars from the first of February on, Binance's history is the longer one, and
the median of the first of February is another. -/
theorem later_bars_choose_history :
    AgreeOnPast Venues.february (Venues.histories []) (Venues.histories [0, 1]) ∧
      ∃ snapshot snapshot', liquiditySnapshots (Venues.histories []) 1 2 1 = .ok [snapshot] ∧
        liquiditySnapshots (Venues.histories [0, 1]) 1 2 1 = .ok [snapshot'] ∧
        snapshot.snapshotAt = Venues.february ∧ snapshot'.snapshotAt = Venues.february ∧
        snapshot.medianDollarVolume ≠ snapshot'.medianDollarVolume := by
  refine ⟨Venues.agree [] [0, 1] (by decide +kernel), ?_⟩
  obtain ⟨hshort, -, hlong⟩ := Venues.february_dates
  obtain ⟨snapshot, hrun, hdate, hmedians⟩ := Venues.exists_of_decided hshort
  obtain ⟨snapshot', hrun', hdate', hmedians'⟩ := Venues.exists_of_decided hlong
  refine ⟨snapshot, snapshot', hrun, hrun', hdate, hdate', fun h => ?_⟩
  rw [h, hmedians'] at hmedians
  revert hmedians
  decide +kernel

/-- With one more bar, Kraken's history still stands for BTC, and the snapshot is the same. -/
theorem liquidity_point_in_time_venues :
    ∃ snapshot snapshot', liquiditySnapshots (Venues.histories []) 1 2 1 = .ok [snapshot] ∧
      liquiditySnapshots (Venues.histories [0]) 1 2 1 = .ok [snapshot'] ∧
      snapshot.names = snapshot'.names ∧
      snapshot.medianDollarVolume = snapshot'.medianDollarVolume := by
  obtain ⟨hshort, hsame, -⟩ := Venues.february_dates
  obtain ⟨snapshot, hrun, hdate, -⟩ := Venues.exists_of_decided hshort
  obtain ⟨snapshot', hrun', hdate', -⟩ := Venues.exists_of_decided hsame
  have hagree : AgreeOnPast snapshot.snapshotAt (Venues.histories []) (Venues.histories [0]) := by
    rw [hdate]
    exact Venues.agree [] [0] (by decide +kernel)
  refine ⟨snapshot, snapshot', hrun, hrun', ?_⟩
  refine (liquidity_point_in_time_iff hrun hrun' (List.mem_singleton_self _)
    (List.mem_singleton_self _) (hdate'.trans hdate.symm) hagree).mpr ?_
  intro name hnone hne
  by_cases hname : name = "BTC/USD"
  · subst hname
    exact absurd ⟨"BTC@kraken", Venues.represents⟩ hnone
  · have hkeys : (historiesByCanonical (Venues.histories []) "1d").keys = ["BTC/USD"] := by
      decide +kernel
    have hkeys' : (historiesByCanonical (Venues.histories [0]) "1d").keys = ["BTC/USD"] := by
      decide +kernel
    refine absurd ?_ hne
    rw [Venues.measure_of_ne hkeys hname, Venues.measure_of_ne hkeys' hname]

end TraderStack
