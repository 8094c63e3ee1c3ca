import TraderStack.Lib.Groups
import TraderStack.Research.Assignments
import TraderStack.Research.EnsembleVoter
import TraderStack.Research.Universe

/-!
# The ensemble universe (ensemble_trend.py)

At the start of every month the names with a long enough past are ranked by their median dollar
volume of the last bars before it. A name with a short past is taken to be listed when its whole
series, later bars included, has as many bars as the venue gives out.

- `measuresAt_of_settles`: a history that settles a name in both runs measures it alike;
- `membership_point_in_time_iff`: **two runs that agree on the past have the same members**
  exactly when no name shows which history, or what cap, decided it.
-/

namespace TraderStack

open Lib

/-! ## Snapshots -/

/-- The keyword arguments of `universe_snapshots`. -/
structure UniverseRules where
  minListedBars : ℤ
  dollarVolumeBars : ℕ
  minMedianDollarVolume : ℚ
  topK : ℕ
  capBars : ℕ
  -- no median is taken of no bars
  dollarVolumeBars_pos : 0 < dollarVolumeBars

/-- The defaults, with which every caller calls it. -/
def UniverseRules.default : UniverseRules := ⟨365, 30, 2000000, 20, 720, by decide⟩

/-- `_canonical` (ensemble_trend.py:551–552). -/
def canonicalName (symbol : String) : String :=
  (aliasToCanonical.get? (Text.upper symbol)).getD (Text.upper symbol)

/-- `_month_start` (ensemble_trend.py:555–556). -/
def monthStart (moment : Time) : Time := 86400 * firstDayOf (monthOf (utcDate moment))

/-- The name that a history is of. -/
def canonicalOf (candles : List Candle) : Option String :=
  candles.head?.map fun first => canonicalName first.symbol

/-- `by_symbol` (ensemble_trend.py:583–589): the last history of each name, in order. -/
def bySymbol (histories : Dict String (List Candle)) : Dict String (List Candle) :=
  lastBy canonicalOf sortedBars histories.values

/-- The median dollar volume of a series before a month, if the series is listed long enough and
trades enough (ensemble_trend.py:600–607). -/
def listedMedian (rules : UniverseRules) (month : Time) (candles : List Candle) : Option ℚ :=
  let prior := candles.filter fun item => item.openedAt < month
  if (rules.minListedBars ≤ prior.length ∨ rules.capBars ≤ candles.length) ∧
      rules.dollarVolumeBars ≤ prior.length then
    let recent := prior.drop (prior.length - rules.dollarVolumeBars)
    let median := medianOf (recent.map fun item => item.close * item.volume)
    if median < rules.minMedianDollarVolume then none else some median
  else none

/-- The names that qualify for a month, with their medians. -/
def qualifiers (rules : UniverseRules) (month : Time) (byName : Dict String (List Candle)) :
    List (ℚ × String) :=
  byName.entries.filterMap fun e => (listedMedian rules month e.2).map fun median => (median, e.1)

/-- The members for a month. -/
def membersFor (rules : UniverseRules) (month : Time) (byName : Dict String (List Candle)) :
    Finset String :=
  ((top rankKey rules.topK (qualifiers rules month byName)).map Prod.snd).toFinset

/-- The months that have a bar, in order. -/
def monthsOf (byName : Dict String (List Candle)) : List Time :=
  ((byName.values.flatten.map fun candle => monthStart candle.openedAt).dedup).insertionSort (· ≤ ·)

/-- `universe_snapshots` (ensemble_trend.py:568–611). -/
def universeSnapshots (rules : UniverseRules) (histories : Dict String (List Candle)) :
    Dict Time (Finset String) :=
  Dict.ofList ((monthsOf (bySymbol histories)).map fun month =>
    (month, membersFor rules month (bySymbol histories)))

/-- `apply_membership` (ensemble_trend.py:614–625). -/
def applyMembership (symbol : String) (series : List Assignment)
    (snapshots : Dict Time (Finset String)) : List Assignment :=
  series.map fun a =>
    { a with
      weight :=
        if canonicalName symbol ∈ (snapshots.get? (monthStart a.openedAt)).getD ∅ then a.weight
        else 0 }

/-! ## What a snapshot is decided from -/

section

variable {rules : UniverseRules} {month : Time} {histories histories' : Dict String (List Candle)}
  {members members' : Finset String}

/-- The snapshot of a month is that of its qualifiers. -/
theorem members_of_get? (h : (universeSnapshots rules histories).get? month = some members) :
    members = membersFor rules month (bySymbol histories) := by
  obtain ⟨other, -, heq⟩ := List.mem_map.mp (Dict.mem_of_get?_ofList h)
  obtain ⟨rfl, rfl⟩ := Prod.mk.inj heq
  rfl

/-- A month with a bar has a snapshot. -/
theorem exists_snapshot {name : String} {candles : List Candle} {candle : Candle}
    (hname : (bySymbol histories).get? name = some candles) (hcandle : candle ∈ candles) :
    (universeSnapshots rules histories).get? (monthStart candle.openedAt)
      = some (membersFor rules (monthStart candle.openedAt) (bySymbol histories)) := by
  have hmonth : monthStart candle.openedAt ∈ monthsOf (bySymbol histories) := by
    rw [monthsOf, List.mem_insertionSort, List.mem_dedup]
    exact List.mem_map.mpr ⟨candle, List.mem_flatten.mpr
      ⟨candles, Dict.mem_values_iff.mpr ⟨name, hname⟩, hcandle⟩, rfl⟩
  have hmem : (monthStart candle.openedAt,
      membersFor rules (monthStart candle.openedAt) (bySymbol histories)) ∈
      (monthsOf (bySymbol histories)).map fun month =>
        (month, membersFor rules month (bySymbol histories)) :=
    List.mem_map.mpr ⟨_, hmonth, rfl⟩
  obtain ⟨members, hget⟩ := Dict.exists_get?_ofList hmem
  have hsnapshot : (universeSnapshots rules histories).get? (monthStart candle.openedAt)
      = some members := hget
  rw [hsnapshot, members_of_get? hsnapshot]

/-- What a name measures for a month. -/
def measuresAt (rules : UniverseRules) (month : Time) (histories : Dict String (List Candle))
    (name : String) : Option ℚ :=
  ((bySymbol histories).get? name).bind (listedMedian rules month)

/-- **The qualifiers** are the names that measure. -/
theorem mem_qualifiers_iff {item : ℚ × String} :
    item ∈ qualifiers rules month (bySymbol histories) ↔
      measuresAt rules month histories item.2 = some item.1 := by
  rw [qualifiers, List.mem_filterMap, measuresAt, Option.bind_eq_some_iff]
  constructor
  · rintro ⟨e, he, hitem⟩
    obtain ⟨median, hmedian, rfl⟩ := Option.map_eq_some_iff.mp hitem
    exact ⟨e.2, Dict.mem_entries_iff.mp he, hmedian⟩
  · rintro ⟨candles, hcandles, hmedian⟩
    refine ⟨(item.2, candles), Dict.mem_entries_iff.mpr hcandles, ?_⟩
    rw [hmedian]
    rfl

theorem nodup_qualifiers (rules : UniverseRules) (month : Time)
    (byName : Dict String (List Candle)) :
    ((qualifiers rules month byName).map Prod.snd).Nodup := by
  have hsub : ((qualifiers rules month byName).map Prod.snd).Sublist byName.keys := by
    unfold qualifiers Dict.keys
    induction byName.entries with
    | nil => exact List.Sublist.refl _
    | cons e entries ih =>
      rw [List.filterMap_cons, List.map_cons]
      cases listedMedian rules month e.2 with
      | none => exact ih.cons _
      | some median => exact ih.cons_cons _
  exact byName.nodup.sublist hsub

theorem nodup_keys_qualifiers (rules : UniverseRules) (month : Time)
    (byName : Dict String (List Candle)) :
    ((qualifiers rules month byName).map rankKey).Nodup :=
  (List.Nodup.of_map Prod.snd (nodup_qualifiers rules month byName)).map fun _ _ => rankKey_inj

/-- A name is within reach: it measures, and fewer than `top_k` names rank ahead of it. -/
def WithinReach (rules : UniverseRules) (month : Time) (histories : Dict String (List Candle))
    (name : String) : Prop :=
  ∃ median, measuresAt rules month histories name = some median ∧
    (ahead rankKey (qualifiers rules month (bySymbol histories)) (rankKey (median, name))).length
      < rules.topK

theorem mem_membersFor_iff {name : String} :
    name ∈ membersFor rules month (bySymbol histories) ↔ WithinReach rules month histories name := by
  rw [membersFor, List.mem_toFinset, List.mem_map]
  constructor
  · rintro ⟨item, hitem, rfl⟩
    obtain ⟨hmem, hlt⟩ := (mem_top_iff (nodup_keys_qualifiers rules month _)).mp hitem
    exact ⟨item.1, mem_qualifiers_iff.mp hmem, hlt⟩
  · rintro ⟨median, hmedian, hlt⟩
    exact ⟨(median, name), (mem_top_iff (nodup_keys_qualifiers rules month _)).mpr
      ⟨mem_qualifiers_iff.mpr hmedian, hlt⟩, rfl⟩

/-! ## Runs that agree on the past -/

/-- A history settles a name: it is the last one of the name in both runs, and both runs infer
the same from its length. -/
def Settles (rules : UniverseRules) (histories histories' : Dict String (List Candle))
    (name key : String) : Prop :=
  ∃ candles candles', histories.get? key = some candles ∧ histories'.get? key = some candles' ∧
    (bySymbol histories).get? name = some (sortedBars candles) ∧
    (bySymbol histories').get? name = some (sortedBars candles') ∧
    (rules.capBars ≤ candles.length ↔ rules.capBars ≤ candles'.length)

/-- A median is made of the past and of the cap. -/
theorem listedMedian_eq {candles candles' : List Candle}
    (hpast : past month candles = past month candles')
    (hcap : rules.capBars ≤ candles.length ↔ rules.capBars ≤ candles'.length) :
    listedMedian rules month (sortedBars candles) = listedMedian rules month (sortedBars candles') := by
  have hlength : ∀ candles : List Candle, (sortedBars candles).length = candles.length :=
    fun candles => List.length_insertionSort _ candles
  have hprior : ((sortedBars candles).filter fun item => item.openedAt < month)
      = (sortedBars candles').filter fun item => item.openedAt < month := hpast
  unfold listedMedian
  dsimp only
  rw [hprior, hlength, hlength]
  simp only [hcap]

/-- **A history that settles a name** measures it alike in both runs. -/
theorem measuresAt_of_settles (hagree : AgreeOnPast month histories histories') {name key : String}
    (h : Settles rules histories histories' name key) :
    measuresAt rules month histories name = measuresAt rules month histories' name := by
  obtain ⟨candles, candles', hkey, hkey', hname, hname', hcap⟩ := h
  have hpast := hagree key
  rw [hkey, hkey', Option.getD_some, Option.getD_some] at hpast
  rw [measuresAt, measuresAt, hname, hname', Option.bind_some, Option.bind_some,
    listedMedian_eq hpast hcap]

/-- **No later bar shows**: a name that no history settles, and that measures differently, is
within reach in both runs or in neither. -/
def NoLaterBarShows (rules : UniverseRules) (month : Time)
    (histories histories' : Dict String (List Candle)) : Prop :=
  ∀ name, (¬∃ key, Settles rules histories histories' name key) →
    measuresAt rules month histories name ≠ measuresAt rules month histories' name →
    (WithinReach rules month histories name ↔ WithinReach rules month histories' name)

/-- Two runs have the same members when no later bar shows. -/
theorem membersFor_eq_iff (hagree : AgreeOnPast month histories histories') :
    membersFor rules month (bySymbol histories) = membersFor rules month (bySymbol histories') ↔
      NoLaterBarShows rules month histories histories' := by
  constructor
  · intro h name _ _
    rw [← mem_membersFor_iff, ← mem_membersFor_iff, h]
  · intro h
    have hlabels := (labels_top_eq_iff (n := rules.topK)
      (nodup_keys_qualifiers rules month (bySymbol histories))
      (nodup_keys_qualifiers rules month (bySymbol histories'))
      (nodup_qualifiers rules month (bySymbol histories))
      (nodup_qualifiers rules month (bySymbol histories'))).mpr ?_
    · exact Finset.ext fun name => by
        rw [membersFor, membersFor, List.mem_toFinset, List.mem_toFinset]
        exact hlabels name
    · intro name hshared
      have hiff : WithinReach rules month histories name ↔ WithinReach rules month histories' name := by
        by_cases hmeasure : measuresAt rules month histories name
            = measuresAt rules month histories' name
        · -- a name that measures alike is shared, or is no qualifier in either run
          cases hmedian : measuresAt rules month histories name with
          | none =>
            have hmedian' := hmeasure.symm.trans hmedian
            constructor
            · rintro ⟨median, hsome, -⟩
              rw [hmedian] at hsome
              cases hsome
            · rintro ⟨median, hsome, -⟩
              rw [hmedian'] at hsome
              cases hsome
          | some median =>
            exact absurd ⟨(median, name), mem_qualifiers_iff.mpr hmedian,
              mem_qualifiers_iff.mpr (hmeasure.symm.trans hmedian), rfl⟩ hshared
        · refine h name ?_ hmeasure
          rintro ⟨key, hsettles⟩
          exact hmeasure (measuresAt_of_settles hagree hsettles)
      rw [← mem_membersFor_iff, ← mem_membersFor_iff, membersFor, membersFor, List.mem_toFinset,
        List.mem_toFinset] at hiff
      exact hiff

end

/-! ### A series at the cap -/

namespace Capped

theorem one_pos : (0 : ℚ) < 1 := by norm_num

/-- A daily bar of BTC, so many days from the twenty-second of September 2024. -/
def bar (day : ℕ) : Candle where
  symbol := "BTC/USD"
  interval := "1d"
  openedAt := 1726963200 + 86400 * day
  openPrice := 1
  high := 1
  low := 1
  close := 1
  volume := 2000000
  open_pos := one_pos
  high_pos := one_pos
  low_pos := one_pos
  close_pos := one_pos
  volume_nonneg := by norm_num
  high_contains := (max_self _).le
  low_contains := (min_self _).ge

def bars (count : ℕ) : List Candle := (List.range count).map bar

def histories (count : ℕ) : Dict String (List Candle) :=
  Dict.empty.set "BTC/USD@1d" (bars count)

/-- The first of November 2024, forty days on. -/
def november : Time := 1726963200 + 86400 * (40 : ℕ)

theorem sorted_bars (count : ℕ) : sortedBars (bars count) = bars count := by
  refine List.Pairwise.insertionSort_eq (List.pairwise_map.mpr (List.pairwise_lt_range.imp ?_))
  intro i j hij
  show (1726963200 + 86400 * (i : ℚ)) ≤ 1726963200 + 86400 * j
  have hle : (i : ℚ) ≤ j := by exact_mod_cast hij.le
  linarith

/-- The bars before November are the first forty. -/
theorem past_bars {count : ℕ} (h : 40 ≤ count) : past november (bars count) = bars 40 := by
  obtain ⟨rest, rfl⟩ := Nat.exists_eq_add_of_le h
  have hsplit : bars (40 + rest) = bars 40 ++ (List.range' 40 rest).map bar := by
    rw [bars, bars, ← List.map_append, List.range_eq_range', List.range_eq_range',
      List.range'_append_1]
  have hbefore : ∀ c ∈ bars 40, c.openedAt < november := by
    intro c hc
    obtain ⟨day, hday, rfl⟩ := List.mem_map.mp hc
    have hlt : (day : ℚ) < (40 : ℕ) := by exact_mod_cast List.mem_range.mp hday
    show (1726963200 + 86400 * (day : ℚ)) < 1726963200 + 86400 * (40 : ℕ)
    linarith
  have hafter : ∀ c ∈ (List.range' 40 rest).map bar, ¬c.openedAt < november := by
    intro c hc
    obtain ⟨day, hday, rfl⟩ := List.mem_map.mp hc
    have hle : ((40 : ℕ) : ℚ) ≤ day := by exact_mod_cast (List.mem_range'_1.mp hday).1
    show ¬(1726963200 + 86400 * (day : ℚ)) < 1726963200 + 86400 * (40 : ℕ)
    linarith
  rw [past, sorted_bars, hsplit, List.filter_append,
    List.filter_eq_self.mpr fun c hc => decide_eq_true (hbefore c hc),
    List.filter_eq_nil_iff.mpr fun c hc => by simpa using hafter c hc, List.append_nil]

theorem bySymbol_histories (count : ℕ) :
    bySymbol (histories (count + 1)) = Dict.empty.set "BTC/USD" (bars (count + 1)) := by
  have hfirst : (bars (count + 1)).head? = some (bar 0) := by
    rw [bars, List.head?_map, List.head?_range, if_neg (Nat.succ_ne_zero count)]
    rfl
  have hname : canonicalOf (bars (count + 1)) = some "BTC/USD" := by
    rw [canonicalOf, hfirst, Option.map_some]
    decide +kernel
  show lastBy canonicalOf sortedBars [bars (count + 1)] = _
  rw [lastBy, List.foldl_cons, List.foldl_nil, hname]
  dsimp only
  rw [sorted_bars]

/-- Forty bars are too few, unless the series is at the cap. -/
theorem listedMedian_bars {count : ℕ} (h : 40 ≤ count) :
    listedMedian .default november (bars count) = if 720 ≤ count then some 2000000 else none := by
  have hprior : ((bars count).filter fun item => item.openedAt < november) = bars 40 := by
    rw [← past_bars h, past, sorted_bars]
  have hlength : ∀ n, (bars n).length = n := by
    intro n
    rw [bars, List.length_map, List.length_range]
  have hmedian : medianOf (((bars 40).drop (40 - 30)).map fun item => item.close * item.volume)
      = 2000000 := by
    decide +kernel
  unfold listedMedian UniverseRules.default
  dsimp only
  rw [hprior, hlength, hlength, hmedian]
  by_cases hcap : 720 ≤ count
  · rw [if_pos ⟨Or.inr hcap, by norm_num⟩, if_pos hcap, if_neg (lt_irrefl _)]
  · rw [if_neg hcap, if_neg]
    rintro ⟨hlisted | hlisted, -⟩
    · norm_num at hlisted
    · exact hcap hlisted

theorem members_histories {count : ℕ} (h : 40 ≤ count) :
    membersFor .default november (bySymbol (histories (count + 1)))
      = if 720 ≤ count + 1 then {"BTC/USD"} else ∅ := by
  have hqualifiers : qualifiers .default november (bySymbol (histories (count + 1)))
      = if 720 ≤ count + 1 then [(2000000, "BTC/USD")] else [] := by
    rw [qualifiers, bySymbol_histories]
    show [("BTC/USD", bars (count + 1))].filterMap _ = _
    rw [List.filterMap_cons, List.filterMap_nil, listedMedian_bars (by omega)]
    by_cases hcap : 720 ≤ count + 1
    · rw [if_pos hcap, if_pos hcap]
      rfl
    · rw [if_neg hcap, if_neg hcap]
      rfl
  rw [membersFor, hqualifiers]
  by_cases hcap : 720 ≤ count + 1
  · rw [if_pos hcap, if_pos hcap]
    rfl
  · rw [if_neg hcap, if_neg hcap]
    rfl

/-- A series with a bar on the first of November has a snapshot of it. -/
theorem snapshot_histories (count : ℕ) (h : 40 ≤ count) :
    (universeSnapshots .default (histories (count + 1))).get? november
      = some (membersFor .default november (bySymbol (histories (count + 1)))) := by
  have hname : (bySymbol (histories (count + 1))).get? "BTC/USD" = some (bars (count + 1)) := by
    rw [bySymbol_histories, Dict.get?_set_self]
  have hbar : bar 40 ∈ bars (count + 1) :=
    List.mem_map_of_mem (List.mem_range.mpr (Nat.lt_succ_of_le h))
  have hmonth : monthStart (bar 40).openedAt = november := by decide +kernel
  have hsnapshot : (universeSnapshots .default (histories (count + 1))).get?
      (monthStart (bar 40).openedAt) = some (membersFor .default (monthStart (bar 40).openedAt)
        (bySymbol (histories (count + 1)))) :=
    exists_snapshot hname hbar
  rwa [hmonth] at hsnapshot

theorem agree {count count' : ℕ} (h : 40 ≤ count) (h' : 40 ≤ count') :
    AgreeOnPast november (histories count) (histories count') := by
  intro key
  simp only [histories, Dict.get?_set]
  by_cases hkey : key = "BTC/USD@1d"
  · rw [if_pos hkey, if_pos hkey, Option.getD_some, Option.getD_some, past_bars h, past_bars h']
  · rw [if_neg hkey, if_neg hkey]

end Capped

/-- Two series of BTC agree on the bars before November 2024. The one that ends a bar later is at
the cap, is taken to have been listed long before, and is a member; the other one is not. -/
theorem capped_series_is_member :
    AgreeOnPast Capped.november (Capped.histories 720) (Capped.histories 719) ∧
      ∃ members members',
        (universeSnapshots .default (Capped.histories 720)).get? Capped.november = some members ∧
          (universeSnapshots .default (Capped.histories 719)).get? Capped.november
            = some members' ∧
          "BTC/USD" ∈ members ∧ "BTC/USD" ∉ members' := by
  refine ⟨Capped.agree (by norm_num) (by norm_num), _, _,
    Capped.snapshot_histories 719 (by norm_num),
    Capped.snapshot_histories 718 (by norm_num), ?_, ?_⟩
  · rw [Capped.members_histories (by norm_num), if_pos (by norm_num)]
    exact Finset.mem_singleton_self _
  · rw [Capped.members_histories (by norm_num), if_neg (by norm_num)]
    exact Finset.notMem_empty _

/-- **Membership is point-in-time up to its inferences.** Two runs that agree on the bars before
a month, and that both emit its snapshot, have the same members in it, and force the same bars of
it flat, exactly when every name that no history settles, and that measures differently, is
within reach in both runs or in neither. -/
theorem membership_point_in_time_iff (rules : UniverseRules)
    {histories histories' : Dict String (List Candle)} {month : Time}
    {members members' : Finset String} (hagree : AgreeOnPast month histories histories')
    (hmembers : (universeSnapshots rules histories).get? month = some members)
    (hmembers' : (universeSnapshots rules histories').get? month = some members') :
    (members = members' ∧
        ∀ symbol (series : List Assignment), (∀ a ∈ series, monthStart a.openedAt = month) →
          applyMembership symbol series (universeSnapshots rules histories)
            = applyMembership symbol series (universeSnapshots rules histories')) ↔
      NoLaterBarShows rules month histories histories' := by
  rw [← membersFor_eq_iff hagree, ← members_of_get? hmembers, ← members_of_get? hmembers']
  refine and_iff_left_of_imp ?_
  rintro rfl symbol series hseries
  refine List.map_congr_left fun a ha => ?_
  rw [hseries a ha, hmembers, hmembers']

/-- One more bar changes nothing for a series that is at the cap already. -/
theorem membership_point_in_time_iff_capped :
    ∃ members members',
      (universeSnapshots .default (Capped.histories 720)).get? Capped.november = some members ∧
        (universeSnapshots .default (Capped.histories 721)).get? Capped.november = some members' ∧
        members = members' ∧
        ∀ symbol (series : List Assignment),
          (∀ a ∈ series, monthStart a.openedAt = Capped.november) →
            applyMembership symbol series (universeSnapshots .default (Capped.histories 720))
              = applyMembership symbol series
                  (universeSnapshots .default (Capped.histories 721)) := by
  have hsnapshot := Capped.snapshot_histories 719 (by norm_num)
  have hsnapshot' := Capped.snapshot_histories 720 (by norm_num)
  refine ⟨_, _, hsnapshot, hsnapshot', (membership_point_in_time_iff .default
    (Capped.agree (by norm_num) (by norm_num)) hsnapshot hsnapshot').mpr ?_⟩
  intro name hunsettled hmeasures
  by_cases hname : name = "BTC/USD"
  · refine absurd ⟨"BTC/USD@1d", Capped.bars 720, Capped.bars 721, Dict.get?_set_self _ _ _,
      Dict.get?_set_self _ _ _, ?_, ?_, ?_⟩ hunsettled
    · rw [hname, Capped.bySymbol_histories, Dict.get?_set_self, Capped.sorted_bars]
    · rw [hname, Capped.bySymbol_histories, Dict.get?_set_self, Capped.sorted_bars]
    · rw [Capped.bars, Capped.bars, List.length_map, List.length_map, List.length_range,
        List.length_range]
      exact iff_of_true (le_refl 720) (by decide)
  · have hnone : ∀ count, measuresAt .default Capped.november (Capped.histories (count + 1)) name
        = none := by
      intro count
      rw [measuresAt, Capped.bySymbol_histories, Dict.get?_set_of_ne _ hname, Dict.get?_empty]
      rfl
    exact absurd ((hnone 719).trans (hnone 720).symm) hmeasures

end TraderStack
