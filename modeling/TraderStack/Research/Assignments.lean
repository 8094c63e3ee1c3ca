import TraderStack.Agents.Review
import TraderStack.Lib.Groups
import TraderStack.Lib.LaterRows
import TraderStack.Research.Indicators

/-!
# Precomputed assignments and their voters

Several families compute a position series per asset from whole histories, hand it to a voter
under every alias of the asset, and the voter looks the position of a bar up by its opening time.
A bar without an assignment and a bar with a flat one get the same vote.

- `barsOf_upTo`: the bars of an asset up to a moment are decided by those of the histories;
- `vote_evaluate`: a vote depends on the position looked up, and none counts as flat;
- `sameVotes_signalsOf`: **a series that later bars do not change** is voted alike.
-/

namespace TraderStack

open Lib

/-- Positions with the opening times of their bars. -/
abbrev PositionSeries := List (Time × ℚ)

/-! ## Aliases -/

/-- `ALIAS_TO_CANONICAL` (donchian_breakout.py:125–136). -/
def aliasToCanonical : Dict String String :=
  Dict.ofList
    [("BTC/USD", "BTC/USD"), ("BTCUSDT", "BTC/USD"), ("BTC-USD", "BTC/USD"), ("XBT/USD", "BTC/USD"),
      ("ETH/USD", "ETH/USD"), ("ETHUSDT", "ETH/USD"), ("ETH-USD", "ETH/USD"),
      ("SOL/USD", "SOL/USD"), ("SOLUSDT", "SOL/USD"), ("SOL-USD", "SOL/USD")]

/-- The aliases are in upper case. -/
theorem upper_aliasToCanonical : ∀ key ∈ aliasToCanonical.keys, Text.upper key = key := by
  decide +kernel

/-- The asset that a history is of: what its first symbol is an alias for. -/
def assetOf (aliases : Dict String String) (candles : List Candle) : Option String :=
  candles.head?.bind fun first => aliases.get? (Text.upper first.symbol)

/-- `_histories_by_canonical` (volume_breakout.py:352–363; bollinger_fade.py and lead_lag.py have
their own copies): the last history of each asset. -/
def historiesByAlias (aliases : Dict String String) (histories : Dict String (List Candle)) :
    Dict String (List Candle) :=
  lastBy (assetOf aliases) id histories.values

/-- The bars of an asset, none where it has no history. -/
def barsOf (aliases : Dict String String) (histories : Dict String (List Candle))
    (asset : String) : List Candle :=
  ((historiesByAlias aliases histories).get? asset).getD []

/-! ## Well-formed histories -/

/-- Histories of one symbol each, with ascending opening times, and at most one of each asset. -/
structure WellFormed (aliases : Dict String String) (histories : Dict String (List Candle)) :
    Prop where
  one_symbol : ∀ key candles, histories.get? key = some candles →
    ∀ c ∈ candles, ∀ d ∈ candles, c.symbol = d.symbol
  ascending : ∀ key candles, histories.get? key = some candles →
    candles.Pairwise fun a b => a.openedAt < b.openedAt
  one_history : ∀ key key' candles candles' asset, histories.get? key = some candles →
    histories.get? key' = some candles' → assetOf aliases candles = some asset →
    assetOf aliases candles' = some asset → key = key'

/-- **The two sets of histories agree** on all bars up to a moment. -/
def AgreeUpTo (t : Time) (histories histories' : Dict String (List Candle)) : Prop :=
  ∀ key, upTo Candle.openedAt t ((histories.get? key).getD [])
    = upTo Candle.openedAt t ((histories'.get? key).getD [])

section

variable {aliases : Dict String String} {histories histories' : Dict String (List Candle)}
  {asset : String} {t : Time}

/-- A history of an asset is one of those given. -/
theorem exists_key_of_historiesByAlias {candles : List Candle}
    (h : (historiesByAlias aliases histories).get? asset = some candles) :
    ∃ key, histories.get? key = some candles ∧ assetOf aliases candles = some asset := by
  obtain ⟨taken, hmem, hasset, rfl⟩ := exists_of_get?_lastBy h
  obtain ⟨key, hkey⟩ := Dict.mem_values_iff.mp hmem
  exact ⟨key, hkey, hasset⟩

/-- The one history of an asset stands for it. -/
theorem historiesByAlias_of_get? (hwf : WellFormed aliases histories) {key : String}
    {candles : List Candle} (hkey : histories.get? key = some candles)
    (hasset : assetOf aliases candles = some asset) :
    (historiesByAlias aliases histories).get? asset = some candles := by
  refine get?_lastBy_of_unique (Dict.mem_values_iff.mpr ⟨key, hkey⟩) hasset ?_
  intro other hother hof
  obtain ⟨key', hkey'⟩ := Dict.mem_values_iff.mp hother
  obtain rfl := hwf.one_history key key' candles other asset hkey hkey' hasset hof
  exact Option.some.inj (hkey'.symm.trans hkey)

theorem ascending_barsOf (hwf : WellFormed aliases histories) (asset : String) :
    (barsOf aliases histories asset).Pairwise fun a b => a.openedAt < b.openedAt := by
  unfold barsOf
  cases htaken : (historiesByAlias aliases histories).get? asset with
  | none => exact List.Pairwise.nil
  | some candles =>
    obtain ⟨key, hkey, -⟩ := exists_key_of_historiesByAlias htaken
    exact hwf.ascending key candles hkey

/-- **At most one history** is of an asset. -/
theorem length_filter_assetOf (hwf : WellFormed aliases histories) (asset : String) :
    (histories.values.filter fun candles => assetOf aliases candles = some asset).length ≤ 1 := by
  rw [Dict.values, List.filter_map, List.length_map]
  have hkeys : (histories.entries.filter
      ((fun candles => decide (assetOf aliases candles = some asset)) ∘ Prod.snd)).Pairwise
        fun a b => a.1 ≠ b.1 :=
    (List.pairwise_map.mp histories.nodup).sublist List.filter_sublist
  rcases hof : histories.entries.filter
      ((fun candles => decide (assetOf aliases candles = some asset)) ∘ Prod.snd) with
    _ | ⟨a, _ | ⟨b, rest⟩⟩
  · exact Nat.zero_le 1
  · exact le_rfl
  · -- two of them would have the same key
    have hmem : ∀ e ∈ a :: b :: rest,
        histories.get? e.1 = some e.2 ∧ assetOf aliases e.2 = some asset := by
      intro e he
      rw [← hof] at he
      obtain ⟨hentry, hasset⟩ := List.mem_filter.mp he
      exact ⟨Dict.mem_entries_iff.mp hentry, by simpa using hasset⟩
    obtain ⟨ha, hofa⟩ := hmem a (by simp)
    obtain ⟨hb, hofb⟩ := hmem b (by simp)
    rw [hof] at hkeys
    exact absurd (hwf.one_history _ _ _ _ asset ha hb hofa hofb)
      ((List.pairwise_cons.mp hkeys).1 b (by simp))

/-- The asset of a history is that of each of its bars. -/
theorem assetOf_of_mem {key : String} {candles : List Candle} (hwf : WellFormed aliases histories)
    (hkey : histories.get? key = some candles) {bar : Candle} (hbar : bar ∈ candles) :
    assetOf aliases candles = aliases.get? (Text.upper bar.symbol) := by
  cases candles with
  | nil => exact absurd hbar List.not_mem_nil
  | cons first rest =>
    rw [hwf.one_symbol key _ hkey bar hbar first List.mem_cons_self]
    rfl

/-- Bars of an asset up to a moment are such bars in the other run. -/
theorem barsOf_upTo_of_ne_nil (hwf : WellFormed aliases histories)
    (hwf' : WellFormed aliases histories') (hagree : AgreeUpTo t histories histories')
    (hne : upTo Candle.openedAt t (barsOf aliases histories asset) ≠ []) :
    upTo Candle.openedAt t (barsOf aliases histories asset)
      = upTo Candle.openedAt t (barsOf aliases histories' asset) := by
  unfold barsOf at hne ⊢
  cases htaken : (historiesByAlias aliases histories).get? asset with
  | none =>
    rw [htaken] at hne
    exact absurd rfl hne
  | some candles =>
    rw [htaken, Option.getD_some] at hne
    rw [Option.getD_some]
    obtain ⟨key, hkey, hof⟩ := exists_key_of_historiesByAlias htaken
    have hsame := hagree key
    rw [hkey, Option.getD_some] at hsame
    -- the history of the key has a bar up to the moment, so it is of the same asset
    obtain ⟨bar, hbar⟩ := List.exists_mem_of_ne_nil _ hne
    have hbar' := hsame ▸ hbar
    cases hkey' : histories'.get? key with
    | none =>
      rw [hkey'] at hbar'
      exact absurd hbar' List.not_mem_nil
    | some candles' =>
      rw [hkey', Option.getD_some] at hsame hbar'
      have hof' : assetOf aliases candles' = some asset := by
        rw [assetOf_of_mem hwf' hkey' (mem_upTo.mp hbar').1, ← hof,
          assetOf_of_mem hwf hkey (mem_upTo.mp hbar).1]
      rw [historiesByAlias_of_get? hwf' hkey' hof', Option.getD_some, hsame]

/-- **The bars of an asset up to a moment** are decided by those of the histories. -/
theorem barsOf_upTo (hwf : WellFormed aliases histories) (hwf' : WellFormed aliases histories')
    (hagree : AgreeUpTo t histories histories') (asset : String) :
    upTo Candle.openedAt t (barsOf aliases histories asset)
      = upTo Candle.openedAt t (barsOf aliases histories' asset) := by
  by_cases hne : upTo Candle.openedAt t (barsOf aliases histories asset) = []
  · by_cases hne' : upTo Candle.openedAt t (barsOf aliases histories' asset) = []
    · rw [hne, hne']
    · exact (barsOf_upTo_of_ne_nil hwf' hwf (fun key => (hagree key).symm) hne').symm
  · exact barsOf_upTo_of_ne_nil hwf hwf' hagree hne

end

/-! ## The signals of a family -/

/-- The series of each asset that has one (volume_breakout.py:376–394;
bollinger_fade.py:396–401). -/
def perAsset (series : List Candle → PositionSeries) (byCanonical : Dict String (List Candle)) :
    Dict String PositionSeries :=
  (byCanonical.map fun _ candles => series candles).filter fun values => !values.isEmpty

/-- The series of the assets under their aliases. -/
def spread (aliases : Dict String String) (series : Dict String PositionSeries) :
    Dict String PositionSeries :=
  Dict.ofList (aliases.entries.filterMap fun e =>
    (series.get? e.2).map fun values => (e.1, values))

/-- The signals of a family that looks at one asset at a time. -/
def signalsOf (aliases : Dict String String) (series : List Candle → PositionSeries)
    (histories : Dict String (List Candle)) : Dict String PositionSeries :=
  spread aliases (perAsset series (historiesByAlias aliases histories))

/-! ## The voters -/

/-- The fields of the voters. -/
structure AssignmentVoter where
  strategyId : String
  signalsBySymbol : List (String × PositionSeries)

/-- The words of a voter: where there is no assignment, and before one. -/
structure VoterWords where
  missing : String
  assigned : String

namespace AssignmentVoter

/-- A voter on the signals of a family: `(key.upper(), values)`, in order of the keys. -/
def of (strategyId : String) (mapping : Dict String PositionSeries) : AssignmentVoter where
  strategyId := strategyId
  signalsBySymbol := (mapping.entries.insertionSort fun a b => a.1 ≤ b.1).map fun e =>
    (Text.upper e.1, e.2)

/-- `series_for`. -/
def seriesFor (v : AssignmentVoter) (symbol : String) : PositionSeries :=
  ((v.signalsBySymbol.find? fun e => e.1 = Text.upper symbol).map Prod.snd).getD []

/-- `evaluate`; the format is `:+.0f`. -/
def evaluate (words : VoterWords) (signed0 : ℚ → String) (v : AssignmentVoter)
    (candles : List Candle) (regime : Regime) : Except ResearchError StrategySignal :=
  match candles.getLast? with
  | none => .error (.fatal "IndexError")
  | some last =>
    .ok
      (match (Dict.ofList (v.seriesFor last.symbol)).get? last.openedAt with
      | none =>
        { strategyId := v.strategyId
          symbol := last.symbol
          side := none
          score := 0
          confidence := 0
          regime := regime
          rationale := words.missing }
      | some value =>
        let side := if 0 < value then some Side.buy else if value < 0 then some Side.sell else none
        { strategyId := v.strategyId
          symbol := last.symbol
          side := side
          score := max (-1) (min 1 value)
          confidence := if side.isSome then 1 else 0
          regime := regime
          rationale := words.assigned ++ signed0 value })

end AssignmentVoter

/-- What a signal votes. -/
structure Vote where
  side : Option Side
  score : ℚ
  confidence : ℚ

/-- The vote of a signal. -/
def StrategySignal.vote (signal : StrategySignal) : Vote :=
  ⟨signal.side, signal.score, signal.confidence⟩

/-- The vote for a position. -/
def voteFor (value : ℚ) : Vote where
  side := if 0 < value then some Side.buy else if value < 0 then some Side.sell else none
  score := max (-1) (min 1 value)
  confidence :=
    if (if 0 < value then some Side.buy else if value < 0 then some Side.sell else none).isSome
    then 1 else 0

/-- A flat position is voted like none. -/
theorem voteFor_zero : voteFor 0 = ⟨none, 0, 0⟩ := by
  simp [voteFor]

section

variable {words : VoterWords} {signed0 : ℚ → String} {regime : Regime} {candles : List Candle}

/-- **A vote** depends on the position looked up, and none counts as flat. -/
theorem vote_evaluate (v : AssignmentVoter) {last : Candle} (hlast : candles.getLast? = some last) :
    (v.evaluate words signed0 candles regime).map StrategySignal.vote
      = .ok (voteFor (lookup 0 (v.seriesFor last.symbol) last.openedAt)) := by
  unfold AssignmentVoter.evaluate lookup
  rw [hlast]
  dsimp only
  generalize (Dict.ofList (v.seriesFor last.symbol)).get? last.openedAt = found
  cases found with
  | none =>
    rw [Option.getD_none, voteFor_zero]
    rfl
  | some value => rfl

/-- The series for a symbol is the mapping's, where its keys are in upper case. -/
theorem seriesFor_of {strategyId : String} {mapping : Dict String PositionSeries}
    (hupper : ∀ key ∈ mapping.keys, Text.upper key = key) (symbol : String) :
    (AssignmentVoter.of strategyId mapping).seriesFor symbol
      = (mapping.get? (Text.upper symbol)).getD [] := by
  have hkeys : ∀ e ∈ mapping.entries.insertionSort fun a b => a.1 ≤ b.1,
      mapping.get? e.1 = some e.2 ∧ Text.upper e.1 = e.1 := by
    intro e he
    have hmem := (List.mem_insertionSort _).mp he
    exact ⟨Dict.mem_entries_iff.mp hmem, hupper _ (List.mem_map_of_mem hmem)⟩
  unfold AssignmentVoter.seriesFor AssignmentVoter.of
  dsimp only
  rw [List.find?_map, Option.map_map]
  cases hfind : (mapping.entries.insertionSort fun a b => a.1 ≤ b.1).find?
      ((fun e : String × PositionSeries => decide (e.1 = Text.upper symbol)) ∘
        fun e => (Text.upper e.1, e.2)) with
  | none =>
    -- no key of the mapping is the symbol
    have hnone : mapping.get? (Text.upper symbol) = none := by
      rw [Dict.get?_eq_none_iff]
      intro hmem
      obtain ⟨e, he, hsymbol⟩ := List.mem_map.mp hmem
      have hsorted : e ∈ mapping.entries.insertionSort fun a b => a.1 ≤ b.1 :=
        (List.mem_insertionSort _).mpr he
      have hother := List.find?_eq_none.mp hfind e hsorted
      simp [hsymbol] at hother
    rw [hnone]
    rfl
  | some e =>
    obtain ⟨hget, hup⟩ := hkeys e (List.mem_of_find?_eq_some hfind)
    have hsymbol := List.find?_some hfind
    simp only [Function.comp_apply, decide_eq_true_eq, hup] at hsymbol
    rw [← hsymbol, hget]
    rfl

/-- **The two voters vote alike** on every bar that opens at a moment. -/
def SameVotes (words : VoterWords) (t : Time) (mapping mapping' : Dict String PositionSeries) :
    Prop :=
  ∀ strategyId signed0 candles regime,
    (∃ last, candles.getLast? = some last ∧ last.openedAt = t) →
      ((AssignmentVoter.of strategyId mapping).evaluate words signed0 candles regime).map
          StrategySignal.vote
        = ((AssignmentVoter.of strategyId mapping').evaluate words signed0 candles regime).map
          StrategySignal.vote

theorem sameVotes_of_lookup {t : Time} {mapping mapping' : Dict String PositionSeries}
    (hupper : ∀ key ∈ mapping.keys, Text.upper key = key)
    (hupper' : ∀ key ∈ mapping'.keys, Text.upper key = key)
    (h : ∀ key,
      lookup 0 ((mapping.get? key).getD []) t = lookup 0 ((mapping'.get? key).getD []) t) :
    SameVotes words t mapping mapping' := by
  rintro strategyId signed0 candles regime ⟨last, hlast, rfl⟩
  rw [vote_evaluate _ hlast, vote_evaluate _ hlast, seriesFor_of hupper, seriesFor_of hupper', h]

end

/-! ## Point in time -/

section

variable {aliases : Dict String String} {histories histories' : Dict String (List Candle)}
  {t : Time} {words : VoterWords}

/-- An alias finds the series of its asset. -/
theorem get?_spread (series : Dict String PositionSeries) (key : String) :
    (spread aliases series).get? key = (aliases.get? key).bind series.get? := by
  have hentries : (spread aliases series).entries
      = aliases.entries.filterMap fun e => (series.get? e.2).map fun values => (e.1, values) := by
    have hsub : ((aliases.entries.filterMap fun e =>
        (series.get? e.2).map fun values => (e.1, values)).map Prod.fst).Sublist
          aliases.keys := by
      unfold Dict.keys
      induction aliases.entries with
      | nil => exact List.Sublist.refl _
      | cons e entries ih =>
        rw [List.filterMap_cons, List.map_cons]
        cases series.get? e.2 with
        | none => exact ih.cons _
        | some values => exact ih.cons_cons _
    have hall := Dict.foldl_set_entries (d := (Dict.empty : Dict String PositionSeries))
      (aliases.nodup.sublist hsub)
    rw [Dict.empty, List.nil_append] at hall
    exact hall
  refine Option.ext fun values => ?_
  rw [← Dict.mem_entries_iff, hentries, List.mem_filterMap, Option.bind_eq_some_iff]
  constructor
  · rintro ⟨e, he, hvalues⟩
    obtain ⟨found, hfound, heq⟩ := Option.map_eq_some_iff.mp hvalues
    obtain ⟨rfl, rfl⟩ := Prod.mk.inj heq
    exact ⟨e.2, Dict.mem_entries_iff.mp he, hfound⟩
  · rintro ⟨asset, hasset, hvalues⟩
    exact ⟨(key, asset), Dict.mem_entries_iff.mpr hasset, by rw [hvalues]; rfl⟩

theorem keys_spread {series : Dict String PositionSeries} {key : String}
    (h : key ∈ (spread aliases series).keys) : key ∈ aliases.keys := by
  by_contra hnot
  have hnone : (spread aliases series).get? key = none := by
    rw [get?_spread, Dict.get?_eq_none_iff.mpr hnot]
    rfl
  exact Dict.get?_eq_none_iff.mp hnone h

/-- The series under an alias is that of the bars of its asset. -/
theorem getD_signalsOf {series : List Candle → PositionSeries} (hnil : series [] = [])
    (key : String) :
    ((signalsOf aliases series histories).get? key).getD []
      = (aliases.get? key).elim [] fun asset => series (barsOf aliases histories asset) := by
  rw [signalsOf, get?_spread]
  cases aliases.get? key with
  | none => rfl
  | some asset =>
    have hget : ∀ values, (perAsset series (historiesByAlias aliases histories)).get? asset
        = some values ↔ ((historiesByAlias aliases histories).get? asset).map series = some values ∧
          values ≠ [] := by
      intro values
      rw [perAsset, Dict.get?_filter, Dict.get?_map]
      simp
    rw [Option.bind_some, Option.elim_some, barsOf]
    cases hfound : (perAsset series (historiesByAlias aliases histories)).get? asset with
    | some values =>
      obtain ⟨hseries, -⟩ := (hget values).mp hfound
      cases htaken : (historiesByAlias aliases histories).get? asset with
      | none =>
        rw [htaken] at hseries
        cases hseries
      | some candles =>
        rw [htaken] at hseries
        exact (Option.some.inj hseries).symm
    | none =>
      cases htaken : (historiesByAlias aliases histories).get? asset with
      | none => exact hnil.symm
      | some candles =>
        by_contra hne
        have hsome := (hget (series candles)).mpr
          ⟨by rw [htaken]; rfl, fun hempty => hne hempty.symm⟩
        rw [hfound] at hsome
        cases hsome

/-- **A series that later bars do not change** is voted alike by the voters of two sets of
histories that agree up to the moment. -/
theorem sameVotes_signalsOf {series : List Candle → PositionSeries} (hnil : series [] = [])
    (hseries : IgnoresNext Candle.openedAt fun candles t => lookup 0 (series candles) t)
    (hupper : ∀ key ∈ aliases.keys, Text.upper key = key)
    (hwf : WellFormed aliases histories) (hwf' : WellFormed aliases histories')
    (hagree : AgreeUpTo t histories histories') :
    SameVotes words t (signalsOf aliases series histories)
      (signalsOf aliases series histories') := by
  refine sameVotes_of_lookup (fun key hkey => hupper key (keys_spread hkey))
    (fun key hkey => hupper key (keys_spread hkey)) fun key => ?_
  rw [getD_signalsOf hnil, getD_signalsOf hnil]
  cases aliases.get? key with
  | none => rfl
  | some asset =>
    exact read_eq_of_upTo hseries (ascending_barsOf hwf asset) (ascending_barsOf hwf' asset)
      (barsOf_upTo hwf hwf' hagree asset)

end

end TraderStack
