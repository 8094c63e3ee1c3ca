import TraderStack.Research.Ensemble
import TraderStack.Research.EnsembleTrend

/-!
# The ensemble trend and its voter (research/ensemble_trend.py)

The weight of a bar is the share of the lookbacks that are open on it, scaled by a volatility
target. The research computes the series of a whole history once; the voter at decision time
computes it from the bars it has and takes the last one.

- `ensembleTrendSeries_take`: the series of the first bars is the first part of the series;
- `ensemble_trend_point_in_time`: **the sliding channel is the plain one and never looks ahead**,
  and the voter gives a bar the weight that the precomputed series assigns to it.
-/

namespace TraderStack

open Lib

/-! ## The series -/

/-- `realised_vol_annualised` (ensemble_trend.py:470–490). -/
def realisedVolAnnualised (sqrt : ℚ → ℚ) (candles : List Candle) (index : ℕ) (lookback : ℤ) :
    Except ResearchError (Option ℚ) :=
  if lookback < 2 ∨ index < lookback ∨ candles.length ≤ index then .ok none
  else
    let window := trailing (lookback.toNat + 1) (index + 1) candles
    let returns := simpleReturns (window.map Candle.close)
    if returns.length < lookback then .ok none
    else
      match candles.head? with
      | none => .error (.fatal "IndexError")
      | some first =>
        (periodsPerYear first.interval).map fun periods =>
          some (standardDeviation sqrt returns * sqrt periods)

/-- `_vol_scalar` (ensemble_trend.py:493–500). -/
def volScalar (vol volTarget : Option ℚ) : Option ℚ :=
  match volTarget with
  | none => some 1
  | some target => vol.map fun vol => if vol ≤ 0 then 1 else min (target / vol) 1

/-- The keyword arguments of `ensemble_trend_series`. -/
structure EnsembleArgs where
  lookbacks : List ℤ
  volTarget : Option ℚ
  volLookback : ℤ
  minOpen : ℤ

/-- What is assigned to a bar. -/
structure Assignment where
  openedAt : Time
  weight : ℚ
  openCount : ℕ
deriving DecidableEq

section

variable (sqrt : ℚ → ℚ) (candles : List Candle) (args : EnsembleArgs)

/-- Is a lookback open at a moment: `states[n].get(ts, False)`. -/
def openAt (lookback : ℤ) (moment : Time) : Bool :=
  ((Dict.ofList ((lookbackStateSeries candles lookback).map fun bar =>
    (bar.openedAt, bar.inPosition))).get? moment).getD false

/-- How many lookbacks are open on a bar. -/
def openCountAt (index : ℕ) : ℕ :=
  args.lookbacks.countP fun lookback => openAt candles lookback (momentAt candles index)

/-- The weight of a bar with so many open lookbacks (ensemble_trend.py:542–546). -/
def weightOf (openCount : ℕ) (scalar : ℚ) : ℚ :=
  max 0 (min (if args.minOpen ≠ 0 ∧ openCount < args.minOpen then 0
    else openCount / args.lookbacks.length * scalar) 1)

/-- The volatility of a bar, if there is a target other than zero. -/
def targetedVol (index : ℕ) : Except ResearchError (Option ℚ) :=
  if args.volTarget.all (· = 0) then .ok none
  else realisedVolAnnualised sqrt candles index args.volLookback

/-- The assignment of a bar, unless it is skipped (ensemble_trend.py:533–547). -/
def assignmentAt (index : ℕ) : Except ResearchError (Option Assignment) :=
  (targetedVol sqrt candles args index).map fun vol =>
    (volScalar vol args.volTarget).map fun scalar =>
      { openedAt := momentAt candles index
        weight := weightOf args (openCountAt candles args index) scalar
        openCount := openCountAt candles args index }

/-- The first bar with every channel, and with the window of the volatility. -/
def EnsembleArgs.start : ℤ :=
  let longest := args.lookbacks.foldl max 0
  if args.volTarget.isSome then max longest args.volLookback else longest

/-- `ensemble_trend_series` (ensemble_trend.py:503–548). -/
def ensembleTrendSeries : Except ResearchError (List Assignment) :=
  if args.lookbacks = [] ∨ args.lookbacks.any (· ≤ 0) then .ok []
  else if args.minOpen < 0 then
    .error (.decision ("min_open must be >= 0, got " ++ toString args.minOpen))
  else if candles.length < args.start + 1 then .ok []
  else
    (collect (assignmentAt sqrt candles args)
      (List.range' args.start.toNat (candles.length - args.start.toNat))).map
        List.reduceOption

end

/-! ## The voter -/

/-- `EnsembleTrendVoter` (ensemble_trend.py:678–686). -/
structure EnsembleTrendVoter where
  strategyId : String
  lookbacks : List ℤ
  volTarget : Option ℚ
  minOpen : ℤ
  signalsBySymbol : List (String × List Assignment)

namespace EnsembleTrendVoter

/-- `VOL_LOOKBACK`. -/
def volLookback : ℤ := 90

/-- The arguments of the recompute. -/
def args (v : EnsembleTrendVoter) : EnsembleArgs :=
  ⟨v.lookbacks, v.volTarget, volLookback, v.minOpen⟩

/-- `series_for` (ensemble_trend.py:732–737). -/
def seriesFor (v : EnsembleTrendVoter) (symbol : String) : List Assignment :=
  ((v.signalsBySymbol.find? fun e => e.1 = Text.upper symbol).map Prod.snd).getD []

/-- The assignment of the last bar: looked up, else recomputed (ensemble_trend.py:688–706). -/
def found (sqrt : ℚ → ℚ) (v : EnsembleTrendVoter) (candles : List Candle) (last : Candle) :
    Except ResearchError (Option Assignment × String) :=
  if v.seriesFor last.symbol ≠ [] then
    .ok ((Dict.ofList ((v.seriesFor last.symbol).map fun a => (a.openedAt, a))).get? last.openedAt,
      "precomputed")
  else
    (ensembleTrendSeries sqrt candles v.args).map fun computed =>
      (computed.getLast?.filter fun a => a.openedAt = last.openedAt, "decision-time recompute")

/-- `evaluate` (ensemble_trend.py:688–730); the format is `:.3f`. -/
def evaluate (sqrt : ℚ → ℚ) (fixed3 : ℚ → String) (v : EnsembleTrendVoter) (candles : List Candle)
    (regime : Regime) : Except ResearchError StrategySignal :=
  match candles.getLast? with
  | none => .error (.fatal "IndexError")
  | some last =>
    (v.found sqrt candles last).map fun found =>
      match found.1 with
      | none =>
        { strategyId := v.strategyId
          symbol := last.symbol
          side := none
          score := 0
          confidence := 0
          regime := regime
          rationale := "ensemble_trend: no same-bar assignment (warmup / skipped)" }
      | some a =>
        let weight := max 0 (min a.weight 1)
        { strategyId := v.strategyId
          symbol := last.symbol
          side := if 0 < weight then some .buy else none
          score := weight
          confidence := weight
          regime := regime
          rationale := "ensemble_trend weight=" ++ fixed3 weight ++ " open=" ++ toString a.openCount
            ++ "/" ++ toString v.lookbacks.length ++ " (" ++ found.2 ++ "; long-only)" }

end EnsembleTrendVoter

/-! ## Later bars -/

section

variable {sqrt : ℚ → ℚ} {candles : List Candle} {args : EnsembleArgs} {index k : ℕ}

/-- When a lookback is open on a bar: after its spell. -/
theorem openAt_iff (hsorted : candles.Pairwise fun a b => a.openedAt < b.openedAt)
    (hindex : index < candles.length) {lookback : ℤ} :
    openAt candles lookback (momentAt candles index) = true ↔ 0 < lookback ∧ lookback ≤ index ∧
      (spellAfter candles lookback.toNat (index + 1)).inPosition = true := by
  have hmem : ∀ {moment : Time} {isOpen : Bool}, (moment, isOpen) ∈
      (lookbackStateSeries candles lookback).map (fun bar => (bar.openedAt, bar.inPosition)) ↔
      ∃ j : ℕ, 0 < lookback ∧ lookback ≤ j ∧ j < candles.length ∧ momentAt candles j = moment ∧
        (spellAfter candles lookback.toNat (j + 1)).inPosition = isOpen := by
    intro moment isOpen
    rw [lookbackStateSeries_eq, plainStateSeries]
    split
    · refine iff_of_false List.not_mem_nil ?_
      rintro ⟨j, hpos, -⟩
      omega
    · rw [List.map_map, List.mem_map]
      constructor
      · rintro ⟨j, hj, heq⟩
        have hj' := List.mem_range'_1.mp hj
        obtain ⟨hmoment, hopen⟩ := Prod.mk.inj heq
        exact ⟨j, by omega, by omega, by omega, hmoment, hopen⟩
      · rintro ⟨j, hpos, hfrom, hlt, rfl, rfl⟩
        exact ⟨j, List.mem_range'_1.mpr ⟨by omega, by omega⟩, rfl⟩
  rw [openAt]
  constructor
  · intro hopen
    cases hget : (Dict.ofList ((lookbackStateSeries candles lookback).map fun bar =>
        (bar.openedAt, bar.inPosition))).get? (momentAt candles index) with
    | none =>
      rw [hget] at hopen
      exact absurd hopen Bool.false_ne_true
    | some isOpen =>
      rw [hget, Option.getD_some] at hopen
      obtain ⟨j, hpos, hfrom, hlt, hmoment, hin⟩ := hmem.mp (Dict.mem_of_get?_ofList hget)
      obtain rfl := momentAt_inj hsorted hlt hindex hmoment
      exact ⟨hpos, hfrom, hin.trans hopen⟩
  · rintro ⟨hpos, hfrom, hin⟩
    obtain ⟨isOpen, hget⟩ := Dict.exists_get?_ofList
      (hmem.mpr ⟨index, hpos, hfrom, hindex, rfl, hin⟩)
    obtain ⟨j, -, -, hlt, hmoment, hin'⟩ := hmem.mp (Dict.mem_of_get?_ofList hget)
    obtain rfl := momentAt_inj hsorted hlt hindex hmoment
    rw [hget, Option.getD_some, ← hin', hin]

theorem openCountAt_take (hsorted : candles.Pairwise fun a b => a.openedAt < b.openedAt)
    (hindex : index < candles.length) (hk : index < k) :
    openCountAt (candles.take k) args index = openCountAt candles args index := by
  have hsorted' : (candles.take k).Pairwise fun a b => a.openedAt < b.openedAt :=
    hsorted.sublist (List.take_sublist _ _)
  have hindex' : index < (candles.take k).length := by
    rw [List.length_take]
    omega
  refine List.countP_congr fun lookback _ => ?_
  rw [openAt_iff hsorted' hindex', openAt_iff hsorted hindex, spellAfter_take hk]

theorem realisedVolAnnualised_take (hindex : index < candles.length) (hk : index < k)
    (lookback : ℤ) : realisedVolAnnualised sqrt (candles.take k) index lookback =
      realisedVolAnnualised sqrt candles index lookback := by
  have hlength : (candles.take k).length ≤ index ↔ candles.length ≤ index := by
    rw [List.length_take]
    omega
  have hhead : (candles.take k).head? = candles.head? := by
    rw [List.head?_take, if_neg (by omega)]
  rw [realisedVolAnnualised, realisedVolAnnualised, trailing_take hk, hhead]
  simp only [hlength]

theorem assignmentAt_take (hsorted : candles.Pairwise fun a b => a.openedAt < b.openedAt)
    (hindex : index < candles.length) (hk : index < k) :
    assignmentAt sqrt (candles.take k) args index = assignmentAt sqrt candles args index := by
  rw [assignmentAt, assignmentAt, targetedVol, targetedVol,
    realisedVolAnnualised_take hindex hk, openCountAt_take hsorted hindex hk, momentAt_take hk]

variable (sqrt candles args) in
/-- What a bar is assigned, if its volatility can be computed. -/
def assigned (index : ℕ) : Option Assignment :=
  (assignmentAt sqrt candles args index).toOption.bind id

/-- An assignment is dated by its bar, and its weight is within bounds. -/
theorem of_assigned {a : Assignment} (h : assigned sqrt candles args index = some a) :
    a.openedAt = momentAt candles index ∧ 0 ≤ a.weight ∧ a.weight ≤ 1 := by
  unfold assigned assignmentAt at h
  cases hvol : targetedVol sqrt candles args index with
  | error e =>
    rw [hvol] at h
    cases h
  | ok vol =>
    rw [hvol] at h
    obtain ⟨scalar, -, rfl⟩ := Option.map_eq_some_iff.mp h
    exact ⟨rfl, le_max_left _ _, max_le zero_le_one (min_le_right _ _)⟩

variable (args) in
/-- Arguments under which bars are looked at. -/
def EnsembleArgs.Usable : Prop :=
  ¬ (args.lookbacks = [] ∨ args.lookbacks.any (· ≤ 0)) ∧ ¬ args.minOpen < 0

variable (sqrt candles args) in
/-- The series of what the bars are assigned. -/
def assignedSeries : List Assignment :=
  (List.range' args.start.toNat (candles.length - args.start.toNat)).filterMap
    (assigned sqrt candles args)

/-- Where every bar can be computed, the series lists what the bars are assigned. -/
theorem series_of_forall (hargs : args.Usable)
    (hall : ∀ index : ℕ, args.start ≤ index → index < candles.length →
      ∃ y, assignmentAt sqrt candles args index = .ok y) :
    ensembleTrendSeries sqrt candles args = .ok (assignedSeries sqrt candles args) := by
  rw [ensembleTrendSeries, if_neg hargs.1, if_neg hargs.2, assignedSeries]
  by_cases hshort : (candles.length : ℤ) < args.start + 1
  · have hnone : candles.length - args.start.toNat = 0 := by omega
    rw [if_pos hshort, hnone]
    rfl
  · have hcollect : ∀ index ∈ List.range' args.start.toNat (candles.length - args.start.toNat),
        assignmentAt sqrt candles args index = .ok (assigned sqrt candles args index) := by
      intro index hindex
      have hrange := List.mem_range'_1.mp hindex
      obtain ⟨y, hy⟩ := hall index (by omega) (by omega)
      rw [assigned, hy]
      rfl
    rw [if_neg hshort, collect_eq_map _ hcollect]
    exact congrArg Except.ok (List.filterMap_map ..)

/-- A series was computed because every bar could be. -/
theorem forall_of_series (hargs : args.Usable) {series : List Assignment}
    (h : ensembleTrendSeries sqrt candles args = .ok series) :
    ∀ index : ℕ, args.start ≤ index → index < candles.length →
      ∃ y, assignmentAt sqrt candles args index = .ok y := by
  intro index hfrom hlt
  rw [ensembleTrendSeries, if_neg hargs.1, if_neg hargs.2, if_neg (by omega)] at h
  cases hcollect : collect (assignmentAt sqrt candles args)
      (List.range' args.start.toNat (candles.length - args.start.toNat)) with
  | error e =>
    rw [hcollect] at h
    cases h
  | ok ys =>
    have hmem : index ∈ List.range' args.start.toNat (candles.length - args.start.toNat) :=
      List.mem_range'_1.mpr ⟨by omega, by omega⟩
    exact forall_of_collect hcollect index hmem

/-- Without usable arguments no bar is looked at. -/
theorem series_eq_nil (hargs : ¬ args.Usable) {series : List Assignment}
    (h : ensembleTrendSeries sqrt candles args = .ok series) (more : List Candle) :
    series = [] ∧ ensembleTrendSeries sqrt more args = .ok [] := by
  rw [ensembleTrendSeries] at h ⊢
  by_cases hlookbacks : args.lookbacks = [] ∨ args.lookbacks.any (· ≤ 0)
  · rw [if_pos hlookbacks] at h ⊢
    exact ⟨(Except.ok.inj h).symm, rfl⟩
  · have hmin : args.minOpen < 0 := by
      by_contra hmin
      exact hargs ⟨hlookbacks, hmin⟩
    rw [if_neg hlookbacks, if_pos hmin] at h
    cases h

/-- **The series of the first bars is the first part of the series.** -/
theorem ensembleTrendSeries_take (hsorted : candles.Pairwise fun a b => a.openedAt < b.openedAt)
    (hargs : args.Usable) {series : List Assignment}
    (h : ensembleTrendSeries sqrt candles args = .ok series) (k : ℕ) :
    ensembleTrendSeries sqrt (candles.take k) args =
      .ok ((List.range' args.start.toNat ((candles.take k).length - args.start.toNat)).filterMap
        (assigned sqrt candles args)) := by
  have hall := forall_of_series hargs h
  have hlt : ∀ {index : ℕ}, index < (candles.take k).length →
      index < candles.length ∧ index < k := by
    intro index hindex
    rw [List.length_take] at hindex
    omega
  rw [series_of_forall hargs, assignedSeries]
  · congr 1
    refine List.filterMap_congr fun index hindex => ?_
    have hrange := List.mem_range'_1.mp hindex
    obtain ⟨hindex', hk⟩ := hlt (show index < (candles.take k).length by omega)
    rw [assigned, assigned, assignmentAt_take hsorted hindex' hk]
  · intro index hfrom hindex
    obtain ⟨hindex', hk⟩ := hlt hindex
    rw [assignmentAt_take hsorted hindex' hk]
    exact hall index hfrom hindex'

/-! ## The voter at decision time -/

/-- What the voter makes of an assignment, or of none. -/
structure VotesFor (signal : StrategySignal) (a : Option Assignment) : Prop where
  score : signal.score = (a.map Assignment.weight).getD 0
  confidence : signal.confidence = (a.map Assignment.weight).getD 0
  side : signal.side = if 0 < (a.map Assignment.weight).getD 0 then some .buy else none

theorem EnsembleTrendVoter.evaluate_of_found {v : EnsembleTrendVoter} {fixed3 : ℚ → String}
    {regime : Regime} {last : Candle} {a : Option Assignment} {source : String}
    (hlast : candles.getLast? = some last) (hfound : v.found sqrt candles last = .ok (a, source))
    (hbounds : ∀ x ∈ a, 0 ≤ x.weight ∧ x.weight ≤ 1) :
    ∃ signal, v.evaluate sqrt fixed3 candles regime = .ok signal ∧ VotesFor signal a := by
  rw [EnsembleTrendVoter.evaluate, hlast]
  dsimp only
  rw [hfound]
  cases a with
  | none => exact ⟨_, rfl, rfl, rfl, (if_neg (lt_irrefl 0)).symm⟩
  | some a =>
    obtain ⟨hlow, hhigh⟩ := hbounds a rfl
    have hweight : max 0 (min a.weight 1) = a.weight := by
      rw [min_eq_left hhigh, max_eq_right hlow]
    refine ⟨_, rfl, hweight, hweight, ?_⟩
    show (if 0 < max 0 (min a.weight 1) then some Side.buy else none) = _
    rw [hweight]
    rfl

/-- The assignments of the places from one on, looked up by the moment of a bar. -/
theorem find?_assigned (hsorted : candles.Pairwise fun a b => a.openedAt < b.openedAt)
    (hindex : index < candles.length) {start n : ℕ}
    (hn : ∀ j, start ≤ j → j < start + n → j < candles.length) :
    ((List.range' start n).filterMap (assigned sqrt candles args)).find?
        (fun a => a.openedAt = momentAt candles index) =
      if start ≤ index ∧ index < start + n then assigned sqrt candles args index else none := by
  have hmem : ∀ a, a ∈ (List.range' start n).filterMap (assigned sqrt candles args) →
      a.openedAt = momentAt candles index →
        (start ≤ index ∧ index < start + n) ∧ assigned sqrt candles args index = some a := by
    intro a ha hmoment
    obtain ⟨j, hj, hassigned⟩ := List.mem_filterMap.mp ha
    have hrange := List.mem_range'_1.mp hj
    have heq : momentAt candles j = momentAt candles index :=
      (of_assigned hassigned).1.symm.trans hmoment
    obtain rfl := momentAt_inj hsorted (hn j hrange.1 hrange.2) hindex heq
    exact ⟨hrange, hassigned⟩
  cases hfind : ((List.range' start n).filterMap (assigned sqrt candles args)).find?
      (fun a => a.openedAt = momentAt candles index) with
  | some a =>
    have htest := List.find?_some hfind
    obtain ⟨hrange, hassigned⟩ := hmem a (List.mem_of_find?_eq_some hfind)
      (of_decide_eq_true htest)
    rw [if_pos hrange, hassigned]
  | none =>
    split
    · rename_i hrange
      cases hassigned : assigned sqrt candles args index with
      | none => rfl
      | some a =>
        have ha : a ∈ (List.range' start n).filterMap (assigned sqrt candles args) :=
          List.mem_filterMap.mpr ⟨index, List.mem_range'_1.mpr hrange, hassigned⟩
        have hother := List.find?_eq_none.mp hfind a ha
        exact absurd (decide_eq_true (of_assigned hassigned).1) hother
    · rfl

/-- The last assignment of the first bars is that of the last of them, if it has one. -/
theorem getLast?_assigned (hsorted : candles.Pairwise fun a b => a.openedAt < b.openedAt)
    (hk : k < candles.length) (start : ℕ) :
    ((List.range' start (k + 1 - start)).filterMap (assigned sqrt candles args)).getLast?.filter
        (fun a => a.openedAt = momentAt candles k) =
      if start ≤ k then assigned sqrt candles args k else none := by
  by_cases hstart : start ≤ k
  · have hsucc : k + 1 - start = k - start + 1 := by omega
    rw [if_pos hstart, hsucc, List.range'_concat, Nat.one_mul, Nat.add_sub_cancel' hstart,
      List.filterMap_append]
    cases hassigned : assigned sqrt candles args k with
    | some a =>
      rw [List.filterMap_cons_some hassigned, List.filterMap_nil, List.getLast?_concat]
      exact Option.filter_eq_some_iff.mpr ⟨rfl, decide_eq_true (of_assigned hassigned).1⟩
    | none =>
      rw [List.filterMap_cons_none hassigned, List.filterMap_nil, List.append_nil,
        Option.filter_eq_none_iff]
      -- An earlier bar has another moment.
      intro a ha hmoment
      obtain ⟨j, hj, hj'⟩ := List.mem_filterMap.mp (List.mem_of_getLast? ha)
      have hrange := List.mem_range'_1.mp hj
      have heq : momentAt candles j = momentAt candles k :=
        (of_assigned hj').1.symm.trans (of_decide_eq_true hmoment)
      have hjk := momentAt_inj hsorted (by omega) hk heq
      omega
  · have hnone : k + 1 - start = 0 := by omega
    rw [if_neg hstart, hnone]
    rfl

/-- **The voter without a registered series gives a bar what the precomputed series assigns to
it.** -/
theorem evaluate_take (hsorted : candles.Pairwise fun a b => a.openedAt < b.openedAt)
    {v : EnsembleTrendVoter} {series : List Assignment} {last : Candle}
    (h : ensembleTrendSeries sqrt candles v.args = .ok series) (hlast : candles[k]? = some last)
    (hregistered : v.seriesFor last.symbol = []) (fixed3 : ℚ → String) (regime : Regime) :
    ∃ signal, v.evaluate sqrt fixed3 (candles.take (k + 1)) regime = .ok signal ∧
      VotesFor signal (series.find? fun a => a.openedAt = last.openedAt) := by
  obtain ⟨hk, rfl⟩ := List.getElem?_eq_some_iff.mp hlast
  have hend : (candles.take (k + 1)).getLast? = some candles[k] := by
    rw [List.take_succ_eq_append_getElem hk, List.getLast?_concat]
  rw [← momentAt_eq hk]
  by_cases hargs : v.args.Usable
  · have hseries := series_of_forall hargs (forall_of_series hargs h)
    obtain rfl := Except.ok.inj (h.symm.trans hseries)
    have hlength : (candles.take (k + 1)).length = k + 1 := by
      rw [List.length_take]
      omega
    have hrecomputed := ensembleTrendSeries_take hsorted hargs h (k + 1)
    rw [hlength] at hrecomputed
    have hfound : v.found sqrt (candles.take (k + 1)) candles[k] =
        .ok (if v.args.start.toNat ≤ k then assigned sqrt candles v.args k else none,
          "decision-time recompute") := by
      rw [EnsembleTrendVoter.found, if_neg (not_not.mpr hregistered), hrecomputed,
        ← momentAt_eq hk]
      show Except.ok (_, _) = _
      rw [getLast?_assigned hsorted hk]
    have hrange : (v.args.start.toNat ≤ k ∧
        k < v.args.start.toNat + (candles.length - v.args.start.toNat)) ↔
          v.args.start.toNat ≤ k := by omega
    rw [assignedSeries, find?_assigned hsorted hk fun j _ hj => by omega, if_congr hrange rfl rfl]
    refine EnsembleTrendVoter.evaluate_of_found hend hfound fun a ha => ?_
    split at ha
    · exact (of_assigned ha).2
    · cases ha
  · obtain ⟨rfl, hnil⟩ := series_eq_nil hargs h (candles.take (k + 1))
    have hfound : v.found sqrt (candles.take (k + 1)) candles[k] =
        .ok (none, "decision-time recompute") := by
      rw [EnsembleTrendVoter.found, if_neg (not_not.mpr hregistered), hnil]
      rfl
    exact EnsembleTrendVoter.evaluate_of_found hend hfound nofun

end

/-- **The sliding channel is the plain one and never looks ahead.** For bars of ascending moments:
the series of a lookback is that of the machine that recomputes the channel at every bar, with its
spells; the series of the first bars are first parts of the series, of one lookback and of the
ensemble; every weight is within bounds; and the voter without a registered series, given the bars
up to one, votes what the precomputed series assigns to it. -/
theorem ensemble_trend_point_in_time (sqrt : ℚ → ℚ) (fixed3 : ℚ → String) {candles : List Candle}
    (hsorted : candles.Pairwise fun a b => a.openedAt < b.openedAt) :
    (∀ lookback : ℤ, 1 ≤ lookback →
      lookbackStateSeries candles lookback = plainStateSeries candles lookback ∧
        SpellsTrail candles lookback.toNat (lookbackStateSeries candles lookback)) ∧
    (∀ (lookback : ℤ) (k : ℕ),
      lookbackStateSeries (candles.take k) lookback <+: lookbackStateSeries candles lookback) ∧
    ∀ args series, ensembleTrendSeries sqrt candles args = .ok series →
      (∀ a ∈ series, 0 ≤ a.weight ∧ a.weight ≤ 1) ∧
      (∀ k, ∃ first, ensembleTrendSeries sqrt (candles.take k) args = .ok first ∧
        first <+: series) ∧
      ∀ v : EnsembleTrendVoter, v.args = args → ∀ k last regime, candles[k]? = some last →
        v.seriesFor last.symbol = [] →
          ∃ signal, v.evaluate sqrt fixed3 (candles.take (k + 1)) regime = .ok signal ∧
            VotesFor signal (series.find? fun a => a.openedAt = last.openedAt) := by
  refine ⟨fun lookback _ => ⟨lookbackStateSeries_eq candles lookback, ?_⟩,
    fun lookback k => lookbackStateSeries_prefix candles lookback k,
    fun args series h => ⟨fun a ha => ?_, fun k => ?_, ?_⟩⟩
  · rw [lookbackStateSeries_eq]
    exact spellsTrail_plainStateSeries candles lookback
  · by_cases hargs : args.Usable
    · obtain rfl := Except.ok.inj
        (h.symm.trans (series_of_forall hargs (forall_of_series hargs h)))
      obtain ⟨index, -, hassigned⟩ := List.mem_filterMap.mp ha
      exact (of_assigned hassigned).2
    · rw [(series_eq_nil hargs h []).1] at ha
      exact absurd ha List.not_mem_nil
  · by_cases hargs : args.Usable
    · refine ⟨_, ensembleTrendSeries_take hsorted hargs h k, ?_⟩
      obtain rfl := Except.ok.inj
        (h.symm.trans (series_of_forall hargs (forall_of_series hargs h)))
      refine List.IsPrefix.filterMap _ (prefix_range' ?_)
      rw [List.length_take]
      omega
    · obtain ⟨rfl, hnil⟩ := series_eq_nil hargs h (candles.take k)
      exact ⟨[], hnil, List.prefix_rfl⟩
  · rintro v rfl k last regime hlast hregistered
    exact evaluate_take hsorted h hlast hregistered fixed3 regime

/-! Daily bars that rise, and fall back through the stop. -/
namespace Staircase

theorem price_pos (steps : ℕ) : (0 : ℚ) < steps + 1 := by positivity

/-- A bar of one price. -/
def bar (day : ℕ) (steps : ℕ) : Candle where
  symbol := "BTC/USD"
  interval := "1d"
  openedAt := 86400 * day
  openPrice := steps + 1
  high := steps + 1
  low := steps + 1
  close := steps + 1
  volume := 0
  open_pos := price_pos steps
  high_pos := price_pos steps
  low_pos := price_pos steps
  close_pos := price_pos steps
  volume_nonneg := zero_nonneg
  high_contains := (max_self _).le
  low_contains := (min_self _).ge

def bars : List Candle := [bar 0 1, bar 1 1, bar 2 3, bar 3 5, bar 4 0, bar 5 6]

/-- A voter of one lookback, without a volatility target. -/
def voter : EnsembleTrendVoter := ⟨"ens_trend", [2], none, 0, []⟩

end Staircase

open Staircase in
example : (lookbackStateSeries bars 2).map LookbackBar.inPosition = [true, true, false, true] := by
  decide +kernel

open Staircase in
theorem ensemble_trend_point_in_time_staircase :
    lookbackStateSeries bars 2 = plainStateSeries bars 2 ∧
      ∃ signal, voter.evaluate id (fun _ => "") bars .range = .ok signal ∧ signal.score = 1 := by
  have hsorted : bars.Pairwise fun a b => a.openedAt < b.openedAt := by decide +kernel
  obtain ⟨hplain, -, hseries⟩ := ensemble_trend_point_in_time id (fun _ => "") hsorted
  obtain ⟨-, -, hvotes⟩ := hseries voter.args _ rfl
  obtain ⟨signal, hsignal, hvote⟩ := hvotes voter rfl 5 (bar 5 6) .range rfl rfl
  refine ⟨(hplain 2 (by decide)).1, signal, hsignal, hvote.score.trans ?_⟩
  decide +kernel

end TraderStack
