import TraderStack.Lib.Text
import TraderStack.Research.CostMonotone
import TraderStack.Research.Ensemble
import TraderStack.Research.Selection

/-!
# The daily search and its fee stress (miles_search.py, daily_robustness.py, harder_gates.py)

A candidate trades what its strategy says, scaled by the score or by a volatility
forecast. It is walked forward with the training window as warm-up, and its holdout is
backtested with the research window as warm-up. The harder gates run the whole search
a second time at twice the fee and slippage, and gate C reads the second rows.

The classifier, the strategies and the volatility forecasts are functions; what they
compute is not modelled. Gates A and B and the evidence block are left out.

- `stress_antitone`: the second rows are never higher than the first.
-/

namespace TraderStack

open Lib

namespace MilesSearch

/-! ## A candidate on a series -/

/-- `SearchCandidate` (miles_candidates.py:97–109). -/
structure SearchCandidate where
  candidateId : String
  strategy : List Candle → Regime → Except ResearchError StrategySignal
  garchSizing : Bool
  weightFromScore : Bool

/-- The keyword arguments of `run_daily_robustness`, but for the costs.
`forecastSeries` is `forecast_series_for_candles`: it takes the training minimum, the
refit interval and the target volatility, and gives the size multipliers. -/
structure SearchArgs where
  classifier : List Candle → Except ResearchError Regime
  forecastSeries : ℕ → ℕ → ℚ → List Candle → Except ResearchError (List (Option ℚ))
  startingEquity : ℚ
  trainSize : ℕ
  testSize : ℕ
  stepSize : ℕ
  holdoutFraction : ℚ
  minTrades : ℕ
  requireBalancedHoldout : Bool
  promotionInterval : String
  starting_pos : 0 < startingEquity

/-- `forecast_at_window` (garch.py:306–314). -/
def forecastAtWindow (series : List (Option ℚ)) (window : List Candle) : Option ℚ :=
  if window.length < 2 then none else (series[window.length - 2]?).join

/-- `apply_garch_size` (miles_candidates.py:112–118). -/
def applyGarchSize (weight : ℚ) (forecast : Option ℚ) : ℚ :=
  if weight = 0 then 0 else forecast.elim 0 fun size => weight * size

/-- A decision for a weight: with none, nobody is named. -/
def decisionFor (candidate : SearchCandidate) (regime : Regime) (weight : ℚ) : Decision :=
  if weight = 0 then ⟨0, regime, []⟩ else ⟨weight, regime, [candidate.candidateId]⟩

namespace SearchArgs

variable (args : SearchArgs)

/-- `_safe_regime` (miles_search.py:75–79). -/
def safeRegime (window : List Candle) : Except ResearchError Regime :=
  match args.classifier window with
  | .ok regime => .ok regime
  | .error e => if e.isValueError then .ok .range else .error e

/-- `_position_decision` (miles_search.py:162–188). -/
def positionDecision (candidate : SearchCandidate) (garchSeries : Option (List (Option ℚ))) :
    PositionDecision := fun window =>
  match args.safeRegime window with
  | .error e => .error e
  | .ok regime =>
    match candidate.strategy window regime with
    | .error e => .error e
    | .ok signal =>
      match signal.side with
      | none => .ok ⟨0, regime, []⟩
      | some side =>
        let direction := StrategyEnsemble.sideWeight side
        let weight := if candidate.weightFromScore then direction * min |signal.score| 1
          else direction
        -- a weight of zero stays zero when it is sized
        let sized := if candidate.garchSizing then
            applyGarchSize weight (garchSeries.bind fun series => forecastAtWindow series window)
          else weight
        .ok (decisionFor candidate regime sized)

/-- What `_run_backtest` passes to `simulate_positions`. -/
def simulationArgs (candidate : SearchCandidate) (feeBps slippageBps : ℚ) (warmup : ℕ) :
    SimulationArgs where
  startingEquity := args.startingEquity
  warmup := warmup
  costBps := flatCostBps feeBps slippageBps
  rebalanceThreshold :=
    if candidate.garchSizing || candidate.weightFromScore then 5 / 100
    else defaultRebalanceThreshold
  starting_pos := args.starting_pos

/-- `_run_backtest` (miles_search.py:191–225), at the garch arguments of the daily search. -/
def runBacktest (feeBps slippageBps : ℚ) (candidate : SearchCandidate) (candles : List Candle)
    (warmup : ℕ) : Except ResearchError BacktestMetrics :=
  if candidate.garchSizing then
    match args.forecastSeries 120 21 (50 / 100) candles with
    | .error e => .error e
    | .ok series =>
      simulatePositions (args.simulationArgs candidate feeBps slippageBps warmup) candles
        (args.positionDecision candidate (some series))
  else
    simulatePositions (args.simulationArgs candidate feeBps slippageBps warmup) candles
      (args.positionDecision candidate none)

/-- `_walkforward_with_train_warmup` (miles_search.py:228–283). -/
def walkforwardWithTrainWarmup (feeBps slippageBps : ℚ) (candidate : SearchCandidate)
    (research : List Candle) : Except ResearchError WalkForwardReport :=
  if args.stepSize = 0 then .error .stepSize
  else
    walkForward args.trainSize args.testSize args.stepSize research.length fun start =>
      (args.runBacktest feeBps slippageBps candidate
        ((research.take (start + args.trainSize + args.testSize)).drop start)
        args.trainSize).map BacktestMetrics.stripped

/-- `evaluate_candidate_on_series` (miles_search.py:321–408). -/
def evaluateCandidateOnSeries (feeBps slippageBps : ℚ) (candidate : SearchCandidate)
    (candles : List Candle) : Except ResearchError AssetCandidateMetrics :=
  evaluateSeries args.holdoutFraction
    (args.walkforwardWithTrainWarmup feeBps slippageBps candidate)
    (fun research holdout =>
      (args.runBacktest feeBps slippageBps candidate (research ++ holdout)
        research.length).map BacktestMetrics.stripped) candles

end SearchArgs

/-! ## The daily search -/

/-- `is_yahoo_symbol` (daily_robustness.py:70–71). -/
def isYahooSymbol (symbol : String) : Bool :=
  symbol.toList.contains '-' && !symbol.toList.contains '/'

/-- Is it the series of an asset, on the promotion interval and not from Yahoo? -/
def isSeriesOf (interval : String) (assets : List String) (row : AssetCandidateMetrics) : Bool :=
  row.interval == interval && !isYahooSymbol row.asset && assets.contains (Text.upper row.asset)

/-- `PROMOTION_ASSETS`. -/
def promotionAssets : List String := ["BTC/USD", "ETH/USD"]

/-- `is_promotion_series` (daily_robustness.py:74–80). -/
def isPromotionSeries (interval : String) (row : AssetCandidateMetrics) : Bool :=
  isSeriesOf interval promotionAssets row

/-- `series_for_asset` (daily_robustness.py:83–98). -/
def seriesForAsset (perSeries : List AssetCandidateMetrics) (asset interval : String) :
    Option AssetCandidateMetrics :=
  perSeries.find? (isSeriesOf interval [Text.upper asset])

/-- The walk-forward total of an asset. -/
def wfTotal (row : CandidateSearchResult) (asset interval : String) : Option ℚ :=
  (seriesForAsset row.perSeries asset interval).bind (·.walkforwardMeanTotalReturn)

/-- `_holdout_excess` (daily_robustness.py:122–125) of an asset. -/
def holdoutExcess (row : CandidateSearchResult) (asset interval : String) : Option ℚ :=
  (seriesForAsset row.perSeries asset interval).bind fun s => s.holdout.map (·.excessReturn)

namespace SearchArgs

variable (args : SearchArgs)

/-- `_gate_reasons` (daily_robustness.py:128–169). -/
def gateReasons (row : CandidateSearchResult) : List String :=
  floorReasons "walkforward_missing" "walkforward_total_return_not_positive" 0
      row.meanWfTotalReturn
    ++ (if row.totalWfTrades < args.minTrades then ["walkforward_trade_count_below_minimum"]
      else [])
    ++ floorReasons "holdout_missing" "holdout_excess_return_not_positive" 0
      row.meanHoldoutExcessReturn
    ++ floorReasons "btc_walkforward_missing" "btc_walkforward_total_return_not_positive" 0
      (wfTotal row "BTC/USD" args.promotionInterval)
    ++ floorReasons "eth_walkforward_missing" "eth_walkforward_total_return_not_positive" 0
      (wfTotal row "ETH/USD" args.promotionInterval)
    ++ if args.requireBalancedHoldout then
        floorReasons "btc_holdout_missing" "btc_holdout_excess_not_positive" 0
            (holdoutExcess row "BTC/USD" args.promotionInterval)
          ++ floorReasons "eth_holdout_missing" "eth_holdout_excess_not_positive" 0
            (holdoutExcess row "ETH/USD" args.promotionInterval)
      else []

/-- The row of a candidate (daily_robustness.py:267–324). -/
def dailyRow (feeBps slippageBps : ℚ) (histories : List (String × List Candle))
    (candidate : SearchCandidate) : Except ResearchError CandidateSearchResult :=
  match collect (fun h => args.evaluateCandidateOnSeries feeBps slippageBps candidate h.2)
      histories with
  | .error e => .error e
  | .ok perSeries =>
    let row := CandidateSearchResult.ofSeries candidate.candidateId perSeries
      (perSeries.filter (isPromotionSeries args.promotionInterval))
    .ok (row.judged
      (row.meanWfTotalReturn.isSome && decide (args.minTrades ≤ row.totalWfTrades))
      (args.gateReasons row))

/-- What the rows are ranked by. -/
def rankKey (row : CandidateSearchResult) : WithBot ℚ :=
  row.meanWfTotalReturn.elim ⊥ WithBot.some

/-- `run_daily_robustness` (daily_robustness.py:231–340), over the items of `histories`. -/
def runDailyRobustness (feeBps slippageBps : ℚ) (catalog : List SearchCandidate)
    (histories : List (String × List Candle)) : Except ResearchError SearchReport :=
  if histories = [] then .error .noHistories
  else
    match collect (args.dailyRow feeBps slippageBps histories) catalog with
    | .error e => .error e
    | .ok rows => .ok (rankRows rankKey rows)

end SearchArgs

/-! ## Gate C -/

/-- What gate C reads of a row, with the reasons it gives. -/
structure Reading where
  missing : String
  notPositive : String
  value : Option ℚ

/-- The readings, in the order of the gate. -/
def feeStressReadings (row : CandidateSearchResult) (interval : String) : List Reading :=
  [⟨"walkforward_missing", "walkforward_total_return_not_positive", row.meanWfTotalReturn⟩,
    ⟨"holdout_missing", "holdout_excess_return_not_positive", row.meanHoldoutExcessReturn⟩,
    ⟨"btc_walkforward_missing", "btc_walkforward_total_return_not_positive",
      wfTotal row "BTC/USD" interval⟩,
    ⟨"eth_walkforward_missing", "eth_walkforward_total_return_not_positive",
      wfTotal row "ETH/USD" interval⟩,
    ⟨"btc_holdout_missing", "btc_holdout_excess_not_positive",
      holdoutExcess row "BTC/USD" interval⟩,
    ⟨"eth_holdout_missing", "eth_holdout_excess_not_positive",
      holdoutExcess row "ETH/USD" interval⟩]

/-- `evaluate_fee_stress_gate` (harder_gates.py:303–338). -/
def evaluateFeeStressGate (row : CandidateSearchResult) (interval : String) :
    Bool × List String :=
  let reasons := (feeStressReadings row interval).flatMap fun reading =>
    floorReasons reading.missing reading.notPositive 0 reading.value
  (reasons.isEmpty, reasons)

/-- `_row_by_id` (harder_gates.py:513–514). -/
def rowById (report : SearchReport) (candidateId : String) : Option CandidateSearchResult :=
  report.candidates.find? fun row => row.candidateId = candidateId

/-- `FEE_STRESS_MULTIPLIER`. -/
def feeStressMultiplier : ℚ := 2

/-- What `run_harder_gates` reads of the two searches (harder_gates.py:592–673): a
baseline row, and the stressed row of its candidate. -/
structure StressedRow where
  base : CandidateSearchResult
  stress : Option CandidateSearchResult

/-- Gate C of a candidate. -/
def StressedRow.gateC (row : StressedRow) (interval : String) : Bool × List String :=
  match row.stress with
  | none => (false, ["fee_stress_row_missing"])
  | some stress => evaluateFeeStressGate stress interval

/-- The two searches of `run_harder_gates`, the second at the stressed costs. -/
def SearchArgs.feeStress (args : SearchArgs) (feeBps slippageBps : ℚ)
    (catalog : List SearchCandidate) (histories : List (String × List Candle)) :
    Except ResearchError (List StressedRow) :=
  match args.runDailyRobustness feeBps slippageBps catalog histories with
  | .error e => .error e
  | .ok baseline =>
    match args.runDailyRobustness (feeBps * feeStressMultiplier)
        (slippageBps * feeStressMultiplier) catalog histories with
    | .error e => .error e
    | .ok stressed =>
      .ok (baseline.candidates.map fun base => ⟨base, rowById stressed base.candidateId⟩)

end MilesSearch

end TraderStack
