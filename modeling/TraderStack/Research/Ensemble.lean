import TraderStack.Agents.Review
import TraderStack.Research.WalkForward

/-!
# The ensemble and its backtester (strategies.py, backtest.py, walkforward.py)

The voters see the candles and the regime, and each may take a side; the consensus is
the side of the majority. `BaselineBacktester` backtests the consensus, and
`WalkForwardEvaluator` backtests it fold by fold.

A voter is a function, and so is the classifier of the regime: what either computes
from the candles is not modelled.
-/

namespace TraderStack

open Lib

/-! ## Consensus -/

/-- A strategy with an `evaluate`. -/
structure Voter where
  strategyId : String
  evaluate : List Candle → Regime → Except ResearchError StrategySignal

/-- `combine_signals` (strategies.py:305–344). -/
def combineSignals (signals : List StrategySignal) (strategyId : String) (minAgreeing : ℕ) :
    Except ResearchError (Option StrategySignal) :=
  if minAgreeing < 1 then .error (.decision "min_agreeing must be >= 1")
  else
    let buys := signals.filter fun signal => signal.side = some .buy
    let sells := signals.filter fun signal => signal.side = some .sell
    -- of no actionable signals both sides have as many
    if buys.length = sells.length then .ok none
    else
      let chosen := if sells.length < buys.length then buys else sells
      if chosen.length < minAgreeing then .ok none
      else
        .ok (chosen.head?.map fun first =>
          { strategyId := strategyId
            symbol := first.symbol
            side := first.side
            score := max (-1) (min 1 ((chosen.map StrategySignal.score).sum / chosen.length))
            confidence := (chosen.map StrategySignal.confidence).sum / chosen.length
            regime := first.regime
            rationale := "; ".intercalate (chosen.map StrategySignal.rationale) })

/-- `StrategyEnsemble` (strategies.py:217–235). Its own three strategies are one list. -/
structure StrategyEnsemble where
  classifier : List Candle → Except ResearchError Regime
  defaultVoters : List Voter
  paperResearchStrategy : Option Voter
  minAgreeing : ℕ
  extraVoters : List Voter
  suppressDefaults : Bool

namespace StrategyEnsemble

/-- Who is asked, in order. -/
def voters (e : StrategyEnsemble) : List Voter :=
  (if e.suppressDefaults then [] else e.defaultVoters ++ e.paperResearchStrategy.toList)
    ++ e.extraVoters

/-- `evaluate` (strategies.py:237–255). -/
def evaluate (e : StrategyEnsemble) (candles : List Candle) :
    Except ResearchError (Regime × List StrategySignal) :=
  match e.classifier candles with
  | .error error => .error error
  | .ok regime =>
    match collect (fun voter : Voter => voter.evaluate candles regime) e.voters with
    | .error error => .error error
    | .ok signals => .ok (regime, signals)

/-- `weight = 1.0 if side is BUY else -1.0`. -/
def sideWeight : Side → ℚ
  | .buy => 1
  | .sell => -1

/-- `paper_research_position` (strategies.py:257–275). -/
def paperResearchPosition (e : StrategyEnsemble) (candles : List Candle) :
    Except ResearchError (Option Decision) :=
  match e.paperResearchStrategy with
  | none => .ok none
  | some voter =>
    match e.classifier candles with
    | .error error => .error error
    | .ok regime =>
      match voter.evaluate candles regime with
      | .error error => .error error
      | .ok signal =>
        match signal.side with
        | none => .ok (some ⟨0, regime, []⟩)
        | some side => .ok (some ⟨sideWeight side, regime, [signal.strategyId]⟩)

/-- `consensus` (strategies.py:277–302). -/
def consensus (e : StrategyEnsemble) (signals : List StrategySignal) :
    Except ResearchError (Option StrategySignal) :=
  let baseline := e.paperResearchStrategy.bind fun voter =>
    signals.find? fun signal => signal.strategyId = voter.strategyId
  match if e.minAgreeing = 1 then baseline.bind StrategySignal.side else none with
  | some side =>
    combineSignals (signals.filter fun signal => signal.side = some side)
      "baseline_ensemble_v1" 1
  | none => combineSignals signals "baseline_ensemble_v1" e.minAgreeing

end StrategyEnsemble

/-! ## The backtester -/

/-- `BaselineBacktester` (backtest.py:242–248). -/
structure BaselineBacktester where
  ensemble : StrategyEnsemble
  startingEquity : ℚ
  feeBps : ℚ
  slippageBps : ℚ
  warmup : ℕ
  costModel : Option CostModel
  starting_pos : 0 < startingEquity

namespace BaselineBacktester

/-- `decide` of `run` (backtest.py:253–267). -/
def decide (b : BaselineBacktester) : PositionDecision := fun window =>
  match b.ensemble.paperResearchPosition window with
  | .error e => .error e
  | .ok (some isolated) => .ok isolated
  | .ok none =>
    match b.ensemble.evaluate window with
    | .error e => .error e
    | .ok (regime, signals) =>
      match b.ensemble.consensus signals with
      | .error e => .error e
      | .ok signal =>
        match signal.bind StrategySignal.side with
        | none => .ok ⟨0, regime, []⟩
        | some side =>
          .ok ⟨StrategyEnsemble.sideWeight side, regime,
            (signals.filter fun s => s.side = some side).map StrategySignal.strategyId⟩

/-- What `run` passes on. -/
def args (b : BaselineBacktester) (warmup : ℕ) : SimulationArgs where
  startingEquity := b.startingEquity
  warmup := warmup
  costBps := b.costModel.getD (flatCostBps b.feeBps b.slippageBps)
  rebalanceThreshold := defaultRebalanceThreshold
  starting_pos := b.starting_pos

/-- `run` (backtest.py:250–276). -/
def run (b : BaselineBacktester) (candles : List Candle) (warmup : Option ℕ) :
    Except ResearchError BacktestMetrics :=
  simulatePositions (b.args (warmup.getD b.warmup)) candles b.decide

end BaselineBacktester

/-! ## Walk-forward -/

/-- `WalkForwardEvaluator` (walkforward.py:32–43). -/
structure WalkForwardEvaluator where
  backtester : BaselineBacktester
  trainSize : ℕ
  testSize : ℕ
  stepSize : ℕ
  fit : Option (List Candle → BaselineBacktester)
  trainWarmup : Bool

namespace WalkForwardEvaluator

/-- The backtest of the fold that starts at a bar (walkforward.py:60–74). -/
def backtestFold (w : WalkForwardEvaluator) (candles : List Candle) (start : ℕ) :
    Except ResearchError BacktestMetrics :=
  let trainEnd := start + w.trainSize
  let testEnd := trainEnd + w.testSize
  let backtester := w.fit.elim w.backtester fun fit => fit ((candles.take trainEnd).drop start)
  if w.trainWarmup then backtester.run ((candles.take testEnd).drop start) (some w.trainSize)
  else backtester.run ((candles.take testEnd).drop trainEnd) none

/-- `evaluate` (walkforward.py:45–97). -/
def evaluate (w : WalkForwardEvaluator) (candles : List Candle) :
    Except ResearchError WalkForwardReport :=
  if w.trainSize = 0 then .error .trainSize
  else if w.testSize = 0 then .error .testSize
  else if w.trainWarmup = false ∧ w.trainSize ≤ w.backtester.warmup then
    .error .trainWithinWarmup
  else if w.trainWarmup = false ∧ w.testSize ≤ w.backtester.warmup then .error .testWithinWarmup
  else if w.stepSize = 0 then .error .stepSize
  else walkForward w.trainSize w.testSize w.stepSize candles.length (w.backtestFold candles)

end WalkForwardEvaluator

end TraderStack
