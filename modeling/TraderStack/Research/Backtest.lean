import TraderStack.Lib.Drawdown
import TraderStack.Service.Pipeline

/-!
# The backtester (candles.py, research/costs.py, backtest.py)

`simulate_positions` walks the bars after the warm-up. At each it asks a decision
function for a weight, from the bars seen so far; a changed weight is traded at the
open of the next bar. What is still open at the end is closed at the last close.

The statistics that need a square root or a real power (Sharpe, Sortino, Calmar,
volatility) are left out, and with them the list of returns; the division that
computes a return is still made, and raises where the source raises.
-/

namespace TraderStack

open Lib

/-! ## Candles -/

/-- `Candle` (candles.py:8–24). -/
@[ext]
structure Candle where
  symbol : String
  interval : String
  openedAt : Time
  openPrice : ℚ
  high : ℚ
  low : ℚ
  close : ℚ
  volume : ℚ
  open_pos : 0 < openPrice
  high_pos : 0 < high
  low_pos : 0 < low
  close_pos : 0 < close
  volume_nonneg : 0 ≤ volume
  high_contains : max openPrice close ≤ high
  low_contains : low ≤ min openPrice close

/-- Candles compare field by field. -/
instance : DecidableEq Candle := fun _ _ => decidable_of_iff' _ Candle.ext_iff

/-- Why a backtest, or a search over backtests, raised. -/
inductive ResearchError where
  | insufficientCandles
  | unsupportedInterval (interval : String)
  | validation (model : String)
  | zeroDivision
  | decision (message : String)
  | fatal (name : String)
  | holdoutFraction
  | emptySplit
  | trainSize
  | testSize
  | trainWithinWarmup
  | testWithinWarmup
  | stepSize
  | noFold
  | noHistories
deriving DecidableEq, Repr

/-- `periods_per_year` (candles.py:76–78). -/
def periodsPerYear (interval : String) : Except ResearchError ℚ :=
  match intervalToSeconds interval with
  | .error _ => .error (.unsupportedInterval interval)
  | .ok seconds => .ok (365 * 86400 / seconds)

/-! ## Costs and decisions -/

/-- `CostModel.cost_bps`: what a fill on a bar costs, in basis points of its
notional. -/
abbrev CostModel := Candle → ℚ → ℚ

/-- `FlatCostModel` (costs.py:30–41). -/
def flatCostBps (feeBps slippageBps : ℚ) : CostModel := fun _ _ => feeBps + slippageBps

/-- What a decision function returns: a weight, the regime, and the strategies
behind it. -/
structure Decision where
  weight : ℚ
  regime : Regime
  strategyIds : List String
deriving DecidableEq

/-- `PositionDecision`: it sees the bars up to the one it decides at, and may
raise. -/
abbrev PositionDecision := List Candle → Except ResearchError Decision

/-! ## Trades and metrics -/

/-- `BacktestTrade` (backtest.py:20–33). -/
@[ext]
structure BacktestTrade where
  entryTime : Time
  exitTime : Time
  entryPrice : ℚ
  exitPrice : ℚ
  side : Side
  returnPct : ℚ
  regime : Regime
  strategyIds : List String
  notionalUsd : ℚ
  feesPaid : ℚ
  entryPrice_pos : 0 < entryPrice
  exitPrice_pos : 0 < exitPrice
  notional_nonneg : 0 ≤ notionalUsd
  feesPaid_nonneg : 0 ≤ feesPaid

/-- Trades compare field by field. -/
instance : DecidableEq BacktestTrade := fun _ _ => decidable_of_iff' _ BacktestTrade.ext_iff

/-- `BacktestMetrics` (backtest.py:36–53). -/
@[ext]
structure BacktestMetrics where
  startingEquity : ℚ
  endingEquity : ℚ
  totalReturn : ℚ
  benchmarkReturn : ℚ
  excessReturn : ℚ
  maxDrawdown : ℚ
  trades : ℕ
  profitFactor : ℚ
  expectancy : ℚ
  turnover : ℚ
  totalFees : ℚ
  tradeLog : List BacktestTrade
  starting_pos : 0 < startingEquity
  ending_pos : 0 < endingEquity
  maxDrawdown_nonneg : 0 ≤ maxDrawdown
  turnover_nonneg : 0 ≤ turnover
  totalFees_nonneg : 0 ≤ totalFees

/-- Metrics compare field by field. -/
instance : DecidableEq BacktestMetrics := fun _ _ => decidable_of_iff' _ BacktestMetrics.ext_iff

/-- `_mean` (backtest.py:56–57). -/
def mean (values : List ℚ) : ℚ := if values = [] then 0 else values.sum / values.length

/-- `profit_factor` (backtest.py:208–214). -/
def profitFactor (returns : List ℚ) : ℚ :=
  let gains := (returns.filter fun r => 0 < r).sum
  let grossLoss := |(returns.filter fun r => r < 0).sum|
  if 1 / 10 ^ 12 < grossLoss then gains / grossLoss else gains

/-! ## The simulation -/

/-- The open position, with what the `entry_` variables say of it. -/
@[ext]
structure OpenPosition where
  weight : ℚ
  price : ℚ
  openedAt : Time
  regime : Regime
  strategyIds : List String
  notional : ℚ
  fees : ℚ
  weight_ne_zero : weight ≠ 0
  price_pos : 0 < price

/-- Positions compare field by field. -/
instance : DecidableEq OpenPosition := fun _ _ => decidable_of_iff' _ OpenPosition.ext_iff

/-- A fill of the simulation, at a bar. -/
inductive BarFill where
  | entry (bar : ℕ) (price weight : ℚ)
  | exit (bar : ℕ) (price : ℚ)
deriving DecidableEq, Repr

/-- The variables of `simulate_positions`; `watermark` is `peak` and `max_drawdown`,
and no position is `position == 0.0`. Two fields are kept for the proofs only: the
equity each bar ended with, and the fills. -/
structure SimulationState where
  equity : ℚ
  watermark : Watermark ℚ
  position : Option OpenPosition
  tradeLog : List BacktestTrade
  totalFees : ℚ
  totalTurnover : ℚ
  path : List ℚ
  fills : List BarFill

/-- The keyword arguments of `simulate_positions`. `BacktestMetrics` refuses a
starting equity that is not positive. -/
structure SimulationArgs where
  startingEquity : ℚ
  warmup : ℕ
  costBps : CostModel
  rebalanceThreshold : ℚ
  starting_pos : 0 < startingEquity

/-- The default of `rebalance_threshold`. -/
def defaultRebalanceThreshold : ℚ := 1 / 10 ^ 9

/-- The floor of the multiplier of a close. -/
def multiplierFloor : ℚ := 1 / 10 ^ 9

namespace SimulationState

/-- Before the first bar. -/
def start (equity : ℚ) : SimulationState where
  equity := equity
  watermark := .start equity
  position := none
  tradeLog := []
  totalFees := 0
  totalTurnover := 0
  path := []
  fills := []

/-- `position`. -/
def weight (s : SimulationState) : ℚ := s.position.elim 0 OpenPosition.weight

/-- The peak and the drawdown after a bar (backtest.py:188–189, 194–195). -/
def observe (s : SimulationState) : SimulationState :=
  { s with watermark := s.watermark.observe s.equity, path := s.path ++ [s.equity] }

/-- `open_position` (backtest.py:155–172). -/
def openPosition (s : SimulationState) (costBps : CostModel) (bar : ℕ) (candle : Candle)
    (d : Decision) (hweight : d.weight ≠ 0) : SimulationState :=
  let notional := s.equity
  let friction := costBps candle notional / 10000
  { s with
    equity := s.equity * (1 - friction)
    position := some
      { weight := d.weight
        price := candle.openPrice
        openedAt := candle.openedAt
        regime := d.regime
        strategyIds := d.strategyIds
        notional := notional
        fees := notional * friction
        weight_ne_zero := hweight
        price_pos := candle.open_pos }
    totalFees := s.totalFees + notional * friction
    totalTurnover := s.totalTurnover + notional
    fills := s.fills ++ [.entry bar candle.openPrice d.weight] }

/-- What closing a position multiplies the equity by. -/
def closeMultiplier (p : OpenPosition) (price friction : ℚ) : ℚ :=
  max (1 + p.weight * (price / p.price - 1) - friction) multiplierFloor

/-- The trade a close records. -/
def closedTrade (p : OpenPosition) (exit : Candle) (price equity fees : ℚ) (hprice : 0 < price)
    (hnotional : 0 ≤ p.notional) (hfees : 0 ≤ p.fees + fees) : BacktestTrade where
  entryTime := p.openedAt
  exitTime := exit.openedAt
  entryPrice := p.price
  exitPrice := price
  side := if 0 < p.weight then .buy else .sell
  returnPct := if 0 < p.notional then equity / p.notional - 1 else 0
  regime := p.regime
  strategyIds := p.strategyIds
  notionalUsd := p.notional
  feesPaid := p.fees + fees
  entryPrice_pos := p.price_pos
  exitPrice_pos := hprice
  notional_nonneg := hnotional
  feesPaid_nonneg := hfees

/-- After a close, with the trade on the log. -/
def closed (s : SimulationState) (costBps : CostModel) (bar : ℕ) (exit : Candle) (price : ℚ)
    (hprice : 0 < price) (p : OpenPosition) (hnotional : 0 ≤ p.notional)
    (hfees : 0 ≤ p.fees + s.equity * (costBps exit s.equity / 10000)) : SimulationState :=
  let notional := s.equity
  let friction := costBps exit notional / 10000
  let equity := s.equity * closeMultiplier p price friction
  let fees := notional * friction
  { s with
    equity := equity
    position := none
    tradeLog := s.tradeLog ++ [closedTrade p exit price equity fees hprice hnotional hfees]
    totalFees := s.totalFees + fees
    totalTurnover := s.totalTurnover + notional
    fills := s.fills ++ [.exit bar price] }

/-- `close_position` (backtest.py:126–153), unless `BacktestTrade` refuses the trade.
Every caller goes on with no position or a new one. -/
def closePosition (s : SimulationState) (costBps : CostModel) (bar : ℕ) (exit : Candle)
    (price : ℚ) (hprice : 0 < price) (p : OpenPosition) : Except ResearchError SimulationState :=
  if h : 0 ≤ p.notional ∧ 0 ≤ p.fees + s.equity * (costBps exit s.equity / 10000) then
    .ok (s.closed costBps bar exit price hprice p h.1 h.2)
  else .error (.validation "BacktestTrade")

/-- Close what is open, if anything is. -/
def closeOpen (s : SimulationState) (costBps : CostModel) (bar : ℕ) (exit : Candle) (price : ℚ)
    (hprice : 0 < price) : Except ResearchError SimulationState :=
  match s.position with
  | none => .ok s
  | some p => s.closePosition costBps bar exit price hprice p

/-- Trade to the weight decided, at the open of the next bar (backtest.py:180–186). -/
def rebalance (s : SimulationState) (args : SimulationArgs) (bar : ℕ) (next : Candle)
    (d : Decision) : Except ResearchError SimulationState :=
  if args.rebalanceThreshold < |d.weight - s.weight| then
    match s.closeOpen args.costBps bar next next.openPrice next.open_pos with
    | .error e => .error e
    | .ok s =>
      if h : d.weight ≠ 0 then .ok (s.openPosition args.costBps bar next d h) else .ok s
  else .ok s

/-- One bar (backtest.py:174–189): the decision on the bars `seen`, its trades at
the next, the bar's return. -/
def simulateBar (s : SimulationState) (args : SimulationArgs) (decide : PositionDecision)
    (seen : List Candle) (next : Candle) : Except ResearchError SimulationState :=
  match decide seen with
  | .error e => .error e
  | .ok d =>
    match s.rebalance args seen.length next d with
    | .error e => .error e
    | .ok s' => if s.equity = 0 then .error .zeroDivision else .ok s'.observe

/-- The bars after those `seen`. -/
def simulateBars (args : SimulationArgs) (decide : PositionDecision) :
    List Candle → List Candle → SimulationState → Except ResearchError SimulationState
  | _, [], s => .ok s
  | seen, next :: rest, s =>
    match s.simulateBar args decide seen next with
    | .error e => .error e
    | .ok s' => simulateBars args decide (seen ++ [next]) rest s'

/-- The close at the end (backtest.py:191–195). -/
def finish (s : SimulationState) (args : SimulationArgs) (bar : ℕ) (last : Candle) :
    Except ResearchError SimulationState :=
  match s.position with
  | none => .ok s
  | some p =>
    match s.closePosition args.costBps bar last last.close last.close_pos p with
    | .error e => .error e
    | .ok s => .ok s.observe

/-- The simulation of a series. -/
def simulate (args : SimulationArgs) (candles : List Candle) (last : Candle)
    (decide : PositionDecision) : Except ResearchError SimulationState :=
  match simulateBars args decide (candles.take (args.warmup + 1))
      (candles.drop (args.warmup + 1)) (start args.startingEquity) with
  | .error e => .error e
  | .ok s => s.finish args (candles.length - 1) last

/-- The metrics of a finished simulation (backtest.py:197–238). -/
def report (s : SimulationState) (args : SimulationArgs) (first last : Candle) :
    Except ResearchError BacktestMetrics :=
  let totalReturn := s.equity / args.startingEquity - 1
  let benchmarkReturn := last.close / first.openPrice - 1
  let returns := s.tradeLog.map BacktestTrade.returnPct
  if h : 0 < s.equity ∧ 0 ≤ s.watermark.worst ∧ 0 ≤ s.totalTurnover / args.startingEquity
      ∧ 0 ≤ s.totalFees then
    .ok
      { startingEquity := args.startingEquity
        endingEquity := s.equity
        totalReturn := totalReturn
        benchmarkReturn := benchmarkReturn
        excessReturn := totalReturn - benchmarkReturn
        maxDrawdown := s.watermark.worst
        trades := s.tradeLog.length
        profitFactor := profitFactor returns
        expectancy := mean returns
        turnover := s.totalTurnover / args.startingEquity
        totalFees := s.totalFees
        tradeLog := s.tradeLog
        starting_pos := args.starting_pos
        ending_pos := h.1
        maxDrawdown_nonneg := h.2.1
        turnover_nonneg := h.2.2.1
        totalFees_nonneg := h.2.2.2 }
  else .error (.validation "BacktestMetrics")

end SimulationState

/-- `simulate_positions` (backtest.py:88–238). -/
def simulatePositions (args : SimulationArgs) (candles : List Candle)
    (decide : PositionDecision) : Except ResearchError BacktestMetrics :=
  if h : args.warmup < candles.length then
    match periodsPerYear (candles.get ⟨0, Nat.zero_lt_of_lt h⟩).interval with
    | .error e => .error e
    | .ok _ =>
      let last := candles.getLast (List.ne_nil_of_length_pos (Nat.zero_lt_of_lt h))
      match SimulationState.simulate args candles last decide with
      | .error e => .error e
      | .ok s => s.report args (candles.get ⟨args.warmup, h⟩) last
  else .error .insufficientCandles

end TraderStack
