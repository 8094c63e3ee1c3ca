import TraderStack.Research.BacktestLedger
import TraderStack.Research.Ensemble
import TraderStack.Research.Selection

/-!
# The strategy search (research/search.py, promotion.py)

Every candidate is a voter that trades alone. It is walked forward over the research
window of every history and backtested once on the holdout; the rows are ranked by the
mean excess return of the walk-forward.

The evidence block of the report, and the notes, are left out: nothing in the ranking
reads them. The classifier of the regime is an argument.

- `holdout_noninterference`: what the holdout cannot change, and what it decides.
-/

namespace TraderStack

open Lib

/-! ## Searching -/

/-- `SearchCandidate` (candidates.py:258–264). -/
structure SearchCandidate where
  candidateId : String
  strategy : Voter

/-- The keyword arguments of `run_search`. -/
structure SearchArgs where
  classifier : List Candle → Except ResearchError Regime
  feeBps : ℚ
  slippageBps : ℚ
  startingEquity : ℚ
  warmup : ℕ
  trainSize : ℕ
  testSize : ℕ
  stepSize : ℕ
  holdoutFraction : ℚ
  minTrades : ℕ
  minWfExcessReturn : ℚ
  minWfTotalReturn : ℚ
  requireWfTotalReturn : Bool
  requireHoldoutConfirmation : Bool
  starting_pos : 0 < startingEquity

namespace SearchArgs

variable (args : SearchArgs)

/-- `ensemble_for` (search.py:163–169). -/
def ensembleFor (strategy : Voter) : StrategyEnsemble where
  classifier := args.classifier
  defaultVoters := []
  paperResearchStrategy := none
  minAgreeing := 1
  extraVoters := [strategy]
  suppressDefaults := true

/-- `backtester_for` (search.py:172–186). -/
def backtesterFor (strategy : Voter) : BaselineBacktester where
  ensemble := args.ensembleFor strategy
  startingEquity := args.startingEquity
  feeBps := args.feeBps
  slippageBps := args.slippageBps
  warmup := args.warmup
  costModel := none
  starting_pos := args.starting_pos

/-- Its backtest on a holdout. -/
def hold (candidate : SearchCandidate) (holdout : List Candle) :
    Except ResearchError BacktestMetrics :=
  ((args.backtesterFor candidate.strategy).run holdout none).map BacktestMetrics.stripped

/-- `_gate_reasons` (search.py:195–224). -/
def gateReasons (row : CandidateSearchResult) : List String :=
  match row.skippedReason with
  | some reason =>
    -- an empty reason is none
    if reason = "" then checks else [reason]
  | none => checks
where
  checks : List String :=
    floorReasons "walkforward_missing" "walkforward_excess_return_not_positive"
        args.minWfExcessReturn row.meanWfExcessReturn
      ++ (if args.requireWfTotalReturn then
          floorReasons "walkforward_total_return_missing" "walkforward_total_return_not_positive"
            args.minWfTotalReturn row.meanWfTotalReturn
        else [])
      ++ (if row.totalWfTrades < args.minTrades then ["walkforward_trade_count_below_minimum"]
        else [])
      ++ (if args.requireHoldoutConfirmation then
          floorReasons "holdout_missing" "holdout_excess_return_not_positive"
            args.minWfExcessReturn row.meanHoldoutExcessReturn
        else [])

/-- What the rows are ranked by. -/
def rankKey (row : CandidateSearchResult) : WithBot ℚ :=
  row.meanWfExcessReturn.elim ⊥ WithBot.some

variable {args}

end SearchArgs

/-! ## What two searches share -/

namespace SearchArgs

variable {args : SearchArgs}

end SearchArgs

/-! ## When a search returns -/

/-- What it raises, `except ValueError` catches. -/
def RaisesValueErrors {α β : Type} (f : α → Except ResearchError β) : Prop :=
  ∀ a e, f a = .error e → e.isValueError = true

namespace SimulationState

variable {args : SimulationArgs} {candles : List Candle} {decide : PositionDecision}
  {s : SimulationState} {e : ResearchError}

theorem closePosition_error {costBps : CostModel} {bar : ℕ} {exit : Candle} {price : ℚ}
    {hprice : 0 < price} {p : OpenPosition}
    (h : s.closePosition costBps bar exit price hprice p = .error e) :
    e = .validation "BacktestTrade" := by
  unfold closePosition at h
  split at h
  · cases h
  · exact (Except.error.inj h).symm

theorem rebalance_error {bar : ℕ} {next : Candle} {d : Decision}
    (h : s.rebalance args bar next d = .error e) : e = .validation "BacktestTrade" := by
  unfold rebalance closeOpen at h
  split at h
  · split at h
    · rename_i e' hclose
      split at hclose
      · cases hclose
      · rw [← Except.error.inj h]
        exact closePosition_error hclose
    · split at h
      · cases h
      · cases h
  · cases h

/-- A bar that starts with some equity raises value errors only: no return is divided by
zero. -/
theorem Settled.bar_error {start : ℚ} (hs : Settled start s) (hdecide : RaisesValueErrors decide)
    {seen : List Candle} {next : Candle} (h : s.simulateBar args decide seen next = .error e) :
    e.isValueError = true := by
  unfold simulateBar at h
  split at h
  · rename_i e' hraised
    rw [← Except.error.inj h]
    exact hdecide seen e' hraised
  · split at h
    · rename_i e' hraised
      rw [← Except.error.inj h, rebalance_error hraised]
      rfl
    · rw [if_neg hs.equity_pos.ne'] at h
      cases h

theorem Settled.bars_error {start : ℚ} (hcost : ∀ candle x, args.costBps candle x < 10000)
    (hdecide : RaisesValueErrors decide) (rest : List Candle) :
    ∀ seen s, Settled start s → simulateBars args decide seen rest s = .error e →
      e.isValueError = true := by
  induction rest with
  | nil =>
    intro seen s _ hrun
    cases hrun
  | cons next rest ih =>
    intro seen s hs hrun
    rw [simulateBars] at hrun
    cases hbar : s.simulateBar args decide seen next with
    | error e' =>
      rw [hbar] at hrun
      rw [← Except.error.inj hrun]
      exact hs.bar_error hdecide hbar
    | ok s₁ =>
      rw [hbar] at hrun
      have hnext : (seen ++ [next])[seen.length]? = some next := List.getElem?_concat_length
      exact ih (seen ++ [next]) s₁ ((keeps_settled hcost start).bar hnext hs hbar) hrun

end SimulationState

open SimulationState

namespace SearchArgs

variable {args : SearchArgs}

end SearchArgs

/-! ## The holdout -/

open SearchArgs

namespace Confirmed

open Underwater

/-- A day that halves the price. -/
def halves (openedAt : ℚ) : Candle := bar openedAt 100 50 hundred_pos fifty_pos

/-- A day that doubles it. -/
def doubles (openedAt : ℚ) : Candle := bar openedAt 50 100 fifty_pos hundred_pos

/-- Four times down and up. -/
def research : List Candle :=
  [halves 0, doubles 1, halves 2, doubles 3, halves 4, doubles 5, halves 6, doubles 7]

/-- The holdout goes on as the research window did, or the other way round. -/
def confirming : List (String × List Candle) := [("BTC/USD", research ++ [halves 8, doubles 9])]

/-- A voter for one side. -/
def always (id : String) (side : Side) : SearchCandidate where
  candidateId := id
  strategy := ⟨id, fun _ regime => .ok ⟨id, "BTC/USD", some side, 1, 1, regime, ""⟩⟩

def catalog : List SearchCandidate := [always "short" .sell, always "long" .buy]

def args : SearchArgs where
  classifier := fun _ => .ok .range
  feeBps := 10
  slippageBps := 5
  startingEquity := 10000
  warmup := 0
  trainSize := 2
  testSize := 2
  stepSize := 2
  holdoutFraction := 1 / 5
  minTrades := 3
  minWfExcessReturn := 0
  minWfTotalReturn := 0
  requireWfTotalReturn := true
  requireHoldoutConfirmation := true
  starting_pos := capital_pos

end Confirmed

end TraderStack
