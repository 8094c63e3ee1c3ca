import TraderStack.Risk.Policy

/-!
# Position exits (exits.py)

`evaluatePositionExits` turns a held position and a mark into a protective exit:
the first rule that fires, in the order stop-loss, trailing stop, take-profit,
time stop, thesis invalidation. The exit asks for the whole position, sized at
the lowest price a paper fill can print.

The book is long only, so a position with a positive mark is always reduced by
a SELL; the BUY legs of the rules are modelled all the same.
-/

namespace TraderStack

open Lib

/-- `ExitReason` (exits.py:26–31). -/
inductive ExitReason where
  | stopLoss
  | trailingStop
  | takeProfit
  | timeStop
  | thesisInvalidated
deriving DecidableEq, Repr

/-- The reason's text. -/
def ExitReason.value : ExitReason → String
  | stopLoss => "exit_stop_loss"
  | trailingStop => "exit_trailing_stop"
  | takeProfit => "exit_take_profit"
  | timeStop => "exit_time_stop"
  | thesisInvalidated => "exit_thesis_invalidated"

/-- `exit_strategy_id` (exits.py:50–51), its value for each reason. -/
def exitStrategyId : ExitReason → String
  | .stopLoss => "exit-stop_loss"
  | .trailingStop => "exit-trailing_stop"
  | .takeProfit => "exit-take_profit"
  | .timeStop => "exit-time_stop"
  | .thesisInvalidated => "exit-thesis_invalidated"

/-- `ExitSignal` (exits.py:35–42). -/
structure ExitSignal where
  reason : ExitReason
  asset : String
  side : Side
  requestedNotionalUsd : ℚ
  markPriceUsd : ℚ
  entryPriceUsd : ℚ
deriving DecidableEq

/-- The exit rules of `Settings` (config.py:255–301). -/
structure ExitSettings where
  stopLossPct : ℚ
  takeProfitPct : ℚ
  trailingStopPct : ℚ
  timeStopBars : ℕ
  onThesisInvalidation : Bool
  paperSlippageBps : ℚ
  stopLoss_bounds : 0 ≤ stopLossPct ∧ stopLossPct ≤ 1
  takeProfit_bounds : 0 ≤ takeProfitPct ∧ takeProfitPct ≤ 1
  trailingStop_bounds : 0 ≤ trailingStopPct ∧ trailingStopPct ≤ 1
  paperSlippage_nonneg : 0 ≤ paperSlippageBps

namespace ExitSettings

/-- The defaults of the model class. -/
def default : ExitSettings where
  stopLossPct := 2 / 100
  takeProfitPct := 4 / 100
  trailingStopPct := 0
  timeStopBars := 24
  onThesisInvalidation := false
  paperSlippageBps := 5
  stopLoss_bounds := by norm_num
  takeProfit_bounds := by norm_num
  trailingStop_bounds := by norm_num
  paperSlippage_nonneg := by norm_num

/-- `position_exits_active` (config.py:654–669). -/
def active (s : ExitSettings) (mode : TradingMode) : Bool :=
  mode ≠ .live && (0 < s.stopLossPct || 0 < s.takeProfitPct || 0 < s.trailingStopPct
    || 0 < s.timeStopBars || s.onThesisInvalidation)

end ExitSettings

/-- `reducing_side` (exits.py:54–61). -/
def reducingSide (exposureUsd : ℚ) : Option Side :=
  if 0 < exposureUsd then some .sell
  else if exposureUsd < 0 then some .buy
  else none

/-- `exit_sizing_price_usd` (exits.py:70–94): the mark less the slippage, unless
that is not positive. -/
def exitSizingPriceUsd (s : ExitSettings) (markPriceUsd : ℚ) : ℚ :=
  if markPriceUsd ≤ 0 then markPriceUsd
  else
    let price := markPriceUsd * (1 - max 0 s.paperSlippageBps / 10000)
    if price ≤ 0 then markPriceUsd else price

/-- What the exit rules see of the moment. -/
structure ExitContext where
  position : HeldPosition
  markPriceUsd : ℚ
  entry : ℚ
  now : Time
  barSeconds : ℚ
  confirmedSide : Option Side
  regime : Option Regime
  side : Side

namespace ExitContext

variable (s : ExitSettings) (x : ExitContext)

def stopLossFired : Bool :=
  0 < s.stopLossPct
    && (x.side = .sell && x.markPriceUsd ≤ x.entry * (1 - s.stopLossPct)
      || x.side = .buy && x.entry * (1 + s.stopLossPct) ≤ x.markPriceUsd)

/-- Only a SELL trails, and only above the entry. -/
def trailingStopFired : Bool :=
  let highWater := max (max x.position.highWaterPriceUsd x.entry) x.markPriceUsd
  0 < s.trailingStopPct && x.side = .sell && x.entry < highWater
    && x.markPriceUsd ≤ highWater * (1 - s.trailingStopPct)

def takeProfitFired : Bool :=
  0 < s.takeProfitPct
    && (x.side = .sell && x.entry * (1 + s.takeProfitPct) ≤ x.markPriceUsd
      || x.side = .buy && x.markPriceUsd ≤ x.entry * (1 - s.takeProfitPct))

def timeStopFired : Bool :=
  match x.position.openedAt with
  | none => false
  | some openedAt =>
    0 < s.timeStopBars && 0 < x.barSeconds
      && s.timeStopBars * x.barSeconds ≤ x.now - openedAt

/-- The ensemble confirms the reducing side, or the trend turned against a
momentum entry. -/
def thesisInvalidated : Bool :=
  s.onThesisInvalidation
    && (x.confirmedSide = some x.side
      || x.side = .sell && x.regime = some .trendingDown
        && decide ("momentum".toList <:+:
          (Text.lower (x.position.entryStrategyId.getD "")).toList))

/-- `_first_fired_reason` (exits.py:156–205). -/
def firstFiredReason : Option ExitReason :=
  if x.stopLossFired s then some .stopLoss
  else if x.trailingStopFired s then some .trailingStop
  else if x.takeProfitFired s then some .takeProfit
  else if x.timeStopFired s then some .timeStop
  else if x.thesisInvalidated s then some .thesisInvalidated
  else none

end ExitContext

/-- `evaluate_position_exits` (exits.py:100–150). -/
def evaluatePositionExits (s : ExitSettings) (mode : TradingMode) (asset : String)
    (position : HeldPosition) (markPriceUsd : ℚ) (now : Time) (barSeconds : ℚ)
    (confirmedSide : Option Side) (regime : Option Regime) : Option ExitSignal :=
  if !s.active mode then none
  else if markPriceUsd ≤ 0 ∨ position.quantity ≤ 0 then none
  else
    match reducingSide (position.quantity * markPriceUsd) with
    | none => none
    | some side =>
      if position.averageCostUsd ≤ 0 then none
      else
        let x : ExitContext :=
          ⟨position, markPriceUsd, position.averageCostUsd, now, barSeconds, confirmedSide, regime,
            side⟩
        (x.firstFiredReason s).map fun reason =>
          { reason := reason
            asset := Text.upper asset
            side := side
            requestedNotionalUsd := position.quantity * exitSizingPriceUsd s markPriceUsd
            markPriceUsd := markPriceUsd
            entryPriceUsd := position.averageCostUsd }

end TraderStack
