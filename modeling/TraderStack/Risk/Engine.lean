import TraderStack.Risk.Policy

/-!
# The risk engine (risk.py)

`RiskEngine.evaluate` runs a fixed sequence of checks and then sizes the trade.
Each check is a `Gate`: the reason it reports, whether it fired, and whether
firing blocks (some checks only report when the trade reduces exposure). The
gates stand in the order of the source, so the reasons of a result come out in
the source's order.

A SELL of an asset with positive observed exposure is risk-reducing: it skips
the additive limits and is capped to the exposure. Everything else is sized by
the tightest of the request (scaled by volatility and GARCH), the room in the
position, the gross room and the cash room.
-/

namespace TraderStack

open Lib

/-- `is_exit_strategy_id` (exits.py:44–47). -/
def isExitStrategyId (strategyId : String) : Bool :=
  "exit-".toList.isPrefixOf strategyId.toList

/-- `paper_risk_garch_factor` (garch.py:103–110). -/
def paperRiskGarchFactor (forecastVolAnn : Option ℚ) (targetVolAnn : ℚ) : ℚ :=
  match forecastVolAnn with
  | none => 1
  | some forecast =>
    if forecast ≤ 0 ∨ targetVolAnn ≤ 0 then 1 else min 1 (targetVolAnn / forecast)

/-- One check of the engine. -/
structure Gate where
  reason : String
  fired : Bool
  blocks : Bool
deriving DecidableEq

/-- `RiskEngine` (risk.py:162–173). -/
structure RiskEngine where
  settings : Settings
  killSwitch : Option KillSwitch
  circuitBreaker : Option StrategyCircuitBreaker

namespace RiskEngine

variable (e : RiskEngine) (proposal : TradeProposal) (portfolio : PortfolioSnapshot)
  (features : Option AssetFeatureVector) (now : Time)

/-- `_halted` (risk.py:335–338). -/
def halted : Bool :=
  match e.killSwitch with
  | some k => k.engaged
  | none => e.settings.killSwitch

/-- `_volatility_factor` (risk.py:340–354): target over observed volatility,
never above 1. -/
def volatilityFactor (features : AssetFeatureVector) : ℚ :=
  if features.market.volatilityZ ≤ 0 then 1
  else min 1 (e.settings.targetVolatility / features.market.volatilityZ)

/-- `_garch_size_factor` (risk.py:355–360). -/
def garchSizeFactor (features : AssetFeatureVector) : ℚ :=
  paperRiskGarchFactor features.market.garchForecastVol e.settings.paperGarchTargetVol

/-- The observed exposure in the proposal's asset. -/
def existingExposure (proposal : TradeProposal) (portfolio : PortfolioSnapshot) : ℚ :=
  (portfolio.assetExposureUsd.get? (Text.upper proposal.asset)).getD 0

/-- A SELL against positive observed exposure (risk.py:199). -/
def riskReducing (proposal : TradeProposal) (portfolio : PortfolioSnapshot) : Bool :=
  proposal.side = .sell && 0 < existingExposure proposal portfolio

/-- The sum of the observed exposures. -/
def grossExposure (portfolio : PortfolioSnapshot) : ℚ :=
  portfolio.assetExposureUsd.sum fun _ x => x

/-- The room under the gross limit (risk.py:231–233). -/
def grossRoom : ℚ :=
  portfolio.navUsd * e.settings.maxGrossExposurePct - grossExposure portfolio

/-- The cash above the reserve (risk.py:238–239). -/
def cashRoom : ℚ :=
  portfolio.cashUsd - portfolio.navUsd * e.settings.minCashReservePct

/-- The assets with positive exposure (risk.py:244–246). -/
def openPositions (portfolio : PortfolioSnapshot) : List String :=
  (portfolio.assetExposureUsd.filter fun x => 0 < x).keys

/-- The room in the proposal's own position (risk.py:289–290). -/
def remaining : ℚ :=
  max 0 (portfolio.navUsd * e.settings.maxPositionPct - existingExposure proposal portfolio)

/-! ### The gates, in order -/

def staleGate : Gate where
  reason := "stale_portfolio_state"
  fired := e.settings.maxPortfolioStateAgeSeconds < now - portfolio.observedAt
  blocks := true

def dailyLossGate : Gate where
  reason := "daily_loss_limit_reached"
  fired := portfolio.dailyPnlUsd ≤ -(portfolio.navUsd * e.settings.maxDailyLossPct)
  blocks := !riskReducing proposal portfolio

def drawdownGate : Gate where
  reason := "account_drawdown_limit_reached"
  fired := e.settings.maxAccountDrawdownPct ≤ 1 - portfolio.navUsd / portfolio.peakNavUsd
  blocks := !riskReducing proposal portfolio

def grossGate : Gate where
  reason := "gross_exposure_limit"
  fired := !riskReducing proposal portfolio && e.grossRoom portfolio ≤ 0
  blocks := true

def cashGate : Gate where
  reason := "cash_reserve_breached"
  fired := !riskReducing proposal portfolio && e.cashRoom portfolio ≤ 0
  blocks := true

def maxPositionsGate : Gate where
  reason := "max_positions_reached"
  fired := !riskReducing proposal portfolio
    && (!(openPositions portfolio).contains (Text.upper proposal.asset)
      && e.settings.maxOpenPositions ≤ (openPositions portfolio).length)
  blocks := true

/-- Deterministic exits skip the strategy breaker (risk.py:255–265). -/
def breakerGate : Gate where
  reason := "strategy_circuit_breaker"
  fired :=
    match e.circuitBreaker with
    | none => false
    | some breaker =>
      !isExitStrategyId proposal.strategyId && (breaker.isTripped proposal.strategyId now).1
  blocks := true

def allowlistGate : Gate where
  reason := "asset_not_allowlisted"
  fired := !e.settings.assets.contains (Text.upper proposal.asset)
  blocks := true

def spreadGate : Gate where
  reason := "spread_too_wide"
  fired :=
    match features with
    | none => false
    | some f => e.settings.riskMaxSpreadBps < f.market.spreadBps
  blocks := true

/-- Only a trade that adds risk is checked against its own position limit
(risk.py:289–293). -/
def positionGate : Gate where
  reason := "position_limit_reached"
  fired := !riskReducing proposal portfolio && e.remaining proposal portfolio ≤ 0
  blocks := true

/-- All checks of layers 2 to 5. -/
def gates : List Gate :=
  [e.staleGate portfolio now, e.dailyLossGate proposal portfolio,
    e.drawdownGate proposal portfolio, e.grossGate proposal portfolio,
    e.cashGate proposal portfolio, e.maxPositionsGate proposal portfolio,
    e.breakerGate proposal now, e.allowlistGate proposal, e.spreadGate features,
    e.positionGate proposal portfolio]

/-- The reasons of the gates that fired. -/
def gateReasons : List String :=
  ((e.gates proposal portfolio features now).filter (·.fired)).map (·.reason)

/-- `blocking_reasons` is not empty. -/
def blocked : Bool :=
  (e.gates proposal portfolio features now).any fun g => g.fired && g.blocks

/-! ### Sizing and the verdict -/

/-- The factor volatility targeting applies (risk.py:297–303). -/
def volatilityScale : ℚ :=
  match features with
  | none => 1
  | some f => if e.settings.volatilitySizingEnabled then e.volatilityFactor f else 1

/-- The factor the GARCH overlay applies (risk.py:308–313). -/
def garchScale : ℚ :=
  match features with
  | none => 1
  | some f => if e.settings.paperGarchSizeActive then e.garchSizeFactor f else 1

/-- The request after volatility and GARCH sizing. A factor of 1 is not applied
and reports nothing. -/
def sizedRequest : ℚ :=
  proposal.requestedNotionalUsd * e.volatilityScale features * e.garchScale features

/-- `evaluate` (risk.py:183–331). The breaker's own bookkeeping is in
`StrategyCircuitBreaker.isTripped`. -/
def evaluate : RiskResult :=
  let result (decision : RiskDecision) (approved : ℚ) (reasons : List String) : RiskResult :=
    { decisionId := proposal.decisionId
      decision := decision
      approvedNotionalUsd := approved
      reasons := reasons }
  let requested := proposal.requestedNotionalUsd
  if e.halted then result .reject 0 ["kill_switch_enabled"]
  else
    let reasons := e.gateReasons proposal portfolio features now
    if riskReducing proposal portfolio then
      let approved := min requested (existingExposure proposal portfolio)
      let reasons := reasons ++ if approved < requested then ["sell_capped_to_position"] else []
      if e.blocked proposal portfolio features now then result .reject 0 reasons
      else result (if approved = requested then .allow else .reduce) approved reasons
    else if e.blocked proposal portfolio features now then result .reject 0 reasons
    else
      let approved := min (min (min (e.sizedRequest proposal features)
        (e.remaining proposal portfolio)) (e.grossRoom portfolio)) (e.cashRoom portfolio)
      let decision : RiskDecision := if approved = requested then .allow else .reduce
      let reasons := reasons
        ++ (if e.volatilityScale features < 1 then ["volatility_scaled"] else [])
        ++ (if e.garchScale features < 1 then ["garch_size_scaled"] else [])
        ++ (if decision = .reduce then ["position_size_reduced"] else [])
      result decision approved reasons

end RiskEngine

end TraderStack
