import TraderStack.Lib.Text
import TraderStack.Models

/-!
# Risk policy: settings, halt channels, strategy breaker

What the risk engine consults besides the proposal and the portfolio: the
limits of `Settings` (config.py) with their field bounds, the operator kill
switch (killswitch.py) and the per-strategy circuit breaker
(circuit_breaker.py).

The settings modelled are those the modelled functions read. The three
out-of-process halt channels are observations: whether the sentinel file
exists, what the last Redis probe said, whether the signal was delivered.
-/

namespace TraderStack

open Lib

inductive TradingMode where
  | paper
  | shadow
  | live
deriving DecidableEq, Repr

/-- `Settings` (config.py:40–470), the fields the risk plane reads. -/
structure Settings where
  tradingMode : TradingMode
  mvpAssets : String
  maxPositionPct : ℚ
  maxDailyLossPct : ℚ
  maxAccountDrawdownPct : ℚ
  killSwitch : Bool
  maxOpenPositions : ℕ
  minCashReservePct : ℚ
  maxGrossExposurePct : ℚ
  maxPortfolioStateAgeSeconds : ℚ
  riskMaxSpreadBps : ℚ
  volatilitySizingEnabled : Bool
  targetVolatility : ℚ
  paperGarchSize : Bool
  paperGarchTargetVol : ℚ
  maxPosition_bounds : 0 < maxPositionPct ∧ maxPositionPct ≤ 1
  maxDailyLoss_bounds : 0 < maxDailyLossPct ∧ maxDailyLossPct ≤ 1
  maxAccountDrawdown_bounds : 0 < maxAccountDrawdownPct ∧ maxAccountDrawdownPct ≤ 1
  maxOpenPositions_pos : 0 < maxOpenPositions
  minCashReserve_bounds : 0 ≤ minCashReservePct ∧ minCashReservePct < 1
  maxGrossExposure_bounds : 0 < maxGrossExposurePct ∧ maxGrossExposurePct ≤ 1
  maxPortfolioStateAge_pos : 0 < maxPortfolioStateAgeSeconds
  riskMaxSpread_pos : 0 < riskMaxSpreadBps
  targetVolatility_pos : 0 < targetVolatility
  paperGarchTargetVol_pos : 0 < paperGarchTargetVol

namespace Settings

/-- `assets` (config.py:573–575): the allowlist, split, stripped and normalised. -/
def assets (s : Settings) : List String :=
  (((s.mvpAssets.toList.splitOn ',').map Text.strip).filter fun x => !x.isEmpty).map
    fun x => Text.upper (String.ofList x)

/-- `paper_garch_size_active` (config.py:721–724). -/
def paperGarchSizeActive (s : Settings) : Bool :=
  s.tradingMode = .paper && s.paperGarchSize

/-- The defaults of the model class. -/
def default : Settings where
  tradingMode := .paper
  mvpAssets := "BTC,ETH,SOL"
  maxPositionPct := 1 / 10
  maxDailyLossPct := 2 / 100
  maxAccountDrawdownPct := 1 / 10
  killSwitch := true
  maxOpenPositions := 5
  minCashReservePct := 5 / 100
  maxGrossExposurePct := 60 / 100
  maxPortfolioStateAgeSeconds := 60
  riskMaxSpreadBps := 30
  volatilitySizingEnabled := true
  targetVolatility := 2 / 100
  paperGarchSize := false
  paperGarchTargetVol := 1 / 2
  maxPosition_bounds := by norm_num
  maxDailyLoss_bounds := by norm_num
  maxAccountDrawdown_bounds := by norm_num
  maxOpenPositions_pos := by norm_num
  minCashReserve_bounds := by norm_num
  maxGrossExposure_bounds := by norm_num
  maxPortfolioStateAge_pos := by norm_num
  riskMaxSpread_pos := by norm_num
  targetVolatility_pos := by norm_num
  paperGarchTargetVol_pos := by norm_num

example : default.assets = ["BTC", "ETH", "SOL"] := by decide +kernel

end Settings

/-! ## Kill switch -/

/-- The live halt (killswitch.py:100–165); any engaged channel engages it. -/
structure KillSwitch where
  settingsFlag : Bool
  fileEngaged : Bool
  redisEngaged : Bool
  signalEngaged : Bool
deriving DecidableEq

/-- `engaged` (killswitch.py:144–148). -/
def KillSwitch.engaged (k : KillSwitch) : Bool :=
  k.settingsFlag || k.fileEngaged || k.redisEngaged || k.signalEngaged

/-! ## Strategy circuit breaker -/

/-- One realised outcome (circuit_breaker.py:55–64). -/
structure ClosedTrade where
  pnlUsd : ℚ
  navUsd : ℚ
  closedAt : Time
  nav_pos : 0 < navUsd

/-- `StrategyBreakerState` (circuit_breaker.py:67–78). -/
structure StrategyBreakerState where
  consecutiveLosses : ℕ
  closedTrades : List ClosedTrade
  trippedAt : Option Time
  tripReason : Option String

/-- `StrategyCircuitBreaker` (circuit_breaker.py:99–107). -/
structure StrategyCircuitBreaker where
  maxConsecutiveLosses : ℕ
  drawdownWindow : ℕ
  maxRollingDrawdownPct : ℚ
  cooldownSeconds : ℚ
  states : Dict String StrategyBreakerState

namespace StrategyCircuitBreaker

/-- `reset` (circuit_breaker.py:233–242). -/
def reset (b : StrategyCircuitBreaker) (strategyId : String) : StrategyCircuitBreaker :=
  match b.states.get? strategyId with
  | none => b
  | some _ =>
    { b with
      states := b.states.set strategyId
        { consecutiveLosses := 0, closedTrades := [], trippedAt := none, tripReason := none } }

/-- `is_tripped` (circuit_breaker.py:221–231): the verdict, and the breaker it
leaves; an elapsed cool-down resets the strategy. -/
def isTripped (b : StrategyCircuitBreaker) (strategyId : String) (now : Time) :
    Bool × StrategyCircuitBreaker :=
  match b.states.get? strategyId with
  | none => (false, b)
  | some state =>
    match state.trippedAt with
    | none => (false, b)
    | some trippedAt =>
      if b.cooldownSeconds ≤ now - trippedAt then (false, b.reset strategyId) else (true, b)

end StrategyCircuitBreaker

/-! ## Features -/

/-- `MarketFeatures` (features.py:6–22), the readings the risk engine sizes by. -/
structure MarketFeatures where
  volatilityZ : ℚ
  spreadBps : ℚ
  garchForecastVol : Option ℚ
  spread_nonneg : 0 ≤ spreadBps
  garch_nonneg : ∀ x ∈ garchForecastVol, 0 ≤ x

/-- `AssetFeatureVector` (features.py:68–78), its market slice. -/
structure AssetFeatureVector where
  market : MarketFeatures

end TraderStack
