import TraderStack.Agents.Review
import TraderStack.Portfolio.BookTheory

/-!
# What a protective exit depends on

A protective exit is decided from the held position, the tick, the clock and the
risk limits. Two cycles that share these and differ in anything advisory
(intelligence, gates, candles, the reviewer and its model) come to the same
exit, as long as each of them can read its candles: the features are built, and
the bar label parsed, before the exit rules are asked.
-/

namespace TraderStack

open Lib

/-! ## Sizing a reduction -/

namespace RiskEngine

end RiskEngine

namespace VerticalSlicePipeline

/-- The moment as the price and time rules see it. -/
def exitMoment (i : MarketInput) (held : HeldPosition) (barSeconds : ℚ) : ExitContext :=
  ⟨held, i.tick.last, held.averageCostUsd, i.now, barSeconds, none, none, .sell⟩

/-- The market data passes: no reason against it, and no crossed spread. -/
structure Accepted (p : VerticalSlicePipeline) (i : MarketInput)
    (divergences : List PriceDivergence) : Prop where
  validate : p.validate i = .ok ([], divergences)
  spread_nonneg : 0 ≤ i.tick.spreadBps

variable {p p' : VerticalSlicePipeline} {i i' : MarketInput} {portfolio : PortfolioSnapshot}
  {held : HeldPosition} {reason : ExitReason} {divergences : List PriceDivergence}

/-- Two cycles that see the same market under the same limits. Their gates, their
candles and their intelligence may differ. -/
structure Shares (p p' : VerticalSlicePipeline) (i i' : MarketInput) : Prop where
  riskEngine : p'.riskEngine = p.riskEngine
  exits : p'.exits = p.exits
  maxTickAge : p'.maxTickAgeSeconds = p.maxTickAgeSeconds
  maxSpread : p'.maxSpreadBps = p.maxSpreadBps
  maxDivergence : p'.maxReferenceDivergenceBps = p.maxReferenceDivergenceBps
  tick : i'.tick = i.tick
  references : i'.references = i.references
  now : i'.now = i.now

end VerticalSlicePipeline

namespace Frozen

theorem ninety_pos : (0 : ℚ) < 90 := by norm_num

/-- 10 BTC bought at 100. -/
def book : PortfolioBook :=
  ((PortfolioBook.fresh 10000 Approved.nav_pos).applyFill "BTC" .buy 10 100 0 0 none).2

/-- The book after its snapshot. -/
def rolled : PortfolioBook := (book.snapshot 1).2

def portfolio : PortfolioSnapshot :=
  match (book.snapshot 1).1 with
  | .ok s => s
  | .error _ => Approved.portfolio

theorem shown : (book.snapshot 1).1.isOk = true ∧
    (portfolio.heldPositions.get? "BTC").isSome = true := by
  decide +kernel

theorem snapshot_eq : book.snapshot 1 = (.ok portfolio, rolled) := by
  have hok := shown.1
  unfold portfolio rolled
  rcases hsnapshot : book.snapshot 1 with ⟨r, b'⟩
  cases r with
  | ok s => rfl
  | error e =>
    rw [hsnapshot] at hok
    cases hok

theorem isSome_held : (portfolio.heldPositions.get? "BTC").isSome = true := shown.2

def held : HeldPosition := (portfolio.heldPositions.get? "BTC").get isSome_held

/-- A pipeline that builds features from candles. -/
def pipeline : VerticalSlicePipeline :=
  { Approved.pipeline with featureBuilder := some ⟨4, 24, 24, 24⟩ }

/-- BTC at 90, without candles. -/
def noCandles : MarketInput :=
  { Approved.market with
    tick := ⟨.kraken, "BTC/USD", 1, 90, 90, 90, ninety_pos, ninety_pos, ninety_pos⟩
    references := [⟨.coingecko, "BTC", "USD", 90, ninety_pos⟩]
    now := 1 }

theorem no_forecast : ∀ x ∈ (none : Option ℚ), 0 ≤ x := by
  rintro x ⟨⟩

/-- So many candles of a bar, and a gate that passes nothing. -/
def candles (interval : String) (count : ℕ) : MarketInput :=
  { noCandles with
    candles := some
      { interval := interval
        count := count
        volatilityZ := 3
        garchForecastVol := none
        pretrade := ⟨false, ["no_edge"], none, 1, none, certain_bounds⟩
        garch_nonneg := no_forecast } }

theorem shares (interval : String) (count : ℕ) :
    VerticalSlicePipeline.Shares pipeline pipeline noCandles (candles interval count) :=
  ⟨rfl, rfl, rfl, rfl, rfl, rfl, rfl, rfl⟩

/-- The market is accepted, BTC is held, and its stop-loss is due. -/
theorem due : pipeline.validate noCandles = .ok ([], []) ∧ 0 ≤ noCandles.tick.spreadBps ∧
    pipeline.exits.active pipeline.riskEngine.settings.tradingMode = true ∧ 0 < held.quantity ∧
    0 < held.averageCostUsd ∧
    (VerticalSlicePipeline.exitMoment noCandles held 0).stopLossFired pipeline.exits = true := by
  decide +kernel

theorem accepted : VerticalSlicePipeline.Accepted pipeline noCandles [] := ⟨due.1, due.2.1⟩

end Frozen

namespace VerticalSlicePipeline

end VerticalSlicePipeline

end TraderStack
