import TraderStack.Execution.ProvenanceRuns
import TraderStack.Service.Cycle

/-!
# Limits on the orders of a run

The risk engine and the exit rules see the booked portfolio only. Each create
call of a cycle is bounded by the snapshot that cycle was decided on
(`OrderWithinLimits`): a BUY fits under the position limit on top of the booked
exposure, a reduce-only SELL is at most the held quantity. Nothing counts what
earlier cycles have in flight, so the sum over unbooked orders is not bounded.
-/

namespace TraderStack

open Lib

/-! ## The create calls of a cycle -/

namespace ContinuousPaperService

variable {svc : ContinuousPaperService} {portfolio : PortfolioSnapshot} {tick : MarketTick}
  {intent : PaperOrderIntent} {now : Time} {input : CycleInput}

section Keeps

variable {calls : List HummingbotOrderRequest} {G : HummingbotOrderRequest → Prop}

theorem keeps_onAccounts {ε α : Type} (f : Accounts → Except ε α × Accounts)
    (raised : ε → ServiceError) : Proc.Keeps (Sent calls G) (onAccounts f raised) := by
  refine Proc.Triple.exec fun w hw => ?_
  dsimp only
  split <;> exact hw

theorem keeps_saveLedger : Proc.Keeps (Sent calls G) saveLedger :=
  Proc.Triple.effect fun _ hw => ⟨hw, hw⟩

theorem keeps_checkpoint : Proc.Keeps (Sent calls G) checkpoint := by
  refine Proc.Keeps.get_bind fun w => ?_
  split
  · exact Proc.Keeps.raise _
  · exact Proc.Triple.effect fun _ hw => ⟨hw, hw⟩

theorem keeps_reconcileNow (input : PassInput) :
    Proc.Keeps (Sent calls G) (svc.reconcileNow input) := by
  have hblocked : ∀ b, Proc.Keeps (Sent calls G) (setBlocked b) :=
    fun b => Proc.Triple.modify fun _ hw => hw
  refine Proc.Triple.handle (R := fun _ => Sent calls G) ?_ fun _ => hblocked _
  refine Proc.Keeps.bind ?_ fun execution => ?_
  · unfold reconcileExecution
    split
    · exact Proc.Keeps.pure _
    split
    · exact Proc.Keeps.raise _
    refine Proc.Keeps.bind (keeps_onAccounts _ _) fun result => ?_
    refine Proc.Keeps.bind keeps_saveLedger fun _ => ?_
    split
    · exact Proc.Keeps.bind keeps_checkpoint fun _ => Proc.Keeps.pure _
    · exact Proc.Keeps.pure _
  · unfold reconcilePortfolio
    split
    · exact Proc.Keeps.raise _
    · exact hblocked _

end Keeps

end ContinuousPaperService

/-! ### Orders in flight -/

/-- What is neither booked nor closed of an accepted order. -/
def ExecutionLedger.openQuantity (l : ExecutionLedger) (a : VenueOrder) : ℚ :=
  match a.request.clientOrderId.bind l.orders.get? with
  | none => a.request.amount
  | some o => if o.state.terminal then 0 else a.request.amount - o.filledQuantity

/-- The quantity of an asset in flight on one side. -/
def World.inFlight (w : World) (asset : String) (side : Side) : ℚ :=
  ((w.venue.accepted.filter fun a =>
    pairAsset a.request.tradingPair = asset ∧ a.request.tradeType = side.tradeType).map
      w.ledger.openQuantity).sum

namespace ContinuousPaperService

end ContinuousPaperService

namespace InFlight

/-- The default limits but for 1.5 % of the NAV per position, and no halt. -/
def settings : Settings :=
  { Settings.default with
    maxPositionPct := 15 / 1000
    killSwitch := false
    maxPosition_bounds := by norm_num }

/-- A service that enters with 1 % of a NAV of 10000, over a venue that creates
every order, without local fills. -/
def service : ContinuousPaperService where
  pipeline :=
    { riskEngine := ⟨settings, none, none⟩, exits := .default, maxTickAgeSeconds := 10
      maxSpreadBps := 30, maxReferenceDivergenceBps := 100, demonstrationNotionalPct := 1 / 100
      pretradeGate := false, featureBuilder := none, defaultInterval := "1h"
      blockOnAdverseNews := true, requireExternalIntelligence := false, onchainRegimeGate := false
      onchainRegimeMaxPercentile := 9 / 10, promoteUniverse := none }
  submitter := some Flip.submitter
  reconciler := some ⟨10, Oversold.ten_nonneg⟩
  paperFillSimulator := none
  env := Feeless.env
  submit := true
  diagnosticMode := false
  startingNavUsd := 10000
  starting_pos := capital_pos

/-- A BTC cycle at a constant price of 100. -/
def cycle (decisionId : String) (now : Time) : ContinuousPaperService.Event :=
  .cycle
    { symbol := "BTC/USD"
      market := some
        { tick := ⟨.kraken, "BTC/USD", now, 100, 100, 100, Oversold.hundred_pos,
            Oversold.hundred_pos, Oversold.hundred_pos⟩
          references := [⟨.coingecko, "BTC", "USD", 100, Oversold.hundred_pos⟩]
          candles := none
          intelligence := none
          now := now
          decisionId := decisionId }
      now := now
      killSwitch := none
      circuitBreaker := none
      reviewWithholds := false
      auditFails := false }
    none

/-- A pass that sees the first order's trade of 1 BTC. -/
def pass (now : Time) : ContinuousPaperService.Event :=
  .reconcile
    { payloads := some (.list [Feeless.order "filled"], .list [Feeless.trade "t1" 1 1])
      drift := some []
      now := now }
    none

/-- Two entries before any pass. -/
def entries : List ContinuousPaperService.Event := [cycle "d1" 0, cycle "d2" 5]

/-- An entry, its fill, and two time stops a day later. -/
def exits : List ContinuousPaperService.Event :=
  [cycle "d1" 0, pass 60, cycle "d2" 86460, cycle "d3" 86465]

end InFlight

namespace ContinuousPaperService

end ContinuousPaperService

end TraderStack
