import TraderStack.Risk.Breaker
import TraderStack.Service.HedgedCycle
import TraderStack.Service.OrderLimits

/-!
# What the service tells its breaker

The risk engine asks the breaker, the checkpoint saves it and a restart reloads it,
but no path of the service records an outcome: `record_reducing_fill` and
`record_ledger_close` have no caller. So the breaker of every run is as
`from_settings` made it.

- `untold_run`: in no run does the breaker know of a strategy;
- `trips_when_due_iff`: a strategy whose losses are due to trip it is never rejected
  for it.
-/

namespace TraderStack

open Lib

namespace HedgedWorld

/-- No outcome has reached the breaker, in memory or in the checkpoint. -/
structure Untold (h : HedgedWorld) : Prop where
  states : h.circuitBreaker.states = Dict.empty
  checkpoint : h.checkpointBreakers = Dict.empty

/-- What the positions a strategy opened have realised. -/
def closesOf (h : HedgedWorld) (strategyId : String) : List RealizedClose :=
  h.closes.filter fun c => c.strategyId = strategyId

/-- The last closes of a strategy, as many as the limit, were losses, and the
cool-down since the last of them has not elapsed. -/
def LosingStreak (h : HedgedWorld) (b : StrategyCircuitBreaker) (strategyId : String)
    (now : Time) : Prop :=
  ∃ earlier losses last, h.closesOf strategyId = earlier ++ losses ∧
    b.maxConsecutiveLosses ≤ losses.length ∧ (∀ c ∈ losses, c.pnlUsd < 0) ∧
    losses.getLast? = some last ∧ now - last.closedAt < b.cooldownSeconds

end HedgedWorld

/-- A breaker that knows no strategy is asked in vain. -/
theorem StrategyCircuitBreaker.isTripped_of_empty {b : StrategyCircuitBreaker}
    (h : b.states = Dict.empty) (strategyId : String) (now : Time) :
    b.isTripped strategyId now = (false, b) := by
  rw [isTripped, h, Dict.get?_empty]

namespace HedgedPaperService

variable {svc : HedgedPaperService}

/-! ## No outcome reaches the breaker -/

theorem untold_onWorld {α : Type} (p : Service α) : Proc.Keeps HedgedWorld.Untold (onWorld p) :=
  keeps_onWorld (fun _ _ hh => ⟨hh.states, hh.checkpoint⟩) p

theorem states_consulted {h : HedgedWorld} (hh : h.Untold) (input : HedgedCycleInput) :
    (svc.consulted input h).states = Dict.empty := by
  unfold consulted
  split
  · split
    · exact hh.states
    · rw [StrategyCircuitBreaker.isTripped_of_empty hh.states]
      exact hh.states
  · exact hh.states

theorem untold_decideAndSubmit (input : HedgedCycleInput) :
    Proc.Keeps HedgedWorld.Untold (svc.decideAndSubmit input) := by
  refine Proc.Keeps.get_bind fun h => Proc.Keeps.bind ?_ fun _ => untold_onWorld _
  exact Proc.Triple.modify fun h hh => ⟨states_consulted hh input, hh.checkpoint⟩

theorem untold_openHedge (input : HedgedCycleInput) (fill : ExecutionFill)
    (quote : Option PerpQuote) (decisionId : String) :
    Proc.Keeps HedgedWorld.Untold (openHedge input fill quote decisionId) :=
  triple_openHedge fun _ _ _ _ hh _ =>
    ⟨⟨hh.states, hh.checkpoint⟩, fun _ _ => ⟨hh.states, hh.checkpoint⟩⟩

theorem untold_noteFill {h : HedgedWorld} (hh : h.Untold) (before : PortfolioBook)
    (strategyId : String) (fill : ExecutionFill) (now : Time) :
    (h.noteFill before strategyId fill now).Untold := by
  unfold HedgedWorld.noteFill
  dsimp only
  split
  · split
    · exact ⟨hh.states, hh.checkpoint⟩
    · exact hh
  · exact ⟨hh.states, hh.checkpoint⟩

theorem untold_applyPaperFill (input : HedgedCycleInput) (tick : MarketTick)
    (r : PipelineResult) : Proc.Keeps HedgedWorld.Untold (svc.applyPaperFill input tick r) := by
  refine Proc.Keeps.get_bind fun h => ?_
  split
  · exact Proc.Keeps.pure _
  refine Proc.Keeps.bind (untold_onWorld _) fun out => ?_
  split
  · exact untold_onWorld _
  rename_i fill _
  refine Proc.Keeps.bind (Proc.Triple.modify fun h' hh => untold_noteFill hh _ _ fill _) fun _ => ?_
  refine Proc.Keeps.bind (untold_onWorld _) fun _ => ?_
  split
  · exact untold_openHedge _ _ _ _
  · exact Proc.Keeps.pure _

theorem untold_funded {h : HedgedWorld} (hh : h.Untold) (input : HedgedCycleInput) :
    (funded input h).Untold := by
  unfold funded
  dsimp only
  split
  · split <;> exact ⟨hh.states, hh.checkpoint⟩
  · exact hh

theorem untold_applyPerpFunding (input : HedgedCycleInput) :
    Proc.Keeps HedgedWorld.Untold (svc.applyPerpFunding input) := by
  refine Proc.Triple.modify fun h hh => ?_
  split
  · exact untold_funded hh input
  · exact hh

theorem untold_openCarryHedge (input : HedgedCycleInput) :
    Proc.Keeps HedgedWorld.Untold (svc.openCarryHedge input) := by
  refine Proc.Keeps.get_bind fun h => ?_
  split
  · exact Proc.Keeps.pure _
  · exact untold_openHedge _ _ _ _

/-- The checkpoint saves the breaker as it is. -/
theorem untold_checkpoint : Proc.Keeps HedgedWorld.Untold checkpoint := by
  refine Proc.Keeps.get_bind fun v => ?_
  split
  · exact Proc.Keeps.raise _
  · exact Proc.Triple.effect fun h hh => ⟨⟨hh.states, hh.states⟩, hh.states, hh.states⟩

theorem untold_cycle (input : HedgedCycleInput) :
    Proc.Keeps HedgedWorld.Untold (svc.cycle input) := by
  have hcount : Proc.Keeps HedgedWorld.Untold
      (Proc.modify fun h => { h with cycle := h.cycle + 1 } : HedgedStep PUnit) :=
    Proc.Triple.modify fun h hh => ⟨hh.states, hh.checkpoint⟩
  refine hcount.bind fun _ => (untold_decideAndSubmit input).bind fun ⟨tick, r⟩ => ?_
  refine (untold_applyPaperFill input tick r).bind fun _ => ?_
  refine (untold_applyPerpFunding input).bind fun _ => ?_
  refine (untold_openCarryHedge input).bind fun _ => (untold_onWorld _).bind fun _ => ?_
  refine (untold_onWorld _).bind fun _ => ?_
  split
  · exact Proc.Keeps.raise _
  · exact untold_checkpoint

theorem untold_reconcileNow (input : PassInput) :
    Proc.Keeps HedgedWorld.Untold (svc.reconcileNow input) :=
  keeps_reconcileNow (fun _ _ hh => ⟨hh.states, hh.checkpoint⟩) untold_checkpoint svc input

theorem untold_step {h : HedgedWorld} (hh : h.Untold) (e : Event) : (svc.step h e).Untold := by
  -- a restart reloads the breaker from the checkpoint
  have hrestart : ∀ h : HedgedWorld, h.Untold → (svc.restart h).Untold :=
    fun _ hh => ⟨hh.checkpoint, hh.checkpoint⟩
  cases e with
  | cycle input crash =>
    exact (untold_cycle input).after (fun _ _ hh => hh) (fun _ _ hh => hh) hrestart hrestart hh crash
  | reconcile input crash =>
    exact (untold_reconcileNow input).after (fun _ _ hh => hh) (fun _ _ hh => hh) hrestart hrestart
      hh crash

/-- **In no run does the breaker know of a strategy.** -/
theorem untold_run (svc : HedgedPaperService) (es : List Event) :
    (run svc.step svc.start es).Untold := by
  refine run_invariant (I := HedgedWorld.Untold) ?_ svc.start es ⟨svc.circuitBreaker_new, rfl⟩
  exact fun _ e hh => untold_step hh e

/-! ## What a verdict reports -/

/-- A verdict taken with a breaker that knows no strategy does not report it. -/
theorem not_reported {h : HedgedWorld} (hh : h.Untold) {input : HedgedCycleInput}
    {r : PipelineResult} {v : RiskResult}
    (hdecision : svc.decision (input.judged h) h.world.accounts.book = some r)
    (hproposal : r.proposal.isSome = true) (hresult : r.riskResult = some v) :
    "strategy_circuit_breaker" ∉ v.reasons := by
  unfold ContinuousPaperService.decision at hdecision
  split at hdecision
  · split at hdecision
    · cases hdecision
    rename_i portfolio i _ _ _
    cases hprocess : (svc.pipelineAt (input.judged h)).process i portfolio with
    | error e =>
      rw [hprocess] at hdecision
      cases hdecision
    | ok r' =>
      rw [hprocess] at hdecision
      cases hdecision
      rcases VerticalSlicePipeline.verdict_of_process hprocess with
        ⟨hnone, -⟩ | ⟨proposal, features, -, hverdict, -⟩
      · rw [hnone] at hproposal
        cases hproposal
      rw [hresult, Option.some.injEq] at hverdict
      rw [hverdict, RiskEngine.mem_reasons_iff]
      rintro ⟨-, hfired⟩
      have hasked : (h.circuitBreaker.isTripped proposal.strategyId i.now).1 = true :=
        (Bool.and_eq_true _ _ ▸ hfired).2
      rw [StrategyCircuitBreaker.isTripped_of_empty hh.states] at hasked
      cases hasked
  · cases hdecision

/-- The cycle decides on a proposal, no exit, of a strategy on a losing streak. -/
def Due (svc : HedgedPaperService) (input : HedgedCycleInput) (h : HedgedWorld)
    (r : PipelineResult) : Prop :=
  svc.decision (input.judged h) h.world.accounts.book = some r ∧
    ∃ proposal i, r.proposal = some proposal ∧ input.market = some i ∧
      isExitStrategyId proposal.strategyId = false ∧
      h.LosingStreak svc.circuitBreaker proposal.strategyId i.now

/-- A due rejection is made, and made for the breaker. -/
def TripsWhenDue (svc : HedgedPaperService) (input : HedgedCycleInput) (h : HedgedWorld) : Prop :=
  ∀ r, svc.Due input h r →
    ∃ v, r.riskResult = some v ∧ v.decision = .reject ∧ "strategy_circuit_breaker" ∈ v.reasons

/-- **The breaker never trips.** After every run, a cycle rejects what the breaker is
due to reject exactly when nothing is due. -/
theorem trips_when_due_iff (svc : HedgedPaperService) (es : List Event)
    (input : HedgedCycleInput) :
    svc.TripsWhenDue input (run svc.step svc.start es) ↔
      ∀ r, ¬svc.Due input (run svc.step svc.start es) r := by
  constructor
  · intro htrips r hdue
    obtain ⟨v, hresult, -, hreported⟩ := htrips r hdue
    obtain ⟨hdecision, proposal, -, hproposal, -⟩ := hdue
    have hsome : r.proposal.isSome = true := by
      rw [hproposal]
      rfl
    exact not_reported (untold_run svc es) hdecision hsome hresult hreported
  · intro hnone r hdue
    exact absurd hdue (hnone r)

end HedgedPaperService

/-! ### A losing strategy enters again -/

namespace Untold

/-- Paper fills at the mid, and a breaker that trips on one loss. -/
def service : HedgedPaperService :=
  { InFlight.service with
    submitter := none
    reconciler := none
    paperFillSimulator := some Oversold.sim
    submit := false
    perpHedge := false
    perpFeeBps := 0
    perpSlippageBps := 0
    promoteHarvestSignHold := false
    carryHedgeDiagnostic := false
    circuitBreaker := ⟨1, 10, 5 / 100, 3600, Dict.empty⟩
    perpFee_nonneg := zero_nonneg
    perpSlippage_nonneg := zero_nonneg
    circuitBreaker_new := rfl }

/-- A BTC cycle at a price. -/
def input (decisionId : String) (now : Time) (price : ℚ) (h : 0 < price) : HedgedCycleInput where
  symbol := "BTC/USD"
  market := some
    { tick := ⟨.kraken, "BTC/USD", now, price, price, price, h, h, h⟩
      references := [⟨.coingecko, "BTC", "USD", price, h⟩]
      candles := none
      intelligence := none
      now := now
      decisionId := decisionId }
  now := now
  killSwitch := none
  circuitBreaker := none
  reviewWithholds := false
  auditFails := false
  hedgeQuote := none
  fundingTape := none
  fundingQuote := none
  carryQuote := none
  carryTape := none

theorem ninety_pos : (0 : ℚ) < 90 := by norm_num

/-- An entry at 100 and, at 90, its stop-loss. -/
def loses : List HedgedPaperService.Event :=
  [.cycle (input "d1" 0 100 Oversold.hundred_pos) none, .cycle (input "d2" 60 90 ninety_pos) none]

/-- The next cycle, at 100 again. -/
def again : HedgedCycleInput := input "d3" 120 100 Oversold.hundred_pos

/-- The world after the loss. -/
def lost : HedgedWorld := run service.step service.start loses

end Untold

namespace HedgedPaperService

/-- The strategy has just lost its one close, and its next entry is proposed. -/
theorem not_trips_when_due :
    ∃ r, Untold.service.Due Untold.again Untold.lost r ∧
      ¬Untold.service.TripsWhenDue Untold.again Untold.lost := by
  have hproposed : ((Untold.service.decision (Untold.again.judged Untold.lost)
      Untold.lost.world.accounts.book).bind PipelineResult.proposal).map
        TradeProposal.strategyId = some "vertical-slice-v1" := by decide +kernel
  have hloss : (Untold.lost.closesOf "vertical-slice-v1").map
      (fun c => (decide (c.pnlUsd < 0), c.closedAt)) = [(true, 60)] := by decide +kernel
  obtain ⟨proposal, hbind, hstrategy⟩ := Option.map_eq_some_iff.mp hproposed
  obtain ⟨r, hdecision, hproposal⟩ := Option.bind_eq_some_iff.mp hbind
  obtain ⟨last, hcloses, hlast⟩ := List.map_eq_singleton_iff.mp hloss
  rw [Prod.mk.injEq, decide_eq_true_eq] at hlast
  have hdue : Untold.service.Due Untold.again Untold.lost r := by
    refine ⟨hdecision, proposal, _, hproposal, rfl, ?_, [], [last], last, ?_, ?_, ?_, rfl, ?_⟩
    · rw [hstrategy]
      decide
    · rw [hstrategy]
      exact hcloses
    · exact le_refl 1
    · intro c hc
      rw [List.mem_singleton.mp hc]
      exact hlast.1
    · rw [hlast.2]
      show (120 : ℚ) - 60 < 3600
      norm_num
  refine ⟨r, hdue, fun htrips => ?_⟩
  obtain ⟨v, hresult, -, hreported⟩ := htrips r hdue
  have hsome : r.proposal.isSome = true := by
    rw [hproposal]
    rfl
  exact not_reported (untold_run Untold.service Untold.loses) hdecision hsome hresult hreported

end HedgedPaperService

end TraderStack
