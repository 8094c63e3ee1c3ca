import TraderStack.Execution.Ledger
import TraderStack.Lib.Machine
import TraderStack.Risk.Limits

/-!
# What the strategy circuit breaker records (circuit_breaker.py)

The breaker is told of realised outcomes. Each one moves its strategy's streak of
losses and its window of closed trades, and either may trip the strategy.

- `stateFor_record`: a strategy's state follows from its own trades;
- `tripped_of_losses`: after `max_consecutive_losses` losses in a row it is tripped;
- `rejects_of_losses`: and until the cool-down has elapsed a running risk engine
  rejects what the strategy proposes, exits apart.
-/

namespace TraderStack

open Lib

/-- The `ValueError`s of the recording methods. -/
inductive BreakerError where
  | navNotPositive
  | quantityNotPositive
  | pricesNotPositive
  | feeNegative
  | entryPriceNotPositive
deriving DecidableEq

/-- Their texts. -/
def BreakerError.text : BreakerError → String
  | .navNotPositive => "nav_usd must be positive to normalise a closed trade"
  | .quantityNotPositive => "quantity must be positive"
  | .pricesNotPositive => "prices must be positive"
  | .feeNegative => "fee_usd must be non-negative"
  | .entryPriceNotPositive => "entry_price_usd must be positive"

/-- `pnl_fraction`. -/
def ClosedTrade.pnlFraction (t : ClosedTrade) : ℚ := t.pnlUsd / t.navUsd

/-- The cumulative PnL, its peak and the deepest fall from it. -/
structure DrawdownCurve where
  cumulative : ℚ
  peak : ℚ
  worst : ℚ

/-- One trade on the curve. -/
def DrawdownCurve.next (c : DrawdownCurve) (t : ClosedTrade) : DrawdownCurve :=
  let cumulative := c.cumulative + t.pnlFraction
  let peak := max c.peak cumulative
  ⟨cumulative, peak, max c.worst (peak - cumulative)⟩

/-- `rolling_drawdown` (circuit_breaker.py:81–94). -/
def rollingDrawdown (trades : List ClosedTrade) : ℚ :=
  (trades.foldl DrawdownCurve.next ⟨0, 0, 0⟩).worst

/-- `StrategyBreakerState()`. -/
def StrategyBreakerState.new : StrategyBreakerState where
  consecutiveLosses := 0
  closedTrades := []
  trippedAt := none
  tripReason := none

namespace StrategyCircuitBreaker

variable (b : StrategyCircuitBreaker) (strategyId : String)

/-- `state_for`: the state of a strategy, a new one for a strategy never seen. -/
def stateFor : StrategyBreakerState := (b.states.get? strategyId).getD .new

/-- The last trades of the window; `del closed_trades[:-0]` deletes nothing. -/
def windowed (trades : List ClosedTrade) : List ClosedTrade :=
  if b.drawdownWindow < trades.length ∧ 0 < b.drawdownWindow then
    trades.drop (trades.length - b.drawdownWindow)
  else trades

/-- A strategy's state after one more trade (circuit_breaker.py:141–160). -/
def observed (state : StrategyBreakerState) (t : ClosedTrade) : StrategyBreakerState :=
  let trades := b.windowed (state.closedTrades ++ [t])
  let losses := if t.pnlUsd < 0 then state.consecutiveLosses + 1 else 0
  let state := { state with closedTrades := trades, consecutiveLosses := losses }
  if state.trippedAt.isSome then state
  else if b.maxConsecutiveLosses ≤ losses then
    { state with trippedAt := some t.closedAt, tripReason := some "consecutive_losses" }
  else if b.maxRollingDrawdownPct ≤ rollingDrawdown trades then
    { state with trippedAt := some t.closedAt, tripReason := some "rolling_drawdown" }
  else state

/-- Tell the breaker of a trade. -/
def record (t : ClosedTrade) : StrategyCircuitBreaker :=
  { b with states := b.states.set strategyId (b.observed (b.stateFor strategyId) t) }

/-- `record_closed_trade` (circuit_breaker.py:129–160). -/
def recordClosedTrade (pnlUsd navUsd : ℚ) (now : Time) :
    Except BreakerError StrategyCircuitBreaker :=
  if h : navUsd ≤ 0 then .error .navNotPositive
  else .ok (b.record strategyId ⟨pnlUsd, navUsd, now, pos_of_check h⟩)

/-- `record_reducing_fill` (circuit_breaker.py:162–187). -/
def recordReducingFill (quantity exitPriceUsd entryPriceUsd navUsd feeUsd : ℚ) (now : Time) :
    Except BreakerError StrategyCircuitBreaker :=
  if quantity ≤ 0 then .error .quantityNotPositive
  else if exitPriceUsd ≤ 0 ∨ entryPriceUsd ≤ 0 then .error .pricesNotPositive
  else if feeUsd < 0 then .error .feeNegative
  else
    b.recordClosedTrade strategyId (quantity * (exitPriceUsd - entryPriceUsd) - feeUsd) navUsd now

/-- `record_ledger_close` (circuit_breaker.py:189–217): only a SELL that filled says
anything. -/
def recordLedgerClose (o : ExecutionOrder) (entryPriceUsd navUsd : ℚ) (now : Option Time) :
    Except BreakerError StrategyCircuitBreaker :=
  match o.averageFillPriceUsd with
  | some price =>
    if o.side = .sell ∧ (o.state = .filled ∨ o.state = .partiallyFilled) ∧ 0 < o.filledQuantity then
      if entryPriceUsd ≤ 0 then .error .entryPriceNotPositive
      else
        b.recordClosedTrade strategyId ((price - entryPriceUsd) * o.filledQuantity - o.feesPaidUsd)
          navUsd (now.getD o.lastUpdatedAt)
    else .ok b
  | none => .ok b

/-! ## A streak of losses -/

variable {b : StrategyCircuitBreaker} {strategyId : String}

@[simp] theorem stateFor_record_self (t : ClosedTrade) :
    (b.record strategyId t).stateFor strategyId = b.observed (b.stateFor strategyId) t := by
  rw [record, stateFor, Dict.get?_set_self, Option.getD_some]

theorem stateFor_record_of_ne {other : String} (h : strategyId ≠ other) (t : ClosedTrade) :
    (b.record other t).stateFor strategyId = b.stateFor strategyId := by
  rw [record, stateFor, Dict.get?_set_of_ne _ h, stateFor]

/-- Tell the breaker of the outcomes of several strategies, in order. -/
def recordAll (b : StrategyCircuitBreaker) (outcomes : List (String × ClosedTrade)) :
    StrategyCircuitBreaker :=
  run (fun b o => b.record o.1 o.2) b outcomes

theorem cooldownSeconds_recordAll (outcomes : List (String × ClosedTrade)) :
    (b.recordAll outcomes).cooldownSeconds = b.cooldownSeconds := by
  unfold recordAll
  refine run_invariant (I := fun b' => b'.cooldownSeconds = b.cooldownSeconds) ?_ b outcomes rfl
  exact fun _ _ h => h

/-- The trades of one strategy. -/
def tradesOf (strategyId : String) (outcomes : List (String × ClosedTrade)) : List ClosedTrade :=
  (outcomes.filter fun o => o.1 = strategyId).map Prod.snd

/-- **A strategy's state follows from its own trades.** -/
theorem stateFor_recordAll (outcomes : List (String × ClosedTrade)) :
    (b.recordAll outcomes).stateFor strategyId
      = (tradesOf strategyId outcomes).foldl b.observed (b.stateFor strategyId) := by
  induction outcomes generalizing b with
  | nil => rfl
  | cons o outcomes ih =>
    have hrest : (b.recordAll (o :: outcomes)).stateFor strategyId
        = (tradesOf strategyId outcomes).foldl b.observed
          ((b.record o.1 o.2).stateFor strategyId) := ih
    rw [hrest]
    by_cases h : o.1 = strategyId
    · subst h
      simp [tradesOf]
    · rw [stateFor_record_of_ne (Ne.symm h)]
      simp [tradesOf, h]

theorem consecutiveLosses_observed (state : StrategyBreakerState) (t : ClosedTrade) :
    (b.observed state t).consecutiveLosses
      = if t.pnlUsd < 0 then state.consecutiveLosses + 1 else 0 := by
  unfold observed
  generalize (if t.pnlUsd < 0 then state.consecutiveLosses + 1 else 0) = losses
  dsimp only
  split
  · rfl
  · split
    · rfl
    · split <;> rfl

/-- A streak as long as the limit has tripped the strategy. -/
theorem tripped_of_streak {state : StrategyBreakerState} {t : ClosedTrade}
    (h : b.maxConsecutiveLosses ≤ (b.observed state t).consecutiveLosses) :
    (b.observed state t).trippedAt.isSome = true := by
  rw [consecutiveLosses_observed] at h
  unfold observed
  dsimp only
  by_cases htripped : state.trippedAt.isSome = true
  · rw [if_pos htripped]
    exact htripped
  · rw [if_neg htripped, if_pos h]
    rfl

theorem consecutiveLosses_of_losses {trades : List ClosedTrade} (h : ∀ t ∈ trades, t.pnlUsd < 0)
    (state : StrategyBreakerState) :
    (trades.foldl b.observed state).consecutiveLosses
      = state.consecutiveLosses + trades.length := by
  induction trades generalizing state with
  | nil => rfl
  | cons t trades ih =>
    rw [List.forall_mem_cons] at h
    rw [List.foldl_cons, ih h.2, consecutiveLosses_observed, if_pos h.1, List.length_cons]
    omega

/-- **Losses in a row trip a strategy**, as many as the limit, whatever came before. -/
theorem tripped_of_losses {outcomes : List (String × ClosedTrade)}
    {earlier losses : List ClosedTrade} (hlimit : 0 < b.maxConsecutiveLosses)
    (htrades : tradesOf strategyId outcomes = earlier ++ losses)
    (hcount : b.maxConsecutiveLosses ≤ losses.length) (hlosses : ∀ t ∈ losses, t.pnlUsd < 0) :
    ((b.recordAll outcomes).stateFor strategyId).trippedAt.isSome = true := by
  rw [stateFor_recordAll, htrades, List.foldl_append]
  rcases List.eq_nil_or_concat losses with rfl | ⟨before, last, rfl⟩
  · rw [List.length_nil] at hcount
    omega
  rw [List.concat_eq_append] at hcount hlosses ⊢
  rw [List.foldl_append]
  -- the last loss finds the streak one short of its length
  refine tripped_of_streak ?_
  have hbefore : ∀ t ∈ before, t.pnlUsd < 0 := fun t ht => hlosses t (List.mem_append_left _ ht)
  have hlast : last.pnlUsd < 0 := hlosses last (by simp)
  rw [consecutiveLosses_observed, if_pos hlast, consecutiveLosses_of_losses hbefore]
  rw [List.length_append, List.length_singleton] at hcount
  omega

/-- `is_tripped`, as a condition on the state. -/
theorem isTripped_iff {now : Time} :
    (b.isTripped strategyId now).1 = true ↔
      ∃ t, (b.stateFor strategyId).trippedAt = some t ∧ now - t < b.cooldownSeconds := by
  unfold isTripped stateFor
  cases b.states.get? strategyId with
  | none => simp [StrategyBreakerState.new]
  | some state =>
    cases htripped : state.trippedAt with
    | none => simp [htripped]
    | some t =>
      dsimp only
      rw [htripped]
      dsimp only
      split
      · rename_i helapsed
        simp [htripped, not_lt.mpr helapsed]
      · rename_i hwithin
        simp [htripped, not_le.mp hwithin]

end StrategyCircuitBreaker

/-! ## The verdict -/

namespace RiskEngine

variable {e : RiskEngine} {proposal : TradeProposal} {portfolio : PortfolioSnapshot}
  {features : Option AssetFeatureVector} {now : Time}

/-- The reasons of the gates, in order. -/
theorem reasons_gates :
    (e.gates proposal portfolio features now).map (·.reason) =
      ["stale_portfolio_state", "daily_loss_limit_reached", "account_drawdown_limit_reached",
        "gross_exposure_limit", "cash_reserve_breached", "max_positions_reached",
        "strategy_circuit_breaker", "asset_not_allowlisted", "spread_too_wide",
        "position_limit_reached"] := rfl

theorem breakerGate_mem : e.breakerGate proposal now ∈ e.gates proposal portfolio features now := by
  simp [gates]

theorem mem_gateReasons_iff :
    "strategy_circuit_breaker" ∈ e.gateReasons proposal portfolio features now ↔
      (e.breakerGate proposal now).fired = true := by
  unfold gateReasons
  rw [List.mem_map]
  constructor
  · rintro ⟨g, hg, hreason⟩
    obtain ⟨hmem, hfired⟩ := List.mem_filter.mp hg
    -- no two gates share a reason
    have hnodup : ((e.gates proposal portfolio features now).map (·.reason)).Nodup := by
      rw [reasons_gates]
      decide
    have hsame : g = e.breakerGate proposal now :=
      List.inj_on_of_nodup_map hnodup hmem breakerGate_mem hreason
    exact hsame ▸ hfired
  · intro hfired
    exact ⟨e.breakerGate proposal now, List.mem_filter.mpr ⟨breakerGate_mem, hfired⟩, rfl⟩

/-- The engine reports the breaker exactly when it runs and the breaker's gate fires. -/
theorem mem_reasons_iff :
    "strategy_circuit_breaker" ∈ (e.evaluate proposal portfolio features now).reasons ↔
      e.halted = false ∧ (e.breakerGate proposal now).fired = true := by
  unfold evaluate
  dsimp only
  cases hhalted : e.halted with
  | true =>
    rw [if_pos rfl]
    simp
  | false =>
    -- what sizing reports is another reason
    have hother : ∀ (c : Prop) [Decidable c] (reason : String),
        reason ≠ "strategy_circuit_breaker" →
          "strategy_circuit_breaker" ∉ if c then [reason] else [] := by
      intro c _ reason hne
      split
      · rw [List.mem_singleton]
        exact hne.symm
      · exact List.not_mem_nil
    have hgates : "strategy_circuit_breaker" ∈ e.gateReasons proposal portfolio features now ↔
        (e.breakerGate proposal now).fired = true := mem_gateReasons_iff
    rw [if_neg Bool.false_ne_true, ← hgates]
    split
    · split <;> simp [hother]
    · split
      · simp
      · simp [hother]

/-- **A tripped strategy is rejected** by a running engine, exits apart. -/
theorem rejects_of_tripped {b : StrategyCircuitBreaker} (hrunning : e.halted = false)
    (hbreaker : e.circuitBreaker = some b) (hexit : isExitStrategyId proposal.strategyId = false)
    (htripped : (b.isTripped proposal.strategyId now).1 = true) :
    (e.evaluate proposal portfolio features now).decision = .reject ∧
      "strategy_circuit_breaker" ∈ (e.evaluate proposal portfolio features now).reasons := by
  have hfired : (e.breakerGate proposal now).fired = true := by
    simp [breakerGate, hbreaker, hexit, htripped]
  refine ⟨?_, mem_reasons_iff.mpr ⟨hrunning, hfired⟩⟩
  have hblocked : e.blocked proposal portfolio features now = true :=
    blocked_eq_true_iff.mpr ⟨e.breakerGate proposal now, breakerGate_mem, hfired, rfl⟩
  unfold evaluate
  rw [hrunning, if_neg Bool.false_ne_true]
  dsimp only
  rw [if_pos hblocked, if_pos hblocked]
  split <;> rfl

/-- **The breaker and the engine agree**: told of as many losses in a row as the
limit, the breaker makes a running engine reject what the strategy proposes, exits
apart, until the cool-down has elapsed. -/
theorem rejects_of_losses {b : StrategyCircuitBreaker} {outcomes : List (String × ClosedTrade)}
    {earlier losses : List ClosedTrade} (hlimit : 0 < b.maxConsecutiveLosses)
    (htrades : StrategyCircuitBreaker.tradesOf proposal.strategyId outcomes = earlier ++ losses)
    (hcount : b.maxConsecutiveLosses ≤ losses.length) (hlosses : ∀ t ∈ losses, t.pnlUsd < 0)
    (hrunning : e.halted = false) (hbreaker : e.circuitBreaker = some (b.recordAll outcomes))
    (hexit : isExitStrategyId proposal.strategyId = false) :
    ∃ trippedAt, ((b.recordAll outcomes).stateFor proposal.strategyId).trippedAt = some trippedAt ∧
      (now - trippedAt < b.cooldownSeconds →
        (e.evaluate proposal portfolio features now).decision = .reject ∧
          "strategy_circuit_breaker" ∈ (e.evaluate proposal portfolio features now).reasons) := by
  have htripped := StrategyCircuitBreaker.tripped_of_losses hlimit htrades hcount hlosses
  obtain ⟨trippedAt, htrippedAt⟩ := Option.isSome_iff_exists.mp htripped
  refine ⟨trippedAt, htrippedAt, fun hwithin => ?_⟩
  refine rejects_of_tripped hrunning hbreaker hexit
    (StrategyCircuitBreaker.isTripped_iff.mpr ⟨trippedAt, htrippedAt, ?_⟩)
  rw [StrategyCircuitBreaker.cooldownSeconds_recordAll]
  exact hwithin

end RiskEngine

end TraderStack
