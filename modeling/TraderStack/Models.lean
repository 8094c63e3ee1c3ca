import Mathlib.Algebra.Order.Field.Rat
import Mathlib.Data.Finset.Insert
import Mathlib.Data.List.Sort
import Mathlib.Data.Rat.Floor
import Mathlib.Tactic.GCongr
import Mathlib.Tactic.Linarith
import Mathlib.Tactic.NormNum
import Mathlib.Tactic.Positivity
import TraderStack.Lib.Dict

/-!
# Domain models

The records the components exchange (models.py, and `PaperOrderIntent` of
pipeline.py). Amounts are exact rationals: the validators of the source refuse
non-finite numbers, and rounding of binary floats is not modelled. Timestamps
are UTC seconds, also rationals; a value read from the wall clock is an
argument of the function that reads it.

A validated record carries its validators as fields, so a record that the
source would refuse to construct cannot be built. Fields that no modelled
function reads (thesis texts, signal ids, correlation data) are left out.
-/

namespace TraderStack

/-- Seconds since the epoch, UTC. -/
abbrev Time := ℚ

/-- The UTC calendar day of a moment, as a day number. -/
def utcDate (t : Time) : ℤ := ⌊t / 86400⌋

/-- `int()` of a number: towards zero. -/
def truncate (t : ℚ) : ℤ := t.num.tdiv t.den

@[simp] theorem truncate_intCast (k : ℤ) : truncate (k : ℚ) = k := by
  unfold truncate
  rw [Rat.num_intCast, Rat.den_intCast, Nat.cast_one, Int.tdiv_one]

theorem truncate_of_nonneg {t : ℚ} (h : 0 ≤ t) : truncate t = ⌊t⌋ := by
  rw [truncate, Rat.floor_def', Int.tdiv_eq_ediv_of_nonneg (Rat.num_nonneg.mpr h)]

theorem truncate_neg (t : ℚ) : truncate (-t) = -truncate t := by
  rw [truncate, Rat.neg_num, Rat.neg_den, Int.neg_tdiv, truncate]

theorem truncate_nonneg {t : ℚ} (h : 0 ≤ t) : 0 ≤ truncate t := by
  rw [truncate_of_nonneg h]
  exact Int.floor_nonneg.mpr h

theorem truncate_mono {t t' : ℚ} (h : t ≤ t') : truncate t ≤ truncate t' := by
  rcases le_total 0 t with ht | ht
  · rw [truncate_of_nonneg ht, truncate_of_nonneg (ht.trans h)]
    exact Int.floor_mono h
  · have hneg : truncate t = -⌊-t⌋ := by
      rw [← truncate_of_nonneg (by linarith), truncate_neg, neg_neg]
    rcases le_total 0 t' with ht' | ht'
    · have hpos : 0 ≤ ⌊-t⌋ := Int.floor_nonneg.mpr (by linarith)
      have := truncate_nonneg ht'
      omega
    · have hneg' : truncate t' = -⌊-t'⌋ := by
        rw [← truncate_of_nonneg (by linarith), truncate_neg, neg_neg]
      have := Int.floor_mono (neg_le_neg h)
      omega

/-! ## Bounds of amounts -/

/-- What a passed `x <= 0` check leaves. -/
theorem pos_of_check {x : ℚ} (h : ¬x ≤ 0) : 0 < x := not_le.mp h

/-- Nothing bought, paid or earned yet. -/
theorem zero_nonneg : (0 : ℚ) ≤ 0 := le_rfl

/-- One unit, and a bar that stays at one. -/
theorem unit_pos : (0 : ℚ) < 1 := one_pos

theorem unit_nonneg : (0 : ℚ) ≤ 1 := zero_le_one

theorem unit_high : max (1 : ℚ) 1 ≤ 1 := (max_self 1).le

theorem unit_low : (1 : ℚ) ≤ min 1 1 := (min_self 1).ge

/-- The capital of a run. -/
theorem capital_pos : (0 : ℚ) < 10000 := by norm_num

/-- An amount that is not there is no bad amount. -/
theorem pos_of_mem_none : ∀ x ∈ (none : Option ℚ), 0 < x := nofun

/-! ## Records -/

inductive Side where
  | buy
  | sell
deriving DecidableEq, Repr

inductive RiskDecision where
  | allow
  | reduce
  | reject
deriving DecidableEq, Repr

/-- `MarketSource` (market/models.py:7–16). -/
inductive MarketSource where
  | kraken
  | coingecko
  | coinmarketcap
  | robinhoodChain
  | binance
  | bybit
deriving DecidableEq, Repr

/-- `Regime` (strategies.py:12–16). -/
inductive Regime where
  | trendingUp
  | trendingDown
  | range
  | highVolatility
deriving DecidableEq, Repr

/-- A proposed trade (models.py:19–30). -/
structure TradeProposal where
  decisionId : String
  strategyId : String
  asset : String
  side : Side
  confidence : ℚ
  requestedNotionalUsd : ℚ
  confidence_bounds : 0 ≤ confidence ∧ confidence ≤ 1
  requested_pos : 0 < requestedNotionalUsd
deriving DecidableEq

/-- One open position as exit rules and snapshot consumers see it
(models.py:33–46). -/
structure HeldPosition where
  quantity : ℚ
  averageCostUsd : ℚ
  exposureUsd : ℚ
  openedAt : Option Time
  highWaterPriceUsd : ℚ
  entryStrategyId : Option String
  quantity_nonneg : 0 ≤ quantity
  averageCost_nonneg : 0 ≤ averageCostUsd
  exposure_nonneg : 0 ≤ exposureUsd
  highWater_nonneg : 0 ≤ highWaterPriceUsd
deriving DecidableEq

/-- A view of the book at one moment (models.py:49–62). -/
structure PortfolioSnapshot where
  navUsd : ℚ
  cashUsd : ℚ
  dailyPnlUsd : ℚ
  peakNavUsd : ℚ
  assetExposureUsd : Lib.Dict String ℚ
  observedAt : Time
  heldPositions : Lib.Dict String HeldPosition
  nav_pos : 0 < navUsd
  cash_nonneg : 0 ≤ cashUsd
  peak_pos : 0 < peakNavUsd
deriving DecidableEq

/-- The risk engine's verdict (models.py:65–70). That the approved notional is
never negative is proved of the engine, not assumed of the record. -/
structure RiskResult where
  decisionId : String
  decision : RiskDecision
  approvedNotionalUsd : ℚ
  reasons : List String
deriving DecidableEq

/-- An approved order intent (pipeline.py, `PaperOrderIntent`). -/
structure PaperOrderIntent where
  decisionId : String
  asset : String
  side : Side
  notionalUsd : ℚ
  venue : String
  reduceOnly : Bool
  notional_pos : 0 < notionalUsd
deriving DecidableEq

end TraderStack
