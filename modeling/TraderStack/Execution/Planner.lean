import TraderStack.Lib.Text
import TraderStack.Models

/-!
# The execution planner (planner.py)

`ExecutionPlanner.plan` turns an approved intent and a price into one child
order, or rejects it. The planner is pure. Quantities are rounded down to the
venue's lot step, so a plan never exceeds what was approved, and a reduce-only
cap can only shrink it.

The keyed hash behind a client order id (blake2s) is a field of the planner,
`digest`; nothing here depends on what it computes.
-/

namespace TraderStack

open Lib

/-- Why an intent could not become a child order, with the numbers the message
quotes. -/
inductive PlanRejection where
  | nonPositiveExecutionPrice
  | nonPositiveReferencePrice
  | slippage (slippageBps maxSlippageBps : ℚ)
  | roundsToZero (lotStep : ℚ)
  | nothingHeld
  | capRoundsToZero (maxQuantity lotStep : ℚ)
  | clampedBelowMinimum (clamped notionalUsd minNotionalUsd : ℚ)
  | belowMinimum (notionalUsd minNotionalUsd : ℚ)
deriving DecidableEq

/-- The rejections raised as `ExitSizingRejected` (planner.py:38–44). -/
def PlanRejection.exitSizing : PlanRejection → Bool
  | .nothingHeld | .capRoundsToZero .. | .clampedBelowMinimum .. => true
  | _ => false

/-- A single venue child order (planner.py:47–62). -/
@[ext]
structure ExecutionPlan where
  decisionId : String
  clientOrderId : String
  asset : String
  side : Side
  venue : String
  tradingPair : String
  quantity : ℚ
  executionPriceUsd : ℚ
  referencePriceUsd : ℚ
  notionalUsd : ℚ
  requestedNotionalUsd : ℚ
  slippageBps : ℚ
  quantity_pos : 0 < quantity
  executionPrice_pos : 0 < executionPriceUsd
  referencePrice_pos : 0 < referencePriceUsd
  notional_pos : 0 < notionalUsd
  requestedNotional_pos : 0 < requestedNotionalUsd
  slippage_nonneg : 0 ≤ slippageBps

/-- Plans compare field by field. -/
instance : DecidableEq ExecutionPlan := fun _ _ => decidable_of_iff' _ ExecutionPlan.ext_iff

/-- `ExecutionPlanner` (planner.py:89–124); the bounds are those
`__post_init__` checks. -/
structure ExecutionPlanner where
  lotStep : ℚ
  minNotionalUsd : ℚ
  maxSlippageBps : ℚ
  quoteCurrency : String
  clientOrderIdPrefix : String
  digest : String → String
  lotStep_pos : 0 < lotStep
  minNotional_pos : 0 < minNotionalUsd
  maxSlippage_nonneg : 0 ≤ maxSlippageBps

namespace ExecutionPlanner

/-- `client_order_id_for` (planner.py:65–76). -/
def clientOrderIdFor (p : ExecutionPlanner) (decisionId : String) : String :=
  p.clientOrderIdPrefix ++ "-" ++ p.digest decisionId

/-- `_round_to_lot` (planner.py:190–196) of a non-negative quantity: the largest
multiple of the lot step not above it. -/
def roundToLot (p : ExecutionPlanner) (quantity : ℚ) : ℚ :=
  ⌊quantity / p.lotStep⌋ * p.lotStep

/-- The reduce-only clamp (planner.py:150–158): a cap shrinks the quantity and
never grows it. -/
def clamp (p : ExecutionPlanner) (quantity : {q : ℚ // 0 < q}) :
    Option ℚ → Except PlanRejection {q : ℚ // 0 < q}
  | none => .ok quantity
  | some maxQuantity =>
    if maxQuantity ≤ 0 then .error .nothingHeld
    else if h : min quantity.1 (p.roundToLot maxQuantity) ≤ 0 then
      .error (.capRoundsToZero maxQuantity p.lotStep)
    else .ok ⟨min quantity.1 (p.roundToLot maxQuantity), pos_of_check h⟩

/-- `plan` (planner.py:117–188). -/
def plan (p : ExecutionPlanner) (intent : PaperOrderIntent)
    (executionPriceUsd referencePriceUsd : ℚ) (maxQuantity : Option ℚ) :
    Except PlanRejection ExecutionPlan :=
  if he : executionPriceUsd ≤ 0 then .error .nonPositiveExecutionPrice
  else if hr : referencePriceUsd ≤ 0 then .error .nonPositiveReferencePrice
  else
    let slippageBps := |executionPriceUsd - referencePriceUsd| / referencePriceUsd * 10000
    if p.maxSlippageBps < slippageBps then .error (.slippage slippageBps p.maxSlippageBps)
    else if hq : p.roundToLot (intent.notionalUsd / executionPriceUsd) ≤ 0 then
      .error (.roundsToZero p.lotStep)
    else
      let quantity := p.roundToLot (intent.notionalUsd / executionPriceUsd)
      match p.clamp ⟨quantity, pos_of_check hq⟩ maxQuantity with
      | .error reason => .error reason
      | .ok clamped =>
        let notional := clamped.1 * executionPriceUsd
        if notional < p.minNotionalUsd then
          if clamped.1 < quantity then
            .error (.clampedBelowMinimum clamped.1 notional p.minNotionalUsd)
          else .error (.belowMinimum notional p.minNotionalUsd)
        else
          .ok
            { decisionId := intent.decisionId
              clientOrderId := p.clientOrderIdFor intent.decisionId
              asset := Text.upper intent.asset
              side := intent.side
              venue := intent.venue
              tradingPair := Text.upper intent.asset ++ "-" ++ p.quoteCurrency
              quantity := clamped.1
              executionPriceUsd := executionPriceUsd
              referencePriceUsd := referencePriceUsd
              notionalUsd := notional
              requestedNotionalUsd := intent.notionalUsd
              slippageBps := slippageBps
              quantity_pos := clamped.2
              executionPrice_pos := pos_of_check he
              referencePrice_pos := pos_of_check hr
              notional_pos := mul_pos clamped.2 (pos_of_check he)
              requestedNotional_pos := intent.notional_pos
              slippage_nonneg := by
                have hr' := not_le.mp hr
                positivity }

variable {p : ExecutionPlanner} {intent : PaperOrderIntent} {price reference : ℚ}
  {maxQuantity : Option ℚ} {out : ExecutionPlan}

theorem roundToLot_le (p : ExecutionPlanner) (q : ℚ) : p.roundToLot q ≤ q := by
  unfold roundToLot
  have h := Int.floor_le (q / p.lotStep)
  exact (le_div_iff₀ p.lotStep_pos).mp h

/-- A multiple of the lot step stays under the rounding of what it is under. -/
theorem le_roundToLot_iff {k : ℤ} {q : ℚ} :
    k * p.lotStep ≤ p.roundToLot q ↔ k * p.lotStep ≤ q := by
  unfold roundToLot
  rw [mul_le_mul_iff_left₀ p.lotStep_pos, Int.cast_le, Int.le_floor, le_div_iff₀ p.lotStep_pos]

theorem clamp_eq {q c : {q : ℚ // 0 < q}} (h : p.clamp q maxQuantity = .ok c) :
    c.1 = maxQuantity.elim q.1 fun m => min q.1 (p.roundToLot m) := by
  cases maxQuantity with
  | none =>
    cases h
    rfl
  | some m =>
    simp only [clamp] at h
    split at h
    · cases h
    split at h
    · cases h
    · cases h
      rfl

theorem clamp_le {q c : {q : ℚ // 0 < q}} (h : p.clamp q maxQuantity = .ok c) :
    c.1 ≤ q.1 ∧ ∀ m, maxQuantity = some m → c.1 ≤ m := by
  cases maxQuantity with
  | none =>
    cases h
    exact ⟨le_rfl, nofun⟩
  | some m =>
    simp only [clamp] at h
    split at h
    · cases h
    split at h
    · cases h
    · cases h
      refine ⟨min_le_left _ _, ?_⟩
      rintro _ ⟨⟩
      exact (min_le_right _ _).trans (p.roundToLot_le m)

/-- **What a plan commits to**: the decision's identity, asset and side, and a
quantity within the approved notional and the cap. -/
structure Planned (p : ExecutionPlanner) (intent : PaperOrderIntent) (price : ℚ)
    (maxQuantity : Option ℚ) (out : ExecutionPlan) : Prop where
  decisionId : out.decisionId = intent.decisionId
  clientOrderId : out.clientOrderId = p.clientOrderIdFor intent.decisionId
  asset : out.asset = Text.upper intent.asset
  side : out.side = intent.side
  venue : out.venue = intent.venue
  price_eq : out.executionPriceUsd = price
  notional_le : out.quantity * price ≤ intent.notionalUsd
  le_cap : ∀ m, maxQuantity = some m → out.quantity ≤ m

theorem planned_of_ok (h : p.plan intent price reference maxQuantity = .ok out) :
    Planned p intent price maxQuantity out := by
  unfold plan at h
  split at h
  · cases h
  rename_i he
  split at h
  · cases h
  dsimp only at h
  split at h
  · cases h
  split at h
  · cases h
  rename_i hq
  split at h
  · cases h
  rename_i clamped hclamp
  split at h
  · split at h <;> cases h
  obtain ⟨hle, hcap⟩ := clamp_le hclamp
  cases h
  refine ⟨rfl, rfl, rfl, rfl, rfl, rfl, ?_, hcap⟩
  have hprice := not_le.mp he
  calc clamped.1 * price
      ≤ p.roundToLot (intent.notionalUsd / price) * price :=
        mul_le_mul_of_nonneg_right hle hprice.le
    _ ≤ intent.notionalUsd / price * price :=
        mul_le_mul_of_nonneg_right (p.roundToLot_le _) hprice.le
    _ = intent.notionalUsd := div_mul_cancel₀ _ hprice.ne'

/-- **How much a plan is for**: what the approved notional buys at the price,
rounded down, and at most the cap. -/
theorem quantity_of_plan (h : p.plan intent price reference maxQuantity = .ok out) :
    out.quantity = maxQuantity.elim (p.roundToLot (intent.notionalUsd / price)) fun m =>
      min (p.roundToLot (intent.notionalUsd / price)) (p.roundToLot m) := by
  unfold plan at h
  split at h
  · cases h
  split at h
  · cases h
  dsimp only at h
  split at h
  · cases h
  split at h
  · cases h
  split at h
  · cases h
  rename_i clamped hclamp
  split at h
  · split at h <;> cases h
  · cases h
    exact clamp_eq hclamp

/-- Exactly which intents become an order, without a cap. -/
theorem plan_ok_iff :
    (∃ out, p.plan intent price reference none = .ok out) ↔
      0 < price ∧ 0 < reference ∧
        |price - reference| / reference * 10000 ≤ p.maxSlippageBps ∧
        0 < p.roundToLot (intent.notionalUsd / price) ∧
        p.minNotionalUsd ≤ p.roundToLot (intent.notionalUsd / price) * price := by
  constructor
  · rintro ⟨out, h⟩
    unfold plan at h
    split at h
    · cases h
    rename_i hprice
    split at h
    · cases h
    rename_i hreference
    dsimp only at h
    split at h
    · cases h
    rename_i hslippage
    split at h
    · cases h
    rename_i hquantity
    rw [clamp] at h
    dsimp only at h
    split at h
    · split at h <;> cases h
    · exact ⟨not_le.mp hprice, not_le.mp hreference, not_lt.mp hslippage, not_le.mp hquantity,
        not_lt.mp ‹_›⟩
  · rintro ⟨hprice, hreference, hslippage, hquantity, hminimum⟩
    unfold plan
    rw [dif_neg (not_le.mpr hprice), dif_neg (not_le.mpr hreference)]
    dsimp only
    rw [if_neg (not_lt.mpr hslippage), dif_neg (not_le.mpr hquantity), clamp]
    dsimp only
    rw [if_neg (not_lt.mpr hminimum)]
    exact ⟨_, rfl⟩

end ExecutionPlanner

end TraderStack
