import TraderStack.Execution.Planner

/-!
# What the planner sizes, accepts and refuses

`plan` checks two prices and their deviation, rounds down, clamps, and checks the
minimum. The quantity it comes to is given by two roundings alone, and the outcome by
that quantity; one analysis of the branches, `plan_outcome`, says both.

- `roundToLot_isGreatest`: rounding down finds the largest lot multiple;
- `plan_characterised`: success, size, kind of refusal and the effect of a larger cap.
-/

namespace TraderStack

open Lib

namespace ExecutionPlanner

/-- The lot multiples not above a quantity. -/
def lotsUpTo (p : ExecutionPlanner) (quantity : ℚ) : Set ℚ :=
  {x | (∃ k : ℤ, x = k * p.lotStep) ∧ x ≤ quantity}

/-- **Rounding down** finds the largest of them. -/
theorem roundToLot_isGreatest (p : ExecutionPlanner) (quantity : ℚ) :
    IsGreatest (p.lotsUpTo quantity) (p.roundToLot quantity) := by
  refine ⟨⟨⟨_, rfl⟩, p.roundToLot_le quantity⟩, ?_⟩
  rintro x ⟨⟨k, rfl⟩, hk⟩
  exact le_roundToLot_iff.mpr hk

theorem roundToLot_mono (p : ExecutionPlanner) {q q' : ℚ} (h : q ≤ q') :
    p.roundToLot q ≤ p.roundToLot q' :=
  (p.roundToLot_isGreatest q').2 ⟨⟨_, rfl⟩, (p.roundToLot_le q).trans h⟩

/-- What the approved notional buys at the price, in lots. -/
abbrev uncapped (p : ExecutionPlanner) (intent : PaperOrderIntent) (price : ℚ) : ℚ :=
  p.roundToLot (intent.notionalUsd / price)

/-- The same, clamped. -/
def sized (p : ExecutionPlanner) (intent : PaperOrderIntent) (price : ℚ) (maxQuantity : Option ℚ) :
    ℚ :=
  maxQuantity.elim (p.uncapped intent price) fun m =>
    min (p.uncapped intent price) (p.roundToLot m)

/-- Both prices are positive, and they deviate within the bound. -/
def Priced (p : ExecutionPlanner) (price reference : ℚ) : Prop :=
  0 < price ∧ 0 < reference ∧ |price - reference| / reference * 10000 ≤ p.maxSlippageBps

variable {p : ExecutionPlanner} {intent : PaperOrderIntent} {price reference : ℚ}
  {maxQuantity : Option ℚ} {out : ExecutionPlan}

theorem sized_le (p : ExecutionPlanner) (intent : PaperOrderIntent) (price : ℚ)
    (maxQuantity : Option ℚ) : p.sized intent price maxQuantity ≤ p.uncapped intent price := by
  cases maxQuantity with
  | none => exact le_refl _
  | some m => exact min_le_left _ _

/-- The clamp comes to the clamped size, or refuses one that is not positive. -/
theorem clamp_outcome (h : 0 < p.uncapped intent price) (maxQuantity : Option ℚ) :
    (∃ hpos, p.clamp ⟨p.uncapped intent price, h⟩ maxQuantity
        = .ok ⟨p.sized intent price maxQuantity, hpos⟩) ∨
      p.sized intent price maxQuantity ≤ 0 ∧
        ∃ reason, p.clamp ⟨p.uncapped intent price, h⟩ maxQuantity = .error reason ∧
          reason.exitSizing = true := by
  cases maxQuantity with
  | none => exact .inl ⟨h, rfl⟩
  | some m =>
    unfold clamp
    dsimp only
    by_cases hm : m ≤ 0
    · rw [if_pos hm]
      exact .inr ⟨(min_le_right _ _).trans ((p.roundToLot_le m).trans hm), _, rfl, rfl⟩
    rw [if_neg hm]
    by_cases hclamped : min (p.uncapped intent price) (p.roundToLot m) ≤ 0
    · rw [dif_pos hclamped]
      exact .inr ⟨hclamped, _, rfl, rfl⟩
    · rw [dif_neg hclamped]
      exact .inl ⟨not_le.mp hclamped, rfl⟩

/-- What `plan` can come to: a check before the clamp fails, and the refusal is no
exit sizing; or a plan of the clamped size is returned; or the clamped size is
refused, as exit sizing exactly when the cap made it smaller. -/
inductive Outcome (p : ExecutionPlanner) (intent : PaperOrderIntent) (price reference : ℚ)
    (maxQuantity : Option ℚ) : Except PlanRejection ExecutionPlan → Prop where
  | unchecked (reason : PlanRejection)
      (hchecks : ¬(p.Priced price reference ∧ 0 < p.uncapped intent price))
      (hreason : reason.exitSizing = false) :
      Outcome p intent price reference maxQuantity (.error reason)
  | planned (out : ExecutionPlan) (hpriced : p.Priced price reference)
      (hpos : 0 < p.sized intent price maxQuantity)
      (hminimum : p.minNotionalUsd ≤ p.sized intent price maxQuantity * price)
      (hquantity : out.quantity = p.sized intent price maxQuantity) :
      Outcome p intent price reference maxQuantity (.ok out)
  | refused (reason : PlanRejection) (hpriced : p.Priced price reference)
      (huncapped : 0 < p.uncapped intent price)
      (hsized : ¬(0 < p.sized intent price maxQuantity ∧
        p.minNotionalUsd ≤ p.sized intent price maxQuantity * price))
      (hreason : reason.exitSizing = true ↔
        p.sized intent price maxQuantity < p.uncapped intent price) :
      Outcome p intent price reference maxQuantity (.error reason)

/-- **The branches of `plan`**, one after the other. -/
theorem plan_outcome (p : ExecutionPlanner) (intent : PaperOrderIntent) (price reference : ℚ)
    (maxQuantity : Option ℚ) :
    Outcome p intent price reference maxQuantity (p.plan intent price reference maxQuantity) := by
  unfold plan
  by_cases hprice : price ≤ 0
  · rw [dif_pos hprice]
    exact .unchecked _ (fun h => absurd h.1.1 (not_lt.mpr hprice)) rfl
  rw [dif_neg hprice]
  by_cases hreference : reference ≤ 0
  · rw [dif_pos hreference]
    exact .unchecked _ (fun h => absurd h.1.2.1 (not_lt.mpr hreference)) rfl
  rw [dif_neg hreference]
  dsimp only
  by_cases hslippage : p.maxSlippageBps < |price - reference| / reference * 10000
  · rw [if_pos hslippage]
    exact .unchecked _ (fun h => absurd h.1.2.2 (not_le.mpr hslippage)) rfl
  rw [if_neg hslippage]
  have hpriced : p.Priced price reference :=
    ⟨not_le.mp hprice, not_le.mp hreference, not_lt.mp hslippage⟩
  by_cases huncapped : p.uncapped intent price ≤ 0
  · rw [dif_pos huncapped]
    exact .unchecked _ (fun h => absurd h.2 (not_lt.mpr huncapped)) rfl
  rw [dif_neg huncapped]
  have hpos := not_le.mp huncapped
  rcases clamp_outcome hpos maxQuantity with ⟨hclamped, hclamp⟩ | ⟨hclamped, reason, hclamp, hexit⟩
  · rw [hclamp]
    dsimp only
    by_cases hminimum : p.sized intent price maxQuantity * price < p.minNotionalUsd
    · rw [if_pos hminimum]
      by_cases hless : p.sized intent price maxQuantity < p.uncapped intent price
      · rw [if_pos hless]
        exact .refused _ hpriced hpos (fun h => absurd h.2 (not_le.mpr hminimum))
          (iff_of_true rfl hless)
      · rw [if_neg hless]
        exact .refused _ hpriced hpos (fun h => absurd h.2 (not_le.mpr hminimum))
          (iff_of_false nofun hless)
    · rw [if_neg hminimum]
      exact .planned _ hpriced hclamped (not_lt.mp hminimum) rfl
  · -- the cap leaves nothing
    rw [hclamp]
    exact .refused reason hpriced hpos (fun h => absurd h.1 (not_lt.mpr hclamped))
      (iff_of_true hexit (hclamped.trans_lt hpos))

theorem plan_ok_iff_sized :
    (∃ out, p.plan intent price reference maxQuantity = .ok out) ↔
      p.Priced price reference ∧ 0 < p.sized intent price maxQuantity ∧
        p.minNotionalUsd ≤ p.sized intent price maxQuantity * price := by
  have hsized := p.sized_le intent price maxQuantity
  have houtcome := p.plan_outcome intent price reference maxQuantity
  generalize p.plan intent price reference maxQuantity = result at houtcome
  cases houtcome with
  | unchecked reason hchecks hreason =>
    exact iff_of_false nofun fun h => hchecks ⟨h.1, h.2.1.trans_le hsized⟩
  | planned out hpriced hpos hminimum hquantity =>
    exact iff_of_true ⟨out, rfl⟩ ⟨hpriced, hpos, hminimum⟩
  | refused reason hpriced huncapped hrefused hreason =>
    exact iff_of_false nofun fun h => hrefused h.2

theorem exitSizing_iff {reason : PlanRejection}
    (h : p.plan intent price reference maxQuantity = .error reason) :
    reason.exitSizing = true ↔
      p.Priced price reference ∧ 0 < p.uncapped intent price ∧
        p.sized intent price maxQuantity < p.uncapped intent price := by
  have houtcome := p.plan_outcome intent price reference maxQuantity
  rw [h] at houtcome
  cases houtcome with
  | unchecked _ hchecks hreason =>
    rw [hreason]
    exact iff_of_false Bool.false_ne_true fun h => hchecks ⟨h.1, h.2.1⟩
  | refused _ hpriced huncapped hsized hreason =>
    exact hreason.trans ⟨fun hless => ⟨hpriced, huncapped, hless⟩, fun h => h.2.2⟩

theorem sized_of_ok (h : p.plan intent price reference maxQuantity = .ok out) :
    out.quantity = p.sized intent price maxQuantity := by
  have houtcome := p.plan_outcome intent price reference maxQuantity
  rw [h] at houtcome
  cases houtcome with
  | planned _ _ _ _ hquantity => exact hquantity

/-- **A larger cap** keeps the plan, and its size at least. -/
theorem plan_of_larger_cap {m m' : ℚ} (hm : m ≤ m')
    (h : p.plan intent price reference (some m) = .ok out) :
    ∃ out', p.plan intent price reference (some m') = .ok out' ∧ out.quantity ≤ out'.quantity := by
  have hmono : p.sized intent price (some m) ≤ p.sized intent price (some m') :=
    min_le_min_left _ (p.roundToLot_mono hm)
  obtain ⟨hpriced, hpos, hminimum⟩ := plan_ok_iff_sized.mp ⟨out, h⟩
  have hnotional : p.sized intent price (some m) * price ≤ p.sized intent price (some m') * price :=
    mul_le_mul_of_nonneg_right hmono hpriced.1.le
  obtain ⟨out', h'⟩ := plan_ok_iff_sized.mpr
    ⟨hpriced, hpos.trans_le hmono, hminimum.trans hnotional⟩
  refine ⟨out', h', ?_⟩
  rw [sized_of_ok h, sized_of_ok h']
  exact hmono

/-- **The planner, characterised.** With `q₀` the largest lot multiple the notional
buys, and `q` the same or, under a cap, at most the largest lot multiple of the cap:
`plan` succeeds exactly when the prices are right and `q` is positive and worth the
minimum, and then plans `q`, within the notional; it refuses as exit sizing exactly
when the checks pass, `q₀` is positive and the cap made `q` smaller; and a larger cap
never lowers the quantity and never turns a success into a refusal. -/
theorem plan_characterised (p : ExecutionPlanner) (intent : PaperOrderIntent)
    (price reference : ℚ) (maxQuantity : Option ℚ) :
    ∃ q₀ q, IsGreatest (p.lotsUpTo (intent.notionalUsd / price)) q₀ ∧
      (maxQuantity = none → q = q₀) ∧
      (∀ m, maxQuantity = some m → ∃ c, IsGreatest (p.lotsUpTo m) c ∧ q = min q₀ c) ∧
      ((∃ out, p.plan intent price reference maxQuantity = .ok out) ↔
        p.Priced price reference ∧ 0 < q ∧ p.minNotionalUsd ≤ q * price) ∧
      (∀ out, p.plan intent price reference maxQuantity = .ok out →
        out.quantity = q ∧ q * price ≤ intent.notionalUsd) ∧
      (∀ reason, p.plan intent price reference maxQuantity = .error reason →
        (reason.exitSizing = true ↔ p.Priced price reference ∧ 0 < q₀ ∧ q < q₀)) ∧
      ∀ m m' out, m ≤ m' → p.plan intent price reference (some m) = .ok out →
        ∃ out', p.plan intent price reference (some m') = .ok out' ∧
          out.quantity ≤ out'.quantity := by
  refine ⟨p.uncapped intent price, p.sized intent price maxQuantity, p.roundToLot_isGreatest _,
    ?_, ?_, plan_ok_iff_sized, ?_, fun reason => exitSizing_iff, fun m m' out => plan_of_larger_cap⟩
  · rintro rfl
    rfl
  · rintro m rfl
    exact ⟨p.roundToLot m, p.roundToLot_isGreatest m, rfl⟩
  · intro out hout
    have hnotional := (planned_of_ok hout).notional_le
    rw [sized_of_ok hout] at hnotional
    exact ⟨sized_of_ok hout, hnotional⟩

end ExecutionPlanner

end TraderStack
