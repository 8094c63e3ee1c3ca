import TraderStack.Portfolio.BookTheory

/-!
# The accounting identity of the spot book

Cash and inventory at cost always add up to the starting capital plus the
realised PnL, whatever sequence of fills, refused fills, marks, snapshots and
restarts the book went through. The invariant is `Balanced`; it carries the
fees accepted so far as a parameter, so the step lemma says by how much one
operation moves them.

The cost side of each fill is the inventory algebra of `Lib.CostBasis`: a BUY
moves its notional from cash into the cost value and its fee into realised PnL,
a SELL moves the released cost back and books the gain net of the fee.
-/

namespace TraderStack

open Lib

namespace PortfolioBook

/-- The positions at cost. -/
def costValueUsd (b : PortfolioBook) : ℚ :=
  b.positions.sum fun _ p => p.quantity * p.averageCostUsd

/-- The fees all positions have paid. -/
def feesPaidUsd (b : PortfolioBook) : ℚ :=
  b.positions.sum fun _ p => p.feesPaidUsd

/-- The fee an operation adds: that of a fill the book accepts. -/
def acceptedFee (b : PortfolioBook) : BookOp → ℚ
  | .fill asset side quantity priceUsd feeUsd now strategyId =>
    match (b.applyFill asset side quantity priceUsd feeUsd now strategyId).1 with
    | .ok _ => feeUsd
    | .error _ => 0
  | _ => 0

/-- The fees of all fills accepted along a run. -/
def acceptedFees : PortfolioBook → List BookOp → ℚ
  | _, [] => 0
  | b, op :: ops => b.acceptedFee op + (b.step op).acceptedFees ops

/-- The accounting invariant: `nav` is the starting capital, `fees` the fees of
the fills accepted so far. -/
structure Balanced (nav fees : ℚ) (b : PortfolioBook) : Prop where
  keys : UpperKeyed b
  identity : b.cashUsd + b.costValueUsd = nav + b.realizedPnlUsd
  flat : ∀ a p, b.positions.get? a = some p → p.quantity = 0 → p.averageCostUsd = 0
  fees : b.feesPaidUsd = fees

variable {nav fees : ℚ} {b b' : PortfolioBook}

theorem balanced_fresh (nav : ℚ) (h : 0 < nav) : Balanced nav 0 (fresh nav h) where
  keys := upperKeyed_fresh nav h
  identity := by simp [fresh, costValueUsd]
  flat := by
    intro a p hp
    simp [fresh] at hp
  fees := rfl

theorem balanced_of_sameBook (hb : Balanced nav fees b) (h : SameBook b b') :
    Balanced nav fees b' where
  keys := upperKeyed_of_sameBook hb.keys h
  identity := by
    rw [costValueUsd, h.cashUsd, h.positions, h.realizedPnl]
    exact hb.identity
  flat := by
    rw [h.positions]
    exact hb.flat
  fees := by
    rw [feesPaidUsd, h.positions]
    exact hb.fees

theorem balanced_withPosition (hb : Balanced nav fees b) (asset : String) :
    Balanced nav fees (b.withPosition (Text.upper asset)) where
  keys := upperKeyed_withPosition hb.keys asset
  identity := by
    have hsum : (b.withPosition (Text.upper asset)).costValueUsd = b.costValueUsd :=
      Dict.sum_setDefault b.positions (by simp)
    rw [hsum]
    exact hb.identity
  flat := by
    intro a p hp hq
    simp only [withPosition, Dict.setDefault] at hp
    split at hp
    · exact hb.flat a p hp hq
    · rw [Dict.get?_set] at hp
      split at hp
      · cases hp
        rfl
      · exact hb.flat a p hp hq
  fees := (Dict.sum_setDefault b.positions (by simp)).trans hb.fees

theorem balanced_setMark (hb : Balanced nav fees b) (asset : String) (price : ℚ)
    (hp : 0 < price) : Balanced nav fees (b.setMark (Text.upper asset) price hp) where
  keys := upperKeyed_setMark hb.keys asset price hp
  identity := by
    have hsum : (b.setMark (Text.upper asset) price hp).costValueUsd = b.costValueUsd :=
      sum_setMark _ price hp _ (by simp)
    rw [hsum]
    exact hb.identity
  flat := by
    intro a p h hq
    rw [get?_positions_setMark] at h
    cases hget : b.positions.get? a with
    | none =>
      rw [hget] at h
      cases h
    | some p' =>
      rw [hget, Option.map_some, Option.some.injEq] at h
      subst h
      split at hq
      · rw [if_pos ‹_›, Position.observe_averageCostUsd]
        rw [Position.observe_quantity] at hq
        exact hb.flat a p' hget hq
      · rw [if_neg ‹_›]
        exact hb.flat a p' hget hq
  fees := (sum_setMark _ price hp _ (by simp)).trans hb.fees

/-- A booked fill keeps the invariant when its cash flow and realised PnL match
the change of the position's cost value. -/
theorem balanced_of_filled {asset : String} {p : Position} {cash realized price fee : ℚ}
    (hb : Balanced nav fees b) (h : Filled b b' (Text.upper asset) p cash realized price)
    (hvalue : p.lot.value = (b.positionOf (Text.upper asset)).lot.value - cash + realized)
    (hflat : p.quantity = 0 → p.averageCostUsd = 0)
    (hfee : p.feesPaidUsd = (b.positionOf (Text.upper asset)).feesPaidUsd + fee) :
    Balanced nav (fees + fee) b' where
  keys := upperKeyed_of_filled hb.keys h
  identity := by
    have hsum := sum_of_filled h (fun _ p => p.quantity * p.averageCostUsd) (by simp)
    have hid := hb.identity
    simp only [Lot.value, Position.lot] at hvalue
    simp only [Position.observe_quantity, Position.observe_averageCostUsd, hvalue] at hsum
    unfold costValueUsd at hid ⊢
    rw [hsum, h.cashUsd, h.realizedPnl]
    linarith
  flat := by
    intro a q hq hzero
    rw [h.positions, Dict.get?_set] at hq
    split at hq
    · cases hq
      rw [Position.observe_averageCostUsd]
      rw [Position.observe_quantity] at hzero
      exact hflat hzero
    · exact hb.flat a q hq hzero
  fees := by
    have hsum := sum_of_filled h (fun _ p => p.feesPaidUsd) (by simp)
    have hold := hb.fees
    simp only [Position.observe_feesPaidUsd, hfee] at hsum
    unfold feesPaidUsd at hold ⊢
    rw [hsum, ← hold]
    ring

/-- **One operation** keeps the identity and adds exactly its accepted fee. -/
theorem balanced_step (hb : Balanced nav fees b) (op : BookOp) :
    Balanced nav (fees + b.acceptedFee op) (b.step op) := by
  cases op with
  | fill asset side quantity price fee now strategyId =>
    rcases h : b.applyFill asset side quantity price fee now strategyId with ⟨r, b'⟩
    rw [step, acceptedFee, h]
    rcases applyFill_cases h with ⟨e, rfl, hb'⟩ | ⟨hq, hp, hf, rfl, -, hfill⟩ |
      ⟨hs, hf, rfl, -, -, -, hfill⟩
    · -- refused: at most an empty position appeared
      rw [add_zero]
      rcases hb' with rfl | rfl
      · exact hb
      · exact balanced_withPosition hb asset
    · -- bought: the notional becomes inventory, the fee is realised
      have hne : (b.positionOf (Text.upper asset)).lot.quantity + quantity ≠ 0 :=
        (add_pos_of_nonneg_of_pos (b.positionOf (Text.upper asset)).quantity_nonneg hq).ne'
      refine balanced_of_filled hb hfill ?_ (fun hzero => absurd hzero hne) rfl
      have hbuy := Lot.value_buy (b.positionOf (Text.upper asset)).lot price hne
      exact hbuy.trans (by ring)
    · -- sold: the released cost returns to cash together with the gain
      refine balanced_of_filled hb hfill ?_ (Lot.cost_sell_of_empty _) rfl
      have hsell := Lot.value_sell (b.positionOf (Text.upper asset)).lot quantity
      have hproceeds := Lot.proceeds_eq (b.positionOf (Text.upper asset)).lot quantity price
      exact hsell.trans (by linarith)
  | mark asset price =>
    show Balanced nav (fees + 0) _
    rw [add_zero]
    rcases mark_cases b asset price with ⟨h, -⟩ | ⟨hp, h⟩
    · simp only [step, h]
      exact hb
    · simp only [step, h]
      exact balanced_setMark hb asset price hp
  | snapshot now =>
    show Balanced nav (fees + 0) _
    rw [add_zero]
    exact balanced_of_sameBook hb (sameBook_snapshot b now)
  | restart =>
    show Balanced nav (fees + 0) _
    rw [add_zero, step_restart hb.keys]
    exact hb

theorem balanced_run (ops : List BookOp) :
    ∀ {fees : ℚ} {b : PortfolioBook}, Balanced nav fees b →
      Balanced nav (fees + b.acceptedFees ops) (run step b ops) := by
  induction ops with
  | nil =>
    intro fees b hb
    rw [acceptedFees, add_zero]
    exact hb
  | cons op ops ih =>
    intro fees b hb
    rw [acceptedFees, ← add_assoc]
    exact ih (balanced_step hb op)

/-- The NAV is the cost value revalued at the marks. -/
theorem navUsd_eq (b : PortfolioBook) :
    b.navUsd = b.cashUsd + b.costValueUsd
      + b.positions.sum fun a p => p.quantity * (b.markOf a p - p.averageCostUsd) := by
  rw [navUsd, costValueUsd, add_assoc, ← Dict.sum_add]
  congr 1
  refine Dict.sum_congr fun a p _ => ?_
  ring

/-- **The accounting identity**: after any history of a fresh book, cash plus
inventory at cost is the starting NAV plus realised PnL; quantities are
non-negative and a flat position carries no cost; the fees add up; and the NAV
is the starting NAV plus realised and unrealised PnL. -/
theorem accounting_identity (nav : ℚ) (h : 0 < nav) (ops : List BookOp) :
    let b := run step (fresh nav h) ops
    b.cashUsd + b.positions.sum (fun _ p => p.quantity * p.averageCostUsd)
        = nav + b.realizedPnlUsd ∧
      (∀ a p, b.positions.get? a = some p →
        0 ≤ p.quantity ∧ (p.quantity = 0 → p.averageCostUsd = 0)) ∧
      b.positions.sum (fun _ p => p.feesPaidUsd) = acceptedFees (fresh nav h) ops ∧
      b.navUsd = nav + b.realizedPnlUsd
        + b.positions.sum fun a p => p.quantity * (b.markOf a p - p.averageCostUsd) := by
  intro b
  have hb : Balanced nav (0 + acceptedFees (fresh nav h) ops) b :=
    balanced_run ops (balanced_fresh nav h)
  refine ⟨hb.identity, fun a p hp => ⟨p.quantity_nonneg, hb.flat a p hp⟩, ?_, ?_⟩
  · rw [← zero_add (acceptedFees (fresh nav h) ops)]
    exact hb.fees
  · rw [navUsd_eq, hb.identity]

/-- A purchase, a partial sale at a gain, a refused oversell and a restart. -/
def partialSale : List BookOp :=
  [.fill "btc" .buy 2 100 1 0 none, .fill "BTC" .sell 1 150 1 60 none,
    .fill "BTC" .sell 5 150 1 120 none, .restart]

theorem accounting_identity_partialSale :
    (run step (fresh 1000 (by decide)) partialSale).cashUsd
        + (run step (fresh 1000 (by decide)) partialSale).positions.sum
            (fun _ p => p.quantity * p.averageCostUsd)
        = 1000 + (run step (fresh 1000 (by decide)) partialSale).realizedPnlUsd :=
  (accounting_identity 1000 (by decide) partialSale).1

example : (run step (fresh 1000 (by decide)) partialSale).realizedPnlUsd = 48 := by
  decide +kernel

end PortfolioBook

end TraderStack
