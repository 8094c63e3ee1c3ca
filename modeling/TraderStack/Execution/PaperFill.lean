import TraderStack.Execution.Accounts
import TraderStack.Risk.Policy

/-!
# The paper-fill simulator (paper_fill.py)

`PaperFillSimulator.apply` books one simulated fill for an approved intent: it
finds or registers the decision's order, sizes the fill, and books it through
the ledger into the book. `prepare` is everything up to the booking: it ends in
an outcome, an exception, or the fill to book.
-/

namespace TraderStack

open Lib

/-- `_PAPER_FILL_ID_PREFIX`. -/
def paperFillIdPrefix : String := "paper-fill:"

/-- `paper_fill_id` (paper_fill.py:76–77). -/
def paperFillId (clientOrderId : String) : String := paperFillIdPrefix ++ clientOrderId

/-- `is_paper_simulated_fill` (paper_fill.py:80–81). -/
def isPaperSimulatedFill (fillId : String) : Bool :=
  paperFillIdPrefix.toList.isPrefixOf fillId.toList

/-- `is_local_paper_fill` (paper_fill.py:84–91). -/
def isLocalPaperFill (o : ExecutionOrder) : Bool :=
  o.state = .filled && o.feeSource = some .modelled

/-- `order.client_order_id or order.order_id`. -/
def ExecutionOrder.idempotencyKey (o : ExecutionOrder) : String :=
  match o.clientOrderId with
  | some id => if id = "" then o.orderId else id
  | none => o.orderId

/-- `PaperFillStatus` (paper_fill.py:46–60). -/
inductive PaperFillStatus where
  | filled
  | duplicate
  | planRejected
  | rejected
  | withheld
  | invalidExitSize
deriving DecidableEq, Repr

/-- `PaperFillOutcome` (paper_fill.py:64–73). -/
structure PaperFillOutcome where
  status : PaperFillStatus
  reason : Option Reason
  fill : Option ExecutionFill
  plan : Option ExecutionPlan
  feeUsd : ℚ
deriving DecidableEq

/-- An outcome without a fill. -/
def PaperFillOutcome.refused (status : PaperFillStatus) (reason : Reason)
    (plan : Option ExecutionPlan) : PaperFillOutcome :=
  ⟨status, some reason, none, plan, 0⟩

/-- Why `apply` raised. -/
inductive PaperFillError where
  | safety (e : SafetyError)
  | ledger (e : LedgerError)
  | booking (e : BookingError)
deriving DecidableEq, Repr

/-- `adverse_fill_price_usd` (paper_fill.py:94–104) for a positive mid and a
non-negative slippage. -/
def adverseFillPriceUsd (side : Side) (midUsd slippageBps : ℚ) : ℚ :=
  match side with
  | .buy => midUsd * (1 + slippageBps / 10000)
  | .sell => midUsd * (1 - slippageBps / 10000)

/-- `PaperFillSimulator` (paper_fill.py:107–120); the bounds are those
`__post_init__` checks. -/
structure PaperFillSimulator where
  planner : ExecutionPlanner
  paperFeeBps : ℚ
  paperSlippageBps : ℚ
  tradingMode : TradingMode
  paperFee_nonneg : 0 ≤ paperFeeBps
  paperSlippage_nonneg : 0 ≤ paperSlippageBps

/-- What `apply` has decided before it books anything. -/
inductive Prepared where
  | outcome (out : PaperFillOutcome)
  | raised (e : PaperFillError)
  | fill (fill : ExecutionFill) (plan : ExecutionPlan)

namespace PaperFillSimulator

/-- `_existing_order` (paper_fill.py:222–224). -/
def existingOrder (l : ExecutionLedger) (decisionId : String) : Option ExecutionOrder :=
  (l.ordersForDecision decisionId).head?

/-- `_duplicate_if_already_filled` (paper_fill.py:227–237) and the refusal of an
otherwise closed order (paper_fill.py:140–148). -/
def refusal (o : ExecutionOrder) (l : ExecutionLedger) (intent : PaperOrderIntent) :
    Option PaperFillOutcome :=
  if o.state = .filled ∨ paperFillId o.idempotencyKey ∈ l.processedFillIds then
    some (.refused .duplicate (.alreadyFilled o.decisionId) none)
  else if o.state.terminal ∧ o.state ≠ .filled then
    some (.refused .rejected (.alreadyTerminal intent.decisionId o.state) none)
  else none

/-- `_register` (paper_fill.py:239–251). -/
def plannedOrder (plan : ExecutionPlan) (now : Time) : ExecutionOrder where
  orderId := plan.clientOrderId
  decisionId := plan.decisionId
  asset := plan.asset
  side := plan.side
  requestedQuantity := plan.quantity
  state := .planned
  filledQuantity := 0
  averageFillPriceUsd := none
  lastUpdatedAt := now
  clientOrderId := some plan.clientOrderId
  venueOrderId := none
  submissionAttempts := 0
  reason := none
  feesPaidUsd := 0
  feeSource := none
  requested_pos := plan.quantity_pos
  filled_nonneg := zero_nonneg
  averageFill_pos := pos_of_mem_none
  feesPaid_nonneg := zero_nonneg

/-- `_reduce_only_cap` (paper_fill.py:255–268). -/
def reduceOnlyCap (b : PortfolioBook) (intent : PaperOrderIntent) : Option ℚ :=
  if !intent.reduceOnly || intent.side ≠ .sell then none
  else some (b.heldQuantity (Text.upper intent.asset))

/-- `_short_sale_reason` (paper_fill.py:271–280). -/
def shortSaleReason (b : PortfolioBook) (intent : PaperOrderIntent) (quantity : ℚ) :
    Option Reason :=
  if intent.side ≠ .sell then none
  else
    let available := b.heldQuantity (Text.upper intent.asset)
    if available + fillTolerance < quantity then
      some (.shortSale quantity (Text.upper intent.asset) available)
    else none

/-- The quantity to fill on an existing order (paper_fill.py:168–180): its
already planned size, and for a reduce-only order no more than the new plan. -/
def existingQuantity (o : ExecutionOrder) (plan : ExecutionPlan) (cap : Option ℚ) : ℚ :=
  match cap with
  | none => o.requestedQuantity
  | some _ => min o.requestedQuantity plan.quantity

theorem existingQuantity_pos (o : ExecutionOrder) (plan : ExecutionPlan) (cap : Option ℚ) :
    0 < existingQuantity o plan cap := by
  cases cap with
  | none => exact o.requested_pos
  | some c => exact lt_min o.requested_pos plan.quantity_pos

/-- The fill of a sized order (paper_fill.py:193–204). -/
def fillOf (sim : PaperFillSimulator) (intent : PaperOrderIntent) (o : ExecutionOrder)
    (clientOrderId : String) (quantity priceUsd : ℚ) (hq : 0 < quantity) (hp : 0 < priceUsd) :
    ExecutionFill where
  fillId := paperFillId clientOrderId
  orderId := o.orderId
  asset := Text.upper intent.asset
  side := intent.side
  quantity := quantity
  priceUsd := priceUsd
  feeUsd := quantity * priceUsd * sim.paperFeeBps / 10000
  feeSource := .modelled
  quantity_pos := hq
  price_pos := hp
  fee_nonneg :=
    div_nonneg (mul_nonneg (mul_pos hq hp).le sim.paperFee_nonneg) (by norm_num)

/-- The checks between sizing and booking (paper_fill.py:182–192). -/
def checkFill (sim : PaperFillSimulator) (intent : PaperOrderIntent) (plan : ExecutionPlan)
    (a : Accounts) (o : ExecutionOrder) (clientOrderId : String) (quantity priceUsd : ℚ)
    (hq : 0 < quantity) (hp : 0 < priceUsd) : Prepared :=
  if paperFillId clientOrderId ∈ a.ledger.processedFillIds then
    .outcome (.refused .duplicate (.alreadyBooked (paperFillId clientOrderId)) (some plan))
  else
    match shortSaleReason a.book intent quantity with
    | some reason => .outcome (.refused .rejected reason (some plan))
    | none => .fill (sim.fillOf intent o clientOrderId quantity priceUsd hq hp) plan

/-- `apply` up to the booking (paper_fill.py:122–204), and the ledger it leaves:
a decision without an order gets one registered. -/
def prepare (sim : PaperFillSimulator) (intent : PaperOrderIntent) (midUsd : ℚ) (now : Time)
    (a : Accounts) : Prepared × ExecutionLedger :=
  if sim.tradingMode ≠ .paper then (.raised (.safety .outsidePaperMode), a.ledger)
  else if midUsd ≤ 0 then (.outcome (.refused .rejected .nonPositiveMid none), a.ledger)
  else
    let existing := existingOrder a.ledger intent.decisionId
    match existing.bind fun o => refusal o a.ledger intent with
    | some out => (.outcome out, a.ledger)
    | none =>
      let fillPrice := adverseFillPriceUsd intent.side midUsd sim.paperSlippageBps
      let cap := reduceOnlyCap a.book intent
      match hplan : sim.planner.plan intent fillPrice midUsd cap with
      | .error reason =>
        let status := if reason.exitSizing then .invalidExitSize else .planRejected
        (.outcome (.refused status (.planRejected reason) none), a.ledger)
      | .ok plan =>
        have hp : 0 < fillPrice :=
          (ExecutionPlanner.planned_of_ok hplan).price_eq ▸ plan.executionPrice_pos
        match existing with
        | some o =>
          (sim.checkFill intent plan a o o.idempotencyKey (existingQuantity o plan cap) fillPrice
            (existingQuantity_pos o plan cap) hp, a.ledger)
        | none =>
          let o := plannedOrder plan now
          match a.ledger.registerOrder o with
          | .error e => (.raised (.ledger e), a.ledger)
          | .ok ledger =>
            (sim.checkFill intent plan { a with ledger := ledger } o plan.clientOrderId
              plan.quantity fillPrice plan.quantity_pos hp, ledger)

/-- `apply` (paper_fill.py:122–219). -/
def apply (sim : PaperFillSimulator) (intent : PaperOrderIntent) (midUsd : ℚ) (now : Time)
    (a : Accounts) : Except PaperFillError PaperFillOutcome × Accounts :=
  let prepared := sim.prepare intent midUsd now a
  let a := { a with ledger := prepared.2 }
  match prepared.1 with
  | .outcome out => (.ok out, a)
  | .raised e => (.error e, a)
  | .fill fill plan =>
    match bookFill a fill now with
    | (.error e, a) => (.error (.booking e), a)
    | (.ok false, a) => (.ok (.refused .duplicate (.alreadyBooked fill.fillId) (some plan)), a)
    | (.ok true, a) => (.ok ⟨.filled, none, some fill, some plan, fill.feeUsd⟩, a)

end PaperFillSimulator

end TraderStack
