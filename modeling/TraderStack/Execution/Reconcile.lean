import TraderStack.Execution.PaperFill
import TraderStack.Execution.VenueRows

/-!
# The venue reconciler (reconcile.py)

`reconcile_state` reads the venue's trade rows into the ledger and the book and
then the order rows into the ledger. Rows are handled one at a time, and a row
that raises ends the pass with everything before it already booked: each loop
returns the records it leaves together with its result or exception.

`venue_knows_order` answers whether the venue has an order this ledger cannot
account for that matches an uncertain submission.
-/

namespace TraderStack

open Lib

/-- Why a reconciliation pass raised. -/
inductive ReconcileError where
  | row (e : RowError)
  | invalidFill (field : String)
  | booking (e : BookingError)
  | ledger (e : LedgerError)
  /-- A transport or HTTP failure of the fetch. -/
  | unreachable
deriving DecidableEq, Repr

/-- `ExecutionReconciliationResult` (reconcile.py:36–45). A conflict is the
order, its state here, and the status the venue reports. -/
structure ReconciliationResult where
  appliedFills : ℕ
  venueOrders : ℕ
  conflicts : List (String × OrderLifecycleState × String)
deriving DecidableEq

/-- `matched` (reconcile.py:44–45). -/
def ReconciliationResult.matched (r : ReconciliationResult) : Bool := r.conflicts.isEmpty

/-- `HummingbotExecutionReconciler` (reconcile.py:54–65), the fee policy. -/
structure Reconciler where
  paperFeeBps : ℚ
  paperFee_nonneg : 0 ≤ paperFeeBps

namespace Reconciler

/-! ## Trades -/

/-- `_resolve_fee` (reconcile.py:238–247): the venue's fee wins when present. -/
def resolveFee (c : Reconciler) (venueFeeUsd quantity priceUsd : ℚ) : ℚ × FeeSource :=
  if 0 < venueFeeUsd then (venueFeeUsd, .venue)
  else (quantity * priceUsd * c.paperFeeBps / 10000, .modelled)

theorem resolveFee_nonneg (c : Reconciler) (venueFeeUsd : ℚ) {quantity priceUsd : ℚ}
    (hq : 0 < quantity) (hp : 0 < priceUsd) :
    0 ≤ (c.resolveFee venueFeeUsd quantity priceUsd).1 := by
  unfold resolveFee
  split
  · exact le_of_lt ‹_›
  · exact div_nonneg (mul_nonneg (mul_pos hq hp).le c.paperFee_nonneg) (by norm_num)

/-- The fill a trade row reports (reconcile.py:216–229). The fields are read in
the order of the source, and the record refuses a non-positive number. -/
def tradeFill (c : Reconciler) (row : Row) (orderId : String) :
    Except ReconcileError ExecutionFill := do
  let quantity ← (row.requiredNumber ["amount", "quantity"]).mapError .row
  let priceUsd ← (row.requiredNumber ["price"]).mapError .row
  let venueFee ← (row.number ["fee"]).mapError .row
  let fillId ← (row.requiredText ["trade_id", "id"]).mapError .row
  let pair ← (row.requiredText ["trading_pair", "symbol"]).mapError .row
  let sideText ← (row.requiredText ["trade_type", "side"]).mapError .row
  let side ← (rowSide sideText).mapError .row
  if hq : quantity ≤ 0 then .error (.invalidFill "quantity")
  else if hp : priceUsd ≤ 0 then .error (.invalidFill "price_usd")
  else
    .ok
      { fillId := fillId
        orderId := orderId
        asset := pairAsset pair
        side := side
        quantity := quantity
        priceUsd := priceUsd
        feeUsd := (c.resolveFee venueFee quantity priceUsd).1
        feeSource := (c.resolveFee venueFee quantity priceUsd).2
        quantity_pos := pos_of_check hq
        price_pos := pos_of_check hp
        fee_nonneg := c.resolveFee_nonneg venueFee (pos_of_check hq) (pos_of_check hp) }

/-- What a trade row asks for, before anything is booked: nothing, because its
order was filled by the paper simulator, or a fill. -/
def readTrade (c : Reconciler) (l : ExecutionLedger) (row : Row) :
    Except ReconcileError (Option ExecutionFill) :=
  match row.requiredText ["order_id"] with
  | .error e => .error (.row e)
  | .ok orderId =>
    if (l.findOrder orderId).any isLocalPaperFill then .ok none
    else (c.tradeFill row orderId).map some

/-- One trade row (reconcile.py:208–235): whether a fill was applied, and the
records it leaves. -/
def tradeRow (c : Reconciler) (row : Row) (now : Time) (a : Accounts) :
    Except ReconcileError Bool × Accounts :=
  match c.readTrade a.ledger row with
  | .error e => (.error e, a)
  | .ok none => (.ok false, a)
  | .ok (some fill) =>
    match bookFill a fill now with
    | (.error e, a) => (.error (.booking e), a)
    | (.ok booked, a) => (.ok booked, a)

/-- `_reconcile_trades` (reconcile.py:204–236): the number of applied fills. -/
def reconcileTrades (c : Reconciler) (now : Time) :
    List Row → Accounts → Except ReconcileError ℕ × Accounts
  | [], a => (.ok 0, a)
  | row :: rows, a =>
    match c.tradeRow row now a with
    | (.error e, a) => (.error e, a)
    | (.ok booked, a) =>
      let (applied, a) := c.reconcileTrades now rows a
      (applied.map fun n => (if booked then 1 else 0) + n, a)

/-! ## Orders -/

/-- One order row (reconcile.py:176–201): the conflict it reveals, and the
ledger it leaves. -/
def orderRow (row : Row) (now : Time) (l : ExecutionLedger) :
    Except ReconcileError (Option (String × OrderLifecycleState × String)) × ExecutionLedger :=
  match row.requiredText ["order_id", "id"] with
  | .error e => (.error (.row e), l)
  | .ok identifier =>
    match l.findOrder identifier with
    | none => (.ok none, l)
    | some o =>
      if isLocalPaperFill o then (.ok none, l)
      else
        let rawStatus := Text.lower (row.text ["status"])
        match mapState rawStatus with
        | none => (.ok none, l)
        | some state =>
          if o.state.isLegalTransition state then
            match l.updateOrderState o.orderId state now with
            | .error e => (.error (.ledger e), l)
            | .ok l => (.ok none, l)
          else if o.state.terminal then (.ok (some (o.orderId, o.state, rawStatus)), l)
          else (.ok none, l)

/-- `_reconcile_orders` (reconcile.py:171–202): the conflicts. -/
def reconcileOrders (now : Time) :
    List Row → ExecutionLedger →
      Except ReconcileError (List (String × OrderLifecycleState × String)) × ExecutionLedger
  | [], l => (.ok [], l)
  | row :: rows, l =>
    match orderRow row now l with
    | (.error e, l) => (.error e, l)
    | (.ok conflict, l) =>
      let (conflicts, l) := reconcileOrders now rows l
      (conflicts.map fun cs => conflict.toList ++ cs, l)

/-- `reconcile_state` (reconcile.py:67–80), on the fetched payloads. -/
def reconcileState (c : Reconciler) (ordersPayload tradesPayload : Payload) (now : Time)
    (a : Accounts) : Except ReconcileError ReconciliationResult × Accounts :=
  match payloadRows ordersPayload with
  | .error e => (.error (.row e), a)
  | .ok rows =>
    match payloadRows tradesPayload with
    | .error e => (.error (.row e), a)
    | .ok trades =>
      match c.reconcileTrades now trades a with
      | (.error e, a) => (.error e, a)
      | (.ok applied, a) =>
        match reconcileOrders now rows a.ledger with
        | (.error e, ledger) => (.error e, { a with ledger := ledger })
        | (.ok conflicts, ledger) =>
          (.ok ⟨applied, rows.length, conflicts⟩, { a with ledger := ledger })

end Reconciler

/-! ## Does the venue know an order? -/

/-- `CLIENT_ORDER_ID_KEYS` (reconcile.py:26–33). -/
def clientOrderIdKeys : List String :=
  ["client_order_id", "clientOrderId", "client_id", "custom_id", "order_id", "id"]

/-- Does the row echo the client order id under any of the keys? -/
def Row.echoes (row : Row) (clientOrderId : String) : Bool :=
  clientOrderIdKeys.any fun key => row.get? key = some (.str clientOrderId)

/-- `_matches_plan` (reconcile.py:117–133). -/
def Row.matchesPlan (row : Row) (tradingPair tradeType : String) (quantity tolerance : ℚ) :
    Except RowError Bool :=
  let pair := row.text ["trading_pair", "symbol"]
  let side := row.text ["trade_type", "side"]
  if pair = "" ∨ side = "" then .ok false
  else if pairAsset pair ≠ pairAsset tradingPair then .ok false
  else if Text.upper side ≠ Text.upper tradeType then .ok false
  else
    (row.number ["amount", "quantity"]).map fun amount =>
      |amount - quantity| ≤ max tolerance (|quantity| * (1 / 10 ^ 6))

/-- One row of the search (reconcile.py:103–115): does it show the order? -/
def Row.shows (l : ExecutionLedger) (clientOrderId tradingPair tradeType : String)
    (quantity : ℚ) (row : Row) : Except RowError Bool :=
  if row.echoes clientOrderId then .ok true
  else
    let identifier := row.text ["order_id", "id"]
    if identifier ≠ "" ∧ (l.findOrder identifier).isSome then .ok false
    else row.matchesPlan tradingPair tradeType quantity (1 / 10 ^ 9)

/-- `venue_knows_order` (reconcile.py:82–115), on the fetched rows: the row that
grounds a yes. -/
def venueKnowsOrder (l : ExecutionLedger) (clientOrderId tradingPair tradeType : String)
    (quantity : ℚ) : List Row → Except RowError (Option Row)
  | [] => .ok none
  | row :: rows =>
    match row.shows l clientOrderId tradingPair tradeType quantity with
    | .error e => .error e
    | .ok true => .ok (some row)
    | .ok false => venueKnowsOrder l clientOrderId tradingPair tradeType quantity rows

end TraderStack
