import TraderStack.Execution.Reconcile
import TraderStack.Lib.Proc

/-!
# The paper executor and the venue behind it (hummingbot.py)

`buildRequest` is the executor's safety boundary. Behind it stands a venue the
executor talks to over HTTP: it mints its own order ids, and on each create call
it may or may not have accepted the order by the time an answer (or none)
arrives. What the venue does on each call is a parameter, `VenueEnv`; what it
has accepted so far is the state `Venue`.
-/

namespace TraderStack

open Lib

/-- `HummingbotOrderRequest` (hummingbot.py:33–51). -/
@[ext]
structure HummingbotOrderRequest where
  accountName : String
  connectorName : String
  tradingPair : String
  tradeType : String
  amount : ℚ
  clientOrderId : Option String
  amount_pos : 0 < amount

/-- Requests compare field by field. -/
instance : DecidableEq HummingbotOrderRequest := fun _ _ => decidable_of_iff' _ HummingbotOrderRequest.ext_iff

/-- `trade_type` of a side. -/
def Side.tradeType : Side → String
  | .buy => "BUY"
  | .sell => "SELL"

/-- `HummingbotPaperExecutor` (hummingbot.py:71–79). -/
structure HummingbotPaperExecutor where
  accountName : String
  connectorName : String
deriving DecidableEq

/-- `build_request` (hummingbot.py:76–106) for a planned quantity. -/
def HummingbotPaperExecutor.buildRequest (x : HummingbotPaperExecutor)
    (intent : PaperOrderIntent) (executionPriceUsd : ℚ) (mode : TradingMode) (quantity : ℚ)
    (clientOrderId : String) : Except SafetyError HummingbotOrderRequest :=
  if mode ≠ .paper then .error .outsidePaperMode
  else if !Text.endsWith x.connectorName "_paper_trade" then .error .notPaperConnector
  else if executionPriceUsd ≤ 0 then .error .nonPositivePrice
  else if intent.venue ≠ x.connectorName then .error .venueMismatch
  else if h : quantity ≤ 0 then .error .nonPositiveQuantity
  else
    .ok
      { accountName := x.accountName
        connectorName := x.connectorName
        tradingPair := Text.upper intent.asset ++ "-USD"
        tradeType := intent.side.tradeType
        amount := quantity
        clientOrderId := some clientOrderId
        amount_pos := pos_of_check h }

/-- The request carries the intent's pair and side and the planned amount. -/
theorem buildRequest_ok {x : HummingbotPaperExecutor} {intent : PaperOrderIntent}
    {price quantity : ℚ} {mode : TradingMode} {clientOrderId : String}
    {req : HummingbotOrderRequest}
    (h : x.buildRequest intent price mode quantity clientOrderId = .ok req) :
    req.tradingPair = Text.upper intent.asset ++ "-USD" ∧
      req.tradeType = intent.side.tradeType ∧ req.amount = quantity ∧
      req.clientOrderId = some clientOrderId := by
  unfold HummingbotPaperExecutor.buildRequest at h
  split at h
  · cases h
  split at h
  · cases h
  split at h
  · cases h
  split at h
  · cases h
  split at h
  · cases h
  · cases h
    exact ⟨rfl, rfl, rfl, rfl⟩

/-! ## The venue -/

/-- An order the venue accepted, under the id it minted. -/
structure VenueOrder where
  id : String
  request : HummingbotOrderRequest
deriving DecidableEq

/-- How a create call goes: what the venue did, and what came back. -/
inductive CreateBehaviour where
  /-- Accepted and answered 201 with the order's id. -/
  | created
  | timedOut (accepted : Bool)
  | transportError (accepted : Bool)
  | serverError (statusCode : ℕ) (h : 500 ≤ statusCode) (accepted : Bool)
  | malformedBody (accepted : Bool)
  /-- Understood and refused. -/
  | refused (statusCode : ℕ) (h : statusCode < 500)

/-- Did the venue accept the order? -/
def CreateBehaviour.accepts : CreateBehaviour → Bool
  | created => true
  | timedOut accepted => accepted
  | transportError accepted => accepted
  | serverError _ _ accepted => accepted
  | malformedBody accepted => accepted
  | refused .. => false

/-- How an order search goes: it fails, or it lists the venue's own orders,
arranged in any way and among any other rows. -/
inductive QueryBehaviour where
  | unreachable
  | answers (status : VenueOrder → String) (arrange : List Row → List Row)
      (complete : ∀ own, ∀ row ∈ own, row ∈ arrange own)

/-- What the venue does on its n-th create call and n-th search, and the id it
mints for the n-th call. -/
structure VenueEnv where
  create : ℕ → CreateBehaviour
  query : ℕ → QueryBehaviour
  mint : ℕ → String

/-- The venue's state: the create calls it received, the orders it accepted, in
order, and the searches it answered. -/
structure Venue where
  calls : List HummingbotOrderRequest
  accepted : List VenueOrder
  queries : ℕ
deriving DecidableEq

/-- A venue that has seen nothing. -/
def Venue.empty : Venue := ⟨[], [], 0⟩

/-- The search row of an order: it carries the venue's own order id. -/
def VenueOrder.row (v : VenueOrder) (status : String) : Row :=
  Dict.ofList [("order_id", .str v.id), ("trading_pair", .str v.request.tradingPair),
    ("trade_type", .str v.request.tradeType), ("amount", .num v.request.amount),
    ("status", .str status)]

/-- What came back from a create call. -/
inductive CreateResponse where
  | receipt (orderId : String)
  | http (statusCode : ℕ)
  | timedOut
  | transport
  | safety (e : SafetyError)
deriving DecidableEq

/-- The answer to a create call. -/
def CreateBehaviour.response (b : CreateBehaviour) (id : String) : CreateResponse :=
  match b with
  | created => .receipt id
  | timedOut _ => .timedOut
  | transportError _ => .transport
  | serverError statusCode _ _ => .http statusCode
  | malformedBody _ => .safety .malformedResponse
  | refused statusCode _ => .http statusCode

/-- One create call at the venue. -/
def Venue.create (env : VenueEnv) (v : Venue) (req : HummingbotOrderRequest) :
    CreateResponse × Venue :=
  let n := v.calls.length
  ((env.create n).response (env.mint n),
    { v with
      calls := v.calls ++ [req]
      accepted := if (env.create n).accepts then v.accepted ++ [⟨env.mint n, req⟩] else v.accepted })

/-- One order search at the venue: the rows, or nothing when it fails. -/
def Venue.search (env : VenueEnv) (v : Venue) : Option (List Row) × Venue :=
  (match env.query v.queries with
    | .unreachable => none
    | .answers status arrange _ => some (arrange (v.accepted.map fun o => o.row (status o))),
    { v with queries := v.queries + 1 })

@[simp] theorem row_order_id (v : VenueOrder) (status : String) :
    (v.row status).get? "order_id" = some (.str v.id) := rfl

@[simp] theorem row_trading_pair (v : VenueOrder) (status : String) :
    (v.row status).get? "trading_pair" = some (.str v.request.tradingPair) := rfl

@[simp] theorem row_trade_type (v : VenueOrder) (status : String) :
    (v.row status).get? "trade_type" = some (.str v.request.tradeType) := rfl

@[simp] theorem row_amount (v : VenueOrder) (status : String) :
    (v.row status).get? "amount" = some (.num v.request.amount) := rfl

end TraderStack
