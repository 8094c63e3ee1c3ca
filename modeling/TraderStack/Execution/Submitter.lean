import TraderStack.Execution.Hummingbot

/-!
# Idempotent submission (submitter.py)

`IdempotentSubmitter.submit` over a world of in-memory records, the persisted
ledger file and the venue. Saving the ledger and calling the venue are effects:
after each of them the process can crash, and a restart reloads what was saved.

The order a call works on is passed along by value; every mutation of it is
stored back into the ledger (`putOrder`), which is what mutating the ledger's
own object does.
-/

namespace TraderStack

open Lib

/-- The process's records and its two durable files, whether reconciliation
blocks new risk, and the venue. Two fields are kept for the proofs only: which
venue row grounded the adoption of which order, and the ledger as it was when the
checkpoint was last written. -/
structure World where
  accounts : Accounts
  ledgerFile : Option ExecutionLedger
  checkpointFile : Option PortfolioBook.PortfolioState
  reconciliationBlocked : Bool
  venue : Venue
  adoptions : List (Row × String)
  checkpointLedger : ExecutionLedger

namespace World

/-- A process that has done nothing: no ledger, no file, a venue nobody called. -/
def fresh (book : PortfolioBook) : World where
  accounts := ⟨.empty, book⟩
  ledgerFile := none
  checkpointFile := none
  reconciliationBlocked := false
  venue := .empty
  adoptions := []
  checkpointLedger := .empty

/-- The in-memory ledger. -/
abbrev ledger (w : World) : ExecutionLedger := w.accounts.ledger

/-- Replace the in-memory ledger. -/
def withLedger (w : World) (l : ExecutionLedger) : World :=
  { w with accounts := { w.accounts with ledger := l } }

/-- `ledger_store.save(ledger)`. -/
def saveLedger (w : World) : World := { w with ledgerFile := some w.ledger }

/-- Reload the persisted ledger; a missing file is a fresh start. -/
def reloadLedger (w : World) : World := w.withLedger (w.ledgerFile.getD .empty)

@[simp] theorem ledger_withLedger (w : World) (l : ExecutionLedger) :
    (w.withLedger l).ledger = l := rfl

@[simp] theorem venue_withLedger (w : World) (l : ExecutionLedger) :
    (w.withLedger l).venue = w.venue := rfl

@[simp] theorem ledger_saveLedger (w : World) : w.saveLedger.ledger = w.ledger := rfl

@[simp] theorem venue_saveLedger (w : World) : w.saveLedger.venue = w.venue := rfl

end World

/-- `SubmissionStatus` (submitter.py:58–78). -/
inductive SubmissionStatus where
  | submitted
  | duplicate
  | adopted
  | planRejected
  | rejected
  | uncertain
  | invalidExitSize
deriving DecidableEq, Repr

/-- `SubmissionOutcome` (submitter.py:81–90); of the receipt, the order id. -/
structure SubmissionOutcome where
  status : SubmissionStatus
  reason : Option Reason
  receipt : Option String
  plan : Option ExecutionPlan
deriving DecidableEq

/-- An outcome with a status and a reason. -/
def SubmissionOutcome.of (status : SubmissionStatus) (reason : Reason) : SubmissionOutcome :=
  ⟨status, some reason, none, none⟩

/-- Why `submit` raised. The model's retry loop runs on a budget; `outOfBudget`
is its exhaustion, which no call reaches. -/
inductive SubmitError where
  | ledger (e : LedgerError)
  | outOfBudget
deriving DecidableEq

/-- `IdempotentSubmitter` (submitter.py:95–356). `resolver` says whether a
reconciler is wired in; the ledger store always is. -/
structure IdempotentSubmitter where
  executor : HummingbotPaperExecutor
  planner : ExecutionPlanner
  resolver : Bool
  timeoutSeconds : ℚ
  maxRetries : ℕ
  tradingMode : TradingMode

/-- The arguments of one `submit` call, and the clock it reads. -/
structure SubmitCall where
  intent : PaperOrderIntent
  executionPriceUsd : ℚ
  referencePriceUsd : ℚ
  maxQuantity : Option ℚ
  now : Time

/-- A step of the submitter. -/
abbrev Submit (α : Type) := Proc World SubmitError α

namespace IdempotentSubmitter

/-! ## Steps -/

/-- `_persist` (submitter.py:354–356). -/
def persist : Submit PUnit := Proc.effect fun w => (⟨⟩, w.saveLedger)

/-- Store a mutated order. -/
def putOrder (o : ExecutionOrder) : Submit PUnit :=
  Proc.modify fun w => w.withLedger (w.ledger.put o)

/-- `_transition` (submitter.py:348–352): the order in its new state. -/
def transition (o : ExecutionOrder) (state : OrderLifecycleState) (reason : Option Reason)
    (now : Time) : Submit ExecutionOrder :=
  match o.transition state now with
  | .error e => Proc.raise (.ledger e)
  | .ok o => do
    let o := { o with reason := reason }
    putOrder o
    return o

/-- A create call. -/
def postOrder (env : VenueEnv) (req : HummingbotOrderRequest) : Submit CreateResponse :=
  Proc.effect fun w =>
    let (response, venue) := w.venue.create env req
    (response, { w with venue := venue })

/-- An order search. -/
def searchOrders (env : VenueEnv) : Submit (Option (List Row)) :=
  Proc.effect fun w =>
    let (rows, venue) := w.venue.search env
    (rows, { w with venue := venue })

/-- Note which row grounded an adoption. -/
def noteAdoption (row : Row) (o : ExecutionOrder) : Submit PUnit :=
  Proc.modify fun w => { w with adoptions := w.adoptions ++ [(row, o.orderId)] }

variable (s : IdempotentSubmitter) (env : VenueEnv)

/-- `_call` (submitter.py:290–298): `executor.submit` under a timeout. The
request is built again; its refusal counts as an answer. -/
def call (intent : PaperOrderIntent) (plan : ExecutionPlan) : Submit CreateResponse :=
  match s.executor.buildRequest intent plan.executionPriceUsd s.tradingMode plan.quantity
      plan.clientOrderId with
  | .error e => return .safety e
  | .ok req => postOrder env req

/-! ## The retry gate -/

/-- `resolver.venue_knows_order(...)` for an order (submitter.py:259–266): the row
that shows it, if any, or `none` when the question went unanswered. -/
def venueKnows (o : ExecutionOrder) : Submit (Option (Option Row)) := do
  let rows ← searchOrders env
  let w ← Proc.get
  match rows with
  | none => return none
  | some rows =>
    match venueKnowsOrder w.ledger o.idempotencyKey
        (o.asset ++ "-" ++ s.planner.quoteCurrency) o.side.tradeType o.requestedQuantity rows with
    | .error _ => return none
    | .ok ground => return some ground

/-- `_gate_retry` (submitter.py:238–288): an outcome to hand back, or `none` when
the venue has been confirmed not to know the order. -/
def gateRetry (o : ExecutionOrder) (baseReason : Option Reason) (now : Time) :
    Submit (Option SubmissionOutcome) := do
  let reason := (baseReason <|> o.reason).getD .unknown
  if s.resolver = false then
    return some (.of .uncertain (.noReconciler reason))
  else
    match ← s.venueKnows env o with
    | none => return some (.of .uncertain (.reconciliationFailed reason))
    | some (some row) => do
      let o ← transition o .submitted (some .venueConfirmed) now
      noteAdoption row o
      persist
      return some (.of .adopted .venueKnows)
    | some none =>
      if s.maxRetries < o.submissionAttempts then do
        let exhausted := Reason.exhausted reason o.submissionAttempts
        let _ ← transition o .rejected (some exhausted) now
        persist
        return some (.of .rejected exhausted)
      else
        return none

/-! ## The retry loop -/

/-- What an answer means for the order (submitter.py:201–225). -/
inductive Answer where
  | accepted (orderId : String)
  | refused (statusCode : ℕ)
  | uncertain (reason : Reason)

/-- Only a 4xx is a definite no; a timeout, a 5xx, a transport failure and an
unreadable body leave the truth unknown. -/
def answerOf : CreateResponse → Answer
  | .receipt orderId => .accepted orderId
  | .http statusCode =>
    if statusCode < 500 then .refused statusCode else .uncertain (.http statusCode)
  | .timedOut => .uncertain (.timedOut s.timeoutSeconds)
  | .transport => .uncertain .transport
  | .safety e => .uncertain (.safety e)

/-- `_submit_with_retries` (submitter.py:191–236), on a budget of attempts. -/
def submitWithRetries (intent : PaperOrderIntent) (plan : ExecutionPlan) (now : Time) :
    ℕ → ExecutionOrder → Submit SubmissionOutcome
  | 0, _ => Proc.raise .outOfBudget
  | budget + 1, o => do
    let o := { o with submissionAttempts := o.submissionAttempts + 1 }
    putOrder o
    persist
    let response ← s.call env intent plan
    match s.answerOf response with
    | .accepted orderId => do
      let _ ← transition { o with venueOrderId := some orderId } .submitted none now
      persist
      return ⟨.submitted, none, some orderId, some plan⟩
    | .refused statusCode => do
      let _ ← transition o .rejected (some (.http statusCode)) now
      persist
      return ⟨.rejected, some (.http statusCode), none, some plan⟩
    | .uncertain reason => do
      let o ← transition o .submissionUncertain (some reason) now
      persist
      match ← s.gateRetry env o (some reason) now with
      | some outcome => return outcome
      | none => submitWithRetries intent plan now budget o

/-! ## submit -/

/-- `_resumable_order` (submitter.py:327–331). -/
def resumableOrder (l : ExecutionLedger) (decisionId : String) : Option ExecutionOrder :=
  (l.ordersForDecision decisionId).find? fun o => o.state = .submissionUncertain

/-- `_reduce_only_cap` (submitter.py:301–325). -/
def reduceOnlyCap (intent : PaperOrderIntent) (maxQuantity : Option ℚ)
    (resumed : Option ExecutionOrder) : Option ℚ :=
  if !intent.reduceOnly || intent.side ≠ .sell then none
  else
    match resumed, maxQuantity with
    | none, maxQuantity => maxQuantity
    | some o, none => some o.requestedQuantity
    | some o, some maxQuantity => some (min maxQuantity o.requestedQuantity)

/-- A refusal closes a resumed order (submitter.py:144–147 and its siblings). -/
def rejectResumed (resumed : Option ExecutionOrder) (reason : Reason) (now : Time) :
    Submit PUnit :=
  match resumed with
  | none => return
  | some o => do
    let _ ← transition o .rejected (some reason) now
    persist

/-- `_register` (submitter.py:333–345). -/
def register (plan : ExecutionPlan) (now : Time) : Submit ExecutionOrder := do
  let w ← Proc.get
  let o := PaperFillSimulator.plannedOrder plan now
  match w.ledger.registerOrder o with
  | .error e => Proc.raise (.ledger e)
  | .ok l => do
    Proc.modify fun w => w.withLedger l
    return o

/-- The order to send: a resumed one takes the re-planned quantity
(submitter.py:179–187). -/
def orderToSend (resumed : Option ExecutionOrder) (plan : ExecutionPlan) (now : Time) :
    Submit ExecutionOrder :=
  match resumed with
  | none => register plan now
  | some o => do
    let o := { o with requestedQuantity := plan.quantity, requested_pos := plan.quantity_pos }
    putOrder o
    return o

/-- Plan, pre-flight, record and send (submitter.py:133–189). -/
def proceed (c : SubmitCall) (resumed : Option ExecutionOrder) : Submit SubmissionOutcome :=
  match s.planner.plan c.intent c.executionPriceUsd c.referencePriceUsd
      (reduceOnlyCap c.intent c.maxQuantity resumed) with
  | .error r => do
    rejectResumed resumed (.planRejected r) c.now
    return .of (if r.exitSizing then .invalidExitSize else .planRejected) (.planRejected r)
  | .ok plan =>
    match s.executor.buildRequest c.intent plan.executionPriceUsd s.tradingMode plan.quantity
        plan.clientOrderId with
    | .error e => do
      rejectResumed resumed (.safety e) c.now
      return ⟨.rejected, some (.safety e), none, some plan⟩
    | .ok _ => do
      let o ← orderToSend resumed plan c.now
      persist
      s.submitWithRetries env c.intent plan c.now (s.maxRetries + 1) o

/-- `submit` (submitter.py:108–189). -/
def submit (c : SubmitCall) : Submit SubmissionOutcome := do
  let w ← Proc.get
  match resumableOrder w.ledger c.intent.decisionId with
  | none =>
    if w.ledger.hasOrderForDecision c.intent.decisionId then
      return .of .duplicate (.duplicateDecision c.intent.decisionId)
    else s.proceed env c none
  | some o => do
    match ← s.gateRetry env o none c.now with
    | some outcome => return outcome
    | none => s.proceed env c (some o)

end IdempotentSubmitter

end TraderStack
