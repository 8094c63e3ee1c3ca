import TraderStack.Execution.Submitter
import TraderStack.Service.Pipeline

/-!
# The paper service (runtime.py, service.py)

One symbol cycle of `ContinuousPaperService`, one reconciliation pass, and the
restart that reloads the two durable files. A cycle snapshots the book, decides,
submits to the venue or fills on paper, marks, and writes the checkpoint; an
exception anywhere ends it, with everything before it done. A pass reads the
venue into the records and decides whether new risk is blocked.

What reaches the service from outside (the tick, the verdicts, the venue's
payloads, whether the audit log could be written) is the input of an event. The
ledger file and the checkpoint are written at different points, and a crash can
come after any of these writes.
-/

namespace TraderStack

open Lib

/-- Why a cycle or a pass ended early. -/
inductive ServiceError where
  | book (e : BookError)
  | noTick
  | symbolMismatch
  | pipeline (e : PipelineError)
  | outsidePaperMode
  | noExecutor
  | submit (e : SubmitError)
  | paperFill (e : PaperFillError)
  | audit
  | reconcile (e : ReconcileError)
  | portfolioUnreachable

/-- A step of the service. -/
abbrev Service (α : Type) := Proc World ServiceError α

/-- `ContinuousPaperService` (service.py:65–720) with its runtime and the venue
it talks to. The ledger store, the checkpoint store and the audit trail are
always wired in. -/
structure ContinuousPaperService where
  pipeline : VerticalSlicePipeline
  submitter : Option IdempotentSubmitter
  reconciler : Option Reconciler
  paperFillSimulator : Option PaperFillSimulator
  env : VenueEnv
  submit : Bool
  diagnosticMode : Bool
  startingNavUsd : ℚ
  starting_pos : 0 < startingNavUsd

/-- What a symbol cycle finds: the market, unless no tick came; the halt and the
breaker as they are now; whether the meta-agent's review withholds an entry; and
whether the audit record can be appended. -/
structure CycleInput where
  symbol : String
  market : Option MarketInput
  now : Time
  killSwitch : Option KillSwitch
  circuitBreaker : Option StrategyCircuitBreaker
  reviewWithholds : Bool
  auditFails : Bool

/-- What a reconciliation pass finds: the venue's order and trade payloads and
the NAV drift it reports, each unless the venue did not answer. -/
structure PassInput where
  payloads : Option (Payload × Payload)
  drift : Option (List String)
  now : Time

namespace World

/-- Replace the in-memory book. -/
def withBook (w : World) (b : PortfolioBook) : World :=
  { w with accounts := { w.accounts with book := b } }

/-- `checkpoint_store.save(portfolio)`, of the book's state. -/
def saveCheckpoint (w : World) (s : PortfolioBook.PortfolioState) : World :=
  { w with checkpointFile := some s, checkpointLedger := w.ledger }

end World

/-- `reduce_only_quantity` (runtime.py:78–91). -/
def reduceOnlyQuantity (portfolio : PortfolioSnapshot) (intent : PaperOrderIntent) : Option ℚ :=
  if !intent.reduceOnly then none
  else
    some ((portfolio.heldPositions.get? (Text.upper intent.asset)).elim 0 HeldPosition.quantity)

namespace ContinuousPaperService

/-- Take one step on the records; an exception leaves them as the step did. -/
def onAccounts {ε α : Type} (f : Accounts → Except ε α × Accounts) (raised : ε → ServiceError) :
    Service α :=
  Proc.exec fun w => ((f w.accounts).1.mapError raised, { w with accounts := (f w.accounts).2 })

/-- `portfolio.snapshot()`. -/
def snapshot (now : Time) : Service PortfolioSnapshot :=
  onAccounts (fun a => ((a.book.snapshot now).1, { a with book := (a.book.snapshot now).2 })) .book

/-- `portfolio.mark(asset, price)`. -/
def mark (asset : String) (priceUsd : ℚ) : Service PUnit :=
  onAccounts (fun a =>
    match a.book.mark asset priceUsd with
    | .error e => (.error e, a)
    | .ok b => (.ok ⟨⟩, { a with book := b })) .book

/-- `ledger_store.save(ledger)`. -/
def saveLedger : Service PUnit := Proc.effect fun w => (⟨⟩, w.saveLedger)

/-- `on_portfolio(portfolio)` (checkpoint.py:22–27): the state is taken before
the file is written. -/
def checkpoint : Service PUnit := do
  let w ← Proc.get
  match w.accounts.book.state with
  | .error e => Proc.raise (.book e)
  | .ok s => Proc.effect fun w => (⟨⟩, w.saveCheckpoint s)

variable (svc : ContinuousPaperService)

/-- The pipeline under the halt and the breaker of the moment. -/
def pipelineAt (input : CycleInput) : VerticalSlicePipeline :=
  { svc.pipeline with
    riskEngine :=
      { svc.pipeline.riskEngine with
        killSwitch := input.killSwitch
        circuitBreaker := input.circuitBreaker } }

/-- The trading mode of the settings. -/
def tradingMode : TradingMode := svc.pipeline.riskEngine.settings.tradingMode

/-- `submission_enabled` (service.py:329–341). -/
def submissionEnabled (w : World) : Bool :=
  svc.submit && !w.reconciliationBlocked && !svc.diagnosticMode

/-- The arguments of the submitter (runtime.py:307–317): cross the spread, and
bound an exit by the snapshot it was decided on. -/
def submitCall (portfolio : PortfolioSnapshot) (tick : MarketTick) (intent : PaperOrderIntent)
    (now : Time) : SubmitCall where
  intent := intent
  executionPriceUsd :=
    match intent.side with
    | .buy => tick.ask
    | .sell => tick.bid
  referencePriceUsd := tick.last
  maxQuantity := reduceOnlyQuantity portfolio intent
  now := now

/-- Submit an intent to the venue (runtime.py:287–326). In shadow mode nothing
reaches the venue. -/
def submitIntent (portfolio : PortfolioSnapshot) (tick : MarketTick) (intent : PaperOrderIntent)
    (now : Time) : Service PUnit := do
  let w ← Proc.get
  if svc.tradingMode = .shadow || !svc.submissionEnabled w then
    return
  else if svc.tradingMode ≠ .paper then
    Proc.raise .outsidePaperMode
  else
    match svc.submitter with
    | none => Proc.raise .noExecutor
    | some s => do
      let _ ← Proc.mapError .submit (s.submit svc.env (submitCall portfolio tick intent now))
      return

/-- The meta-agent's review (agents/review.py:389–423) can only withhold an
order, and never a protective exit. -/
def reviewed (input : CycleInput) (r : PipelineResult) : PipelineResult :=
  if input.reviewWithholds && r.exitReason.isNone then { r with paperOrder := none } else r

/-- `run_once` (runtime.py:135–350) on a snapshot: the tick and the pipeline's
result. -/
def runOnce (input : CycleInput) (portfolio : PortfolioSnapshot) :
    Service (MarketTick × PipelineResult) :=
  match input.market with
  | none => Proc.raise .noTick
  | some i =>
    if i.tick.symbol ≠ input.symbol then Proc.raise .symbolMismatch
    else
      match (svc.pipelineAt input).process i portfolio with
      | .error e => Proc.raise (.pipeline e)
      | .ok r => do
        let r := reviewed input r
        match r.paperOrder with
        | none => return (i.tick, r)
        | some intent => do
          svc.submitIntent portfolio i.tick intent input.now
          return (i.tick, r)

/-- Snapshot, decide and submit (service.py:229–235). -/
def decideAndSubmit (input : CycleInput) : Service (MarketTick × PipelineResult) := do
  let portfolio ← snapshot input.now
  svc.runOnce input portfolio

/-- The order a paper fill is due for (service.py:363–430), with the simulator:
only in paper mode, and under every gate of new risk. -/
def paperFillDue (input : CycleInput) (r : PipelineResult) (w : World) :
    Option (PaperFillSimulator × PaperOrderIntent) :=
  if svc.tradingMode ≠ .paper || svc.diagnosticMode || input.killSwitch.any KillSwitch.engaged
    || w.reconciliationBlocked then none
  else
    match svc.paperFillSimulator, r.paperOrder with
    | some sim, some intent => some (sim, intent)
    | _, _ => none

/-- `_maybe_apply_paper_fill` (service.py:386–449). -/
def applyPaperFill (input : CycleInput) (tick : MarketTick) (r : PipelineResult) :
    Service PUnit := do
  let w ← Proc.get
  match svc.paperFillDue input r w with
  | none => return
  | some (sim, intent) => do
    let _ ← onAccounts (sim.apply intent tick.mid input.now) .paperFill
    saveLedger

/-- Mark what was accepted (service.py:239–246): rejected market data moves
nothing. -/
def markTick (tick : MarketTick) (r : PipelineResult) : Service PUnit :=
  if r.acceptedMarketData then mark tick.asset tick.last else return

/-- Snapshot, audit and checkpoint (service.py:247–312). -/
def closeCycle (input : CycleInput) : Service PUnit := do
  let _ ← snapshot input.now
  if input.auditFails then
    Proc.raise .audit
  else
    checkpoint

/-- `_run_symbol_safely` (service.py:226–325). -/
def cycle (input : CycleInput) : Service PUnit := do
  let (tick, r) ← svc.decideAndSubmit input
  svc.applyPaperFill input tick r
  markTick tick r
  closeCycle input

/-- The execution half of a pass (service.py:690–699): is it clean? -/
def reconcileExecution (input : PassInput) : Service Bool :=
  match svc.reconciler with
  | none => return true
  | some c =>
    match input.payloads with
    | none => Proc.raise (.reconcile .unreachable)
    | some (orders, trades) => do
      let result ← onAccounts (c.reconcileState orders trades input.now) .reconcile
      saveLedger
      if 0 < result.appliedFills then
        checkpoint
      return result.matched

/-- The portfolio half (service.py:700–702). -/
def reconcilePortfolio (input : PassInput) : Service Bool :=
  match input.drift with
  | none => Proc.raise .portfolioUnreachable
  | some reasons => return reasons.isEmpty

/-- `record_reconciliation_success` and `record_reconciliation_failure`
(health.py:73–76). -/
def setBlocked (blocked : Bool) : Service PUnit :=
  Proc.modify fun w => { w with reconciliationBlocked := blocked }

/-- `reconcile_now` (service.py:680–711): whatever is not a clean pass blocks new
risk. -/
def reconcileNow (input : PassInput) : Service PUnit :=
  Proc.handle
    (do
      let execution ← svc.reconcileExecution input
      let portfolio ← reconcilePortfolio input
      setBlocked !(execution && portfolio))
    fun _ => setBlocked true

/-! ## Runs -/

/-- The book a process starts with. -/
def startingBook : PortfolioBook := .fresh svc.startingNavUsd svc.starting_pos

/-- `load_persisted_state` (cli.py:147–181) in a new process: each file on its
own, and a missing one is a fresh start. -/
def restart (w : World) : World :=
  { w with
    accounts :=
      { ledger := w.ledgerFile.getD .empty
        book := w.checkpointFile.elim svc.startingBook PortfolioBook.fromState }
    reconciliationBlocked := false }

/-- The service before its first cycle. -/
def start : World := .fresh svc.startingBook

/-- What the service does: a symbol cycle or a reconciliation pass, each crashing
after its k-th durable write or call, or not at all. -/
inductive Event where
  | cycle (input : CycleInput) (crash : Option ℕ)
  | reconcile (input : PassInput) (crash : Option ℕ)

/-- The world after an event. -/
def step (w : World) : Event → World
  | .cycle input crash => (svc.cycle input w).after svc.restart crash
  | .reconcile input crash => (svc.reconcileNow input w).after svc.restart crash

end ContinuousPaperService

end TraderStack
