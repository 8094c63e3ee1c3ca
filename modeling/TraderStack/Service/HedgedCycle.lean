import TraderStack.Execution.PaperPerp
import TraderStack.Service.Cycle

/-!
# The paper service with its hedge book and its breaker (service.py, cli.py)

`build_service` wires more into the service than a cycle of `Service.Cycle`
reads: the paper perp book a filled order is hedged in, the carry path that opens
a hedge of its own, and the strategy circuit breaker the risk engine asks. Here a
cycle runs over all of these; its decision, its submission and its marks are the
steps of `Service.Cycle`, taken on the `world` part.

The venue's perp mids and funding tapes come from outside and are part of the
cycle's input. A restart reloads the breaker from the checkpoint; the hedge book
is not saved anywhere.
-/

namespace TraderStack

open Lib

/-- `PaperPerpQuote` (paper_perp_feed.py:58–64), what the cycle uses of it. -/
structure PerpQuote where
  venue : String
  midUsd : ℚ
  observedAt : Time

/-- `symbol.split("/", 1)[0].upper()`. -/
def symbolAsset (symbol : String) : String :=
  Text.upper (String.ofList (symbol.toList.takeWhile (· ≠ '/')))

/-- `CARRY_DIAGNOSTIC_NOTIONAL_USD`. -/
def carryDiagnosticNotionalUsd : ℚ := 100

/-- A closing paper fill: the strategy that opened the position, and the PnL the
book realised, net of the fee. -/
structure RealizedClose where
  strategyId : String
  pnlUsd : ℚ
  closedAt : Time

/-- The `World` of a process, its hedge book, the breaker of its risk engine and
the breaker states of the checkpoint. Two fields are kept for the proofs only:
which strategy opened the position in an asset, and what the closing paper fills
realised. -/
structure HedgedWorld where
  world : World
  perp : PaperPerpBook
  perpVenue : Dict String String
  perpLastFundingAt : Dict String Time
  cycle : ℕ
  circuitBreaker : StrategyCircuitBreaker
  checkpointBreakers : Dict String StrategyBreakerState
  openedBy : Dict String String
  closes : List RealizedClose

/-- What a symbol cycle finds, with the answers of the perp feed: the mid a spot
fill is hedged at, the funding prints since the last one and the mid they are
valued at, and the mid and the last prints of the carry path. `none` where the
feed failed or had no mid. The breaker is the service's own. -/
structure HedgedCycleInput extends CycleInput where
  hedgeQuote : Option PerpQuote
  fundingTape : Option (List (Time × ℚ))
  fundingQuote : Option PerpQuote
  carryQuote : Option PerpQuote
  carryTape : Option (List (Time × ℚ))

/-- Why a cycle ended early. -/
inductive HedgedError where
  | service (e : ServiceError)
  | perp (e : PaperPerpError)

/-- A step of the hedged service. -/
abbrev HedgedStep (α : Type) := Proc HedgedWorld HedgedError α

/-- `ContinuousPaperService` as `build_service` wires it (cli.py:500–888): its
perp settings, and the breaker `from_settings` makes. -/
structure HedgedPaperService extends ContinuousPaperService where
  perpHedge : Bool
  perpFeeBps : ℚ
  perpSlippageBps : ℚ
  promoteHarvestSignHold : Bool
  carryHedgeDiagnostic : Bool
  circuitBreaker : StrategyCircuitBreaker
  perpFee_nonneg : 0 ≤ perpFeeBps
  perpSlippage_nonneg : 0 ≤ perpSlippageBps
  circuitBreaker_new : circuitBreaker.states = Dict.empty

namespace HedgedWorld

/-- Replace the `World`. -/
def withWorld (h : HedgedWorld) (w : World) : HedgedWorld := { h with world := w }

/-- Replace the hedge book and the ledger. -/
def withHedge (h : HedgedWorld) (perp : PaperPerpBook) (ledger : ExecutionLedger) : HedgedWorld :=
  { h with perp := perp, world := h.world.withLedger ledger }

/-- The venue and the time of an applied hedge (service.py:554–556, 606–608). -/
def noteQuote (h : HedgedWorld) (asset : String) (quote : PerpQuote) : HedgedWorld :=
  { h with
    perpVenue := h.perpVenue.set asset quote.venue
    perpLastFundingAt := h.perpLastFundingAt.set asset quote.observedAt }

/-- Note a paper fill: who opened a position, or what closing it realised. -/
def noteFill (h : HedgedWorld) (before : PortfolioBook) (strategyId : String)
    (fill : ExecutionFill) (now : Time) : HedgedWorld :=
  let asset := Text.upper fill.asset
  match fill.side with
  | .buy =>
    if before.heldQuantity asset = 0 then { h with openedBy := h.openedBy.set asset strategyId }
    else h
  | .sell =>
    { h with
      closes := h.closes ++
        [⟨(h.openedBy.get? asset).getD "",
          h.world.accounts.book.realizedPnlUsd - before.realizedPnlUsd, now⟩] }

end HedgedWorld

/-- The input a decision is made on: with the breaker of the moment. -/
def HedgedCycleInput.judged (input : HedgedCycleInput) (h : HedgedWorld) : CycleInput :=
  { input.toCycleInput with circuitBreaker := some h.circuitBreaker }

/-- The decision of a cycle on a book, if it comes to one. -/
def ContinuousPaperService.decision (svc : ContinuousPaperService) (input : CycleInput)
    (b : PortfolioBook) : Option PipelineResult :=
  match (b.snapshot input.now).1, input.market with
  | .ok portfolio, some i =>
    if i.tick.symbol ≠ input.symbol then none
    else ((svc.pipelineAt input).process i portfolio).toOption
  | _, _ => none

namespace HedgedPaperService

/-- Take a step of the service on its `World`. -/
def onWorld {α : Type} (p : Service α) : HedgedStep α :=
  Proc.mapError .service (Proc.zoom HedgedWorld.world HedgedWorld.withWorld p)

variable (svc : HedgedPaperService)

/-! ## The decision and the breaker -/

/-- The breaker after the risk engine has asked it: for a proposal that is no exit,
and not while halted (risk.py:187–262). -/
def consulted (input : HedgedCycleInput) (h : HedgedWorld) : StrategyCircuitBreaker :=
  match (svc.toContinuousPaperService.decision (input.judged h) h.world.accounts.book).bind
      PipelineResult.proposal, input.market with
  | some proposal, some i =>
    if (svc.pipelineAt (input.judged h)).riskEngine.halted
      || isExitStrategyId proposal.strategyId then h.circuitBreaker
    else (h.circuitBreaker.isTripped proposal.strategyId i.now).2
  | _, _ => h.circuitBreaker

/-- Decide and submit; the breaker is asked on the way. -/
def decideAndSubmit (input : HedgedCycleInput) : HedgedStep (MarketTick × PipelineResult) := do
  let h ← Proc.get
  Proc.modify fun h => { h with circuitBreaker := svc.consulted input h }
  onWorld (svc.toContinuousPaperService.decideAndSubmit (input.judged h))

/-! ## Hedges -/

/-- Hedge a fill at a venue's mid and note where (service.py:548–556, 600–608). -/
def openHedge (input : HedgedCycleInput) (fill : ExecutionFill) (quote : Option PerpQuote)
    (decisionId : String) : HedgedStep PUnit :=
  Proc.exec fun h =>
    match h.perp.maybeHedgeSpotFill input.killSwitch fill (quote.map PerpQuote.midUsd) decisionId
        input.now h.world.ledger with
    | (.error e, perp, ledger) => (.error (.perp e), h.withHedge perp ledger)
    | (.ok out, perp, ledger) =>
      match quote with
      | some quote =>
        if out.applied then
          (.ok ⟨⟩, (h.withHedge perp ledger).noteQuote (Text.upper fill.asset) quote)
        else (.ok ⟨⟩, h.withHedge perp ledger)
      | none => (.ok ⟨⟩, h.withHedge perp ledger)

/-- The strategy of a result's proposal. -/
def strategyOf (r : PipelineResult) : String := r.proposal.elim "" TradeProposal.strategyId

/-- `_maybe_apply_paper_fill` with its hedge (service.py:386–449, 578–620). -/
def applyPaperFill (input : HedgedCycleInput) (tick : MarketTick) (r : PipelineResult) :
    HedgedStep PUnit := do
  let h ← Proc.get
  match svc.paperFillDue input.toCycleInput r h.world with
  | none => return
  | some (sim, intent) => do
    let out ← onWorld
      (ContinuousPaperService.onAccounts (sim.apply intent tick.mid input.now) .paperFill)
    match out.fill with
    | none => onWorld ContinuousPaperService.saveLedger
    | some fill => do
      Proc.modify fun h' =>
        h'.noteFill h.world.accounts.book (strategyOf r) fill input.now
      onWorld ContinuousPaperService.saveLedger
      if svc.perpHedge then openHedge input fill input.hedgeQuote intent.decisionId
      else return

/-- `_maybe_apply_paper_perp_funding` (service.py:622–667). -/
def funded (input : HedgedCycleInput) (h : HedgedWorld) : HedgedWorld :=
  let asset := symbolAsset input.symbol
  match h.perp.positions.get? asset, h.perpVenue.get? asset, h.perpLastFundingAt.get? asset,
      input.fundingTape with
  | some _, some venue, some _, some (first :: rest) =>
    let mark := (input.fundingQuote.filter fun quote => quote.venue = venue).map PerpQuote.midUsd
    let (out, perp) := h.perp.applyFunding input.killSwitch (first :: rest) asset mark
    if out.applied then
      { h with
        perp := perp
        perpLastFundingAt := h.perpLastFundingAt.set asset
          ((rest.map Prod.fst).foldl max first.1) }
    else { h with perp := perp }
  | _, _, _, _ => h

/-- Apply the new funding prints of the symbol's hedge. -/
def applyPerpFunding (input : HedgedCycleInput) : HedgedStep PUnit :=
  Proc.modify fun h => if svc.perpHedge then funded input h else h

/-- `paper_promote_fund_z_harvest_sign_hold_active or paper_carry_hedge_diagnostic`, in
paper mode (service.py:462–467). -/
def carryActive : Bool :=
  svc.perpHedge && (svc.tradingMode = .paper)
    && (svc.promoteHarvestSignHold || svc.carryHedgeDiagnostic)

theorem carry_quantity_pos {mid : ℚ} (h : ¬mid ≤ 0) : 0 < carryDiagnosticNotionalUsd / mid :=
  div_pos (by norm_num [carryDiagnosticNotionalUsd]) (not_le.mp h)

/-- The synthetic spot fill of the carry path (service.py:530–543). -/
def syntheticFill (asset : String) (side : Side) (mid : ℚ) (decisionId : String) (h : ¬mid ≤ 0) :
    ExecutionFill where
  fillId := "carry-diag-fill:" ++ decisionId
  orderId := decisionId
  asset := asset
  side := side
  quantity := carryDiagnosticNotionalUsd / mid
  priceUsd := mid
  feeUsd := 0
  feeSource := .modelled
  quantity_pos := carry_quantity_pos h
  price_pos := pos_of_check h
  fee_nonneg := zero_nonneg

/-- The decision id of the carry path. -/
def carryDecisionId (cycle : ℕ) (asset : String) : String :=
  "carry-diag-" ++ toString cycle ++ "-" ++ asset

/-- The fill the carry path asks to hedge (service.py:459–543): no hedge is open,
the venue has a mid, and its last funding rate pays a side. -/
def carryFill (input : HedgedCycleInput) (h : HedgedWorld) : Option (PerpQuote × ExecutionFill) :=
  let asset := symbolAsset input.symbol
  if !svc.carryActive || (h.perp.positions.get? asset).isSome then none
  else
    match input.carryQuote, input.carryTape.bind List.getLast? with
    | some quote, some (_, rate) =>
      if hmid : quote.midUsd ≤ 0 then none
      else
        (carryHedgedSignSpotSide rate).map fun side =>
          (quote, syntheticFill asset side quote.midUsd (carryDecisionId h.cycle asset) hmid)
    | _, _ => none

/-- `_maybe_open_carry_diagnostic_hedge` (service.py:451–576). It asks neither for
diagnostic mode nor for reconciliation. -/
def openCarryHedge (input : HedgedCycleInput) : HedgedStep PUnit := do
  let h ← Proc.get
  match svc.carryFill input h with
  | none => return
  | some (quote, fill) => openHedge input fill (some quote) fill.orderId

/-! ## The end of a cycle -/

/-- `checkpoint_store.save` (checkpoint.py:22–27): the book and the breaker in one
document. -/
def checkpoint : HedgedStep PUnit := do
  let h ← Proc.get
  match h.world.accounts.book.state with
  | .error e => Proc.raise (.service (.book e))
  | .ok s =>
    Proc.effect fun h =>
      (⟨⟩, { h with
        world := h.world.saveCheckpoint s
        checkpointBreakers := h.circuitBreaker.states })

/-- Snapshot, audit and checkpoint (service.py:252–307). -/
def closeCycle (input : HedgedCycleInput) : HedgedStep PUnit := do
  let _ ← onWorld (ContinuousPaperService.snapshot input.now)
  if input.auditFails then
    Proc.raise (.service .audit)
  else
    checkpoint

/-- `_run_symbol_safely` (service.py:226–325). -/
def cycle (input : HedgedCycleInput) : HedgedStep PUnit := do
  Proc.modify fun h => { h with cycle := h.cycle + 1 }
  let (tick, r) ← svc.decideAndSubmit input
  svc.applyPaperFill input tick r
  svc.applyPerpFunding input
  svc.openCarryHedge input
  onWorld (ContinuousPaperService.markTick tick r)
  closeCycle input

/-! ## Passes -/

/-- The execution half of a pass (service.py:693–702). -/
def reconcileExecution (input : PassInput) : HedgedStep Bool :=
  match svc.reconciler with
  | none => return true
  | some c =>
    match input.payloads with
    | none => Proc.raise (.service (.reconcile .unreachable))
    | some (orders, trades) => do
      let result ← onWorld (ContinuousPaperService.onAccounts
        (c.reconcileState orders trades input.now) .reconcile)
      onWorld ContinuousPaperService.saveLedger
      if 0 < result.appliedFills then
        checkpoint
      return result.matched

/-- `reconcile_now` (service.py:680–711). -/
def reconcileNow (input : PassInput) : HedgedStep PUnit :=
  Proc.handle
    (do
      let execution ← svc.reconcileExecution input
      let portfolio ← onWorld (ContinuousPaperService.reconcilePortfolio input)
      onWorld (ContinuousPaperService.setBlocked !(execution && portfolio)))
    fun _ => onWorld (ContinuousPaperService.setBlocked true)

/-! ## Runs -/

/-- The hedge book of a new process. -/
def newPerp : PaperPerpBook :=
  .fresh svc.perpFeeBps svc.perpSlippageBps svc.perpFee_nonneg svc.perpSlippage_nonneg

/-- A new process: the files are reloaded, the breaker from the checkpoint
(checkpoint.py:38–39), and the hedge book is empty. -/
def restart (h : HedgedWorld) : HedgedWorld :=
  { h with
    world := svc.toContinuousPaperService.restart h.world
    perp := svc.newPerp
    perpVenue := Dict.empty
    perpLastFundingAt := Dict.empty
    cycle := 0
    circuitBreaker := { svc.circuitBreaker with states := h.checkpointBreakers } }

/-- The service before its first cycle. -/
def start : HedgedWorld where
  world := svc.toContinuousPaperService.start
  perp := svc.newPerp
  perpVenue := Dict.empty
  perpLastFundingAt := Dict.empty
  cycle := 0
  circuitBreaker := svc.circuitBreaker
  checkpointBreakers := Dict.empty
  openedBy := Dict.empty
  closes := []

/-- A symbol cycle or a reconciliation pass, each crashing after its k-th durable
write or call, or not at all. -/
inductive Event where
  | cycle (input : HedgedCycleInput) (crash : Option ℕ)
  | reconcile (input : PassInput) (crash : Option ℕ)

/-- The world after an event. -/
def step (h : HedgedWorld) : Event → HedgedWorld
  | .cycle input crash => (svc.cycle input h).after svc.restart crash
  | .reconcile input crash => (svc.reconcileNow input h).after svc.restart crash

/-- `run` (service.py:143–176): a durable-state error recorded at start halts the
service before its first cycle. -/
def serve (durableStateError : Option String) (h : HedgedWorld) (es : List Event) : HedgedWorld :=
  match durableStateError with
  | some _ => h
  | none => run svc.step h es

/-! ## Steps on the world and the hedge step -/

/-- An assertion that does not speak of the `World` is kept by every step on it. -/
theorem keeps_onWorld {α : Type} {I : HedgedWorld → Prop} (hI : ∀ h w, I h → I (h.withWorld w))
    (p : Service α) : Proc.Keeps I (onWorld p) := by
  refine Proc.Triple.mapError (R := fun _ => I) ?_ fun _ _ hs => hs
  refine Proc.Triple.zoom fun h hh s _ => ⟨?_, fun c _ => hI h c hh⟩
  split
  · exact hI h _ hh
  · exact hI h _ hh

/-- What a step of the service keeps of its `World`, it keeps here. -/
theorem keeps_onWorld_of {α : Type} {J : World → Prop} {p : Service α} (hp : Proc.Keeps J p) :
    Proc.Keeps (fun h : HedgedWorld => J h.world) (onWorld p) :=
  Proc.Triple.mapError (R := fun _ (h : HedgedWorld) => J h.world)
    (Proc.Keeps.zoom hp (fun _ hh => hh) fun _ _ _ hw => hw) fun _ _ hs => hs

/-- A pass keeps it too, if a checkpoint does. -/
theorem keeps_reconcileNow {I : HedgedWorld → Prop} (hI : ∀ h w, I h → I (h.withWorld w))
    (hcheckpoint : Proc.Keeps I checkpoint) (svc : HedgedPaperService) (input : PassInput) :
    Proc.Keeps I (svc.reconcileNow input) := by
  have hexecution : Proc.Keeps I (svc.reconcileExecution input) := by
    unfold reconcileExecution
    split
    · exact Proc.Keeps.pure _
    split
    · exact Proc.Keeps.raise _
    refine (keeps_onWorld hI _).bind fun _ => (keeps_onWorld hI _).bind fun _ => ?_
    split
    · exact hcheckpoint.bind fun _ => Proc.Keeps.pure _
    · exact Proc.Keeps.pure _
  refine Proc.Triple.handle (R := fun _ => I) ?_ fun _ => keeps_onWorld hI _
  exact hexecution.bind fun _ => (keeps_onWorld hI _).bind fun _ => keeps_onWorld hI _

/-- **The rule of the hedge step**: what holds after every result of the attempt,
noted or not, holds after the step. -/
theorem triple_openHedge {P Q : HedgedWorld → Prop} {C : HedgedWorld → Prop}
    {input : HedgedCycleInput} {fill : ExecutionFill} {quote : Option PerpQuote}
    {decisionId : String}
    (hhedge : ∀ h r perp ledger, P h → h.perp.maybeHedgeSpotFill input.killSwitch fill
        (quote.map PerpQuote.midUsd) decisionId input.now h.world.ledger = (r, perp, ledger) →
      Q (h.withHedge perp ledger) ∧
        ∀ asset quote, Q ((h.withHedge perp ledger).noteQuote asset quote)) :
    Proc.Triple P (openHedge input fill quote decisionId) (fun _ => Q) (fun _ => Q) C := by
  refine Proc.Triple.exec fun h hh => ?_
  rcases hresult : h.perp.maybeHedgeSpotFill input.killSwitch fill (quote.map PerpQuote.midUsd)
    decisionId input.now h.world.ledger with ⟨r, perp, ledger⟩
  obtain ⟨hQ, hnoted⟩ := hhedge h r perp ledger hh hresult
  cases r with
  | error e => exact hQ
  | ok out =>
    cases quote with
    | none => exact hQ
    | some quote =>
      dsimp only
      by_cases happlied : out.applied = true
      · rw [if_pos happlied]
        exact hnoted _ _
      · rw [if_neg happlied]
        exact hQ

/-! ## Without a hedge book -/

variable {svc}

/-- A step on the `World` is that step, seen there. -/
theorem projects_onWorld {α : Type} {P : HedgedWorld → Prop} (q : Service α) :
    Proc.Projects HedgedWorld.world .service P (onWorld q) q :=
  Proc.Projects.zoom (fun _ _ => rfl) q

theorem projects_decideAndSubmit (input : HedgedCycleInput) (h₀ : HedgedWorld) :
    Proc.Projects HedgedWorld.world .service (fun h => h.circuitBreaker = h₀.circuitBreaker)
      (svc.decideAndSubmit input)
      (svc.toContinuousPaperService.decideAndSubmit (input.judged h₀)) := by
  intro h hh
  have hjudged : input.judged h = input.judged h₀ := by rw [HedgedCycleInput.judged, hh]; rfl
  have hstep : Proc.Projects HedgedWorld.world HedgedError.service (fun _ => True)
      (Proc.modify (fun h => { h with circuitBreaker := svc.consulted input h }) >>= fun _ =>
        onWorld (svc.toContinuousPaperService.decideAndSubmit (input.judged h)))
      (svc.toContinuousPaperService.decideAndSubmit (input.judged h)) :=
    Proc.Projects.modify_bind (fun _ _ => ⟨rfl, trivial⟩)
      (projects_onWorld (P := fun _ => True) _)
  rw [← hjudged]
  exact hstep h trivial

theorem world_noteFill (h : HedgedWorld) (before : PortfolioBook) (strategyId : String)
    (fill : ExecutionFill) (now : Time) : (h.noteFill before strategyId fill now).world = h.world := by
  unfold HedgedWorld.noteFill
  dsimp only
  split
  · split <;> rfl
  · rfl

theorem projects_applyPaperFill {P : HedgedWorld → Prop} (hoff : svc.perpHedge = false)
    (input : HedgedCycleInput) (h₀ : HedgedWorld) (tick : MarketTick) (r : PipelineResult) :
    Proc.Projects HedgedWorld.world .service P (svc.applyPaperFill input tick r)
      (svc.toContinuousPaperService.applyPaperFill (input.judged h₀) tick r) := by
  refine Proc.Projects.get_bind fun h _ => ?_
  have hdue : svc.toContinuousPaperService.paperFillDue (input.judged h₀) r h.world
      = svc.paperFillDue input.toCycleInput r h.world := rfl
  rw [hdue]
  cases svc.paperFillDue input.toCycleInput r h.world with
  | none => exact Proc.Projects.pure _
  | some due =>
    refine Proc.Projects.bind (projects_onWorld _) fun out => ?_
    split
    · exact projects_onWorld _
    · refine Proc.Projects.modify_bind (Q := fun _ => True)
        (fun h' _ => ⟨world_noteFill h' _ _ _ _, trivial⟩) ?_
      rw [hoff]
      exact Proc.Projects.bind_pure (projects_onWorld _)

theorem projects_checkpoint {P : HedgedWorld → Prop} :
    Proc.Projects HedgedWorld.world .service P checkpoint ContinuousPaperService.checkpoint := by
  refine Proc.Projects.get_bind fun h _ => ?_
  cases h.world.accounts.book.state with
  | error e => exact Proc.Projects.raise _
  | ok s => exact Proc.Projects.effect (fun _ _ => rfl) fun _ _ => rfl

theorem projects_closeCycle {P : HedgedWorld → Prop} (input : HedgedCycleInput)
    (h₀ : HedgedWorld) :
    Proc.Projects HedgedWorld.world .service P (closeCycle input)
      (ContinuousPaperService.closeCycle (input.judged h₀)) := by
  refine Proc.Projects.bind (projects_onWorld _) fun _ => ?_
  show Proc.Projects _ _ _ (if input.auditFails = true then _ else _)
    (if input.auditFails = true then _ else _)
  split
  · exact Proc.Projects.raise _
  · exact projects_checkpoint

/-- **Without a hedge book** a cycle is a cycle of `Service.Cycle` on the `World`. -/
theorem projects_cycle (hoff : svc.perpHedge = false) (input : HedgedCycleInput)
    (h₀ : HedgedWorld) :
    Proc.Projects HedgedWorld.world .service (fun h => h = h₀) (svc.cycle input)
      (svc.toContinuousPaperService.cycle (input.judged h₀)) := by
  refine Proc.Projects.modify_bind (Q := fun h => h.circuitBreaker = h₀.circuitBreaker)
    (fun h hh => ⟨rfl, by rw [hh]⟩) ?_
  refine Proc.Projects.bind (projects_decideAndSubmit input h₀) fun ⟨tick, r⟩ => ?_
  refine Proc.Projects.bind (projects_applyPaperFill hoff input h₀ tick r) fun _ => ?_
  refine Proc.Projects.modify_bind (Q := fun _ => True) (fun h _ => ⟨?_, trivial⟩) ?_
  · rw [hoff]
    rfl
  have hcarry : svc.openCarryHedge input = (Pure.pure ⟨⟩ : HedgedStep PUnit) := by
    have hnone : ∀ h, svc.carryFill input h = none := by
      intro h
      unfold carryFill carryActive
      rw [hoff]
      rfl
    funext h
    show (match svc.carryFill input h with
      | none => (Pure.pure ⟨⟩ : HedgedStep PUnit)
      | some (quote, fill) => openHedge input fill (some quote) fill.orderId) h = _
    rw [hnone]
  rw [hcarry, Proc.pure_bind]
  exact Proc.Projects.bind (projects_onWorld _) fun _ => projects_closeCycle input h₀

theorem projects_reconcileNow (input : PassInput) {P : HedgedWorld → Prop} :
    Proc.Projects HedgedWorld.world .service P (svc.reconcileNow input)
      (svc.toContinuousPaperService.reconcileNow input) := by
  have hpass : Proc.Projects HedgedWorld.world .service P
      (do let execution ← svc.reconcileExecution input
          let portfolio ← onWorld (ContinuousPaperService.reconcilePortfolio input)
          onWorld (ContinuousPaperService.setBlocked !(execution && portfolio)))
      (do let execution ← svc.toContinuousPaperService.reconcileExecution input
          let portfolio ← ContinuousPaperService.reconcilePortfolio input
          ContinuousPaperService.setBlocked !(execution && portfolio)) := by
    refine Proc.Projects.bind ?_ fun execution =>
      Proc.Projects.bind (projects_onWorld _) fun _ => projects_onWorld _
    unfold reconcileExecution ContinuousPaperService.reconcileExecution
    cases svc.reconciler with
    | none => exact Proc.Projects.pure _
    | some c =>
      cases input.payloads with
      | none => exact Proc.Projects.raise _
      | some payloads =>
        refine Proc.Projects.bind (projects_onWorld _) fun result => ?_
        refine Proc.Projects.bind (projects_onWorld _) fun _ => ?_
        dsimp only
        split
        · exact Proc.Projects.bind projects_checkpoint fun _ => Proc.Projects.pure _
        · exact Proc.Projects.pure _
  exact Proc.Projects.handle hpass fun _ => projects_onWorld _

/-- **Every run without a hedge book** is, on the `World`, a run of
`Service.Cycle`, with the breaker of the moment as each cycle's input. -/
theorem exists_run_of_unhedged (hoff : svc.perpHedge = false) (es : List Event) :
    ∀ h, ∃ es', (run svc.step h es).world
      = run svc.toContinuousPaperService.step h.world es' := by
  induction es with
  | nil => exact fun h => ⟨[], rfl⟩
  | cons e es ih =>
    intro h
    obtain ⟨es', hes⟩ := ih (svc.step h e)
    cases e with
    | cycle input crash =>
      refine ⟨.cycle (input.judged h) crash :: es', hes.trans ?_⟩
      rw [run_cons]
      congr 1
      exact (projects_cycle hoff input h).after (fun _ => rfl) rfl crash
    | reconcile input crash =>
      refine ⟨.reconcile input crash :: es', hes.trans ?_⟩
      rw [run_cons]
      congr 1
      exact (projects_reconcileNow input (P := fun _ => True)).after (fun _ => rfl) trivial crash

end HedgedPaperService

end TraderStack
