import TraderStack.Portfolio.HoldingPeriod
import TraderStack.Service.Breaker
import TraderStack.Service.Durability

/-!
# The book of the service, as a run of its operations

Every book the service comes to, in memory or in the checkpoint, is a fresh one
after some fills, marks, snapshots and restarts (`BookRuns`). What is proved of all
runs of a book is then true of the service: the metadata of a position are those of
its holding period.

No fill the service books names a strategy (paper_fill.py:211, reconcile.py:232), so
no position is ever attributed to the one that opened it.

- `bookRuns_step`: the invariant;
- `attributed_iff_flat`: when the positions are attributed.
-/

namespace TraderStack

open Lib

/-! ## What the service does to a book -/

namespace PortfolioBook

/-- An operation of the service, its fills meeting `K` and naming no strategy. -/
inductive ServiceOp (K : ExecutionFill → Prop) : BookOp → Prop
  | fill (fill : ExecutionFill) (now : Time) (h : K fill) :
    ServiceOp K (.fill fill.asset fill.side fill.quantity fill.priceUsd fill.feeUsd now none)
  | mark (asset : String) (priceUsd : ℚ) : ServiceOp K (.mark asset priceUsd)
  | snapshot (now : Time) : ServiceOp K (.snapshot now)
  | restart : ServiceOp K .restart

variable {K : ExecutionFill → Prop} {b₀ b : PortfolioBook}

theorem ServiceOp.of_fill {asset : String} {side : Side} {quantity priceUsd feeUsd : ℚ}
    {now : Time} {strategyId : Option String}
    (h : ServiceOp K (.fill asset side quantity priceUsd feeUsd now strategyId)) :
    strategyId = none ∧ ∃ fill, K fill ∧ fill.side = side := by
  generalize hop : BookOp.fill asset side quantity priceUsd feeUsd now strategyId = op at h
  cases h with
  | fill fill now h =>
    cases hop
    exact ⟨rfl, fill, h, rfl⟩
  | mark => cases hop
  | snapshot => cases hop
  | restart => cases hop

/-- A book that operations of the service lead to. -/
def RunsTo (b₀ : PortfolioBook) (K : ExecutionFill → Prop) (b : PortfolioBook) : Prop :=
  ∃ ops, (∀ op ∈ ops, ServiceOp K op) ∧ run step b₀ ops = b

theorem RunsTo.refl (b₀ : PortfolioBook) : RunsTo b₀ K b₀ :=
  ⟨[], fun _ hop => absurd hop List.not_mem_nil, rfl⟩

theorem RunsTo.step (h : RunsTo b₀ K b) {op : BookOp} (hop : ServiceOp K op) :
    RunsTo b₀ K (b.step op) := by
  obtain ⟨ops, hops, rfl⟩ := h
  refine ⟨ops ++ [op], fun op' hmem => ?_, by rw [run_append, run_cons, run_nil]⟩
  rcases List.mem_append.mp hmem with hbefore | hlast
  · exact hops op' hbefore
  · rw [List.mem_singleton.mp hlast]
    exact hop

/-- What each operation keeps, the book has. -/
theorem RunsTo.invariant {I : PortfolioBook → Prop} (h : RunsTo b₀ K b)
    (hstep : ∀ b op, UpperKeyed b → ServiceOp K op → I b → I (b.step op))
    (hkeys : UpperKeyed b₀) (hI : I b₀) : I b := by
  obtain ⟨ops, hops, rfl⟩ := h
  induction ops generalizing b₀ with
  | nil => exact hI
  | cons op ops ih =>
    have hop := hops op List.mem_cons_self
    exact ih (upperKeyed_step b₀ op hkeys) (hstep b₀ op hkeys hop hI)
      fun op' hmem => hops op' (List.mem_cons_of_mem _ hmem)

/-- No position is attributed to a strategy. -/
def Unattributed (b : PortfolioBook) : Prop :=
  ∀ asset, (b.positionOf asset).entryStrategyId = none

/-- Every held position is attributed to the strategy that opened it. -/
def Attributed (openedBy : String → String) (b : PortfolioBook) : Prop :=
  ∀ asset, 0 < b.heldQuantity asset →
    (b.positionOf asset).entryStrategyId = some (openedBy asset)

/-- Nothing is held. -/
def Flat (b : PortfolioBook) : Prop := ∀ asset, b.heldQuantity asset = 0

theorem entryStrategyId_observe (p : Position) (price : ℚ) :
    (p.observe price).entryStrategyId = p.entryStrategyId := by
  rw [Position.observe]
  split <;> rfl

/-- A fill that names no strategy attributes nothing. -/
theorem unattributed_step (hkeys : UpperKeyed b) {op : BookOp} (hop : ServiceOp K op)
    (h : Unattributed b) : Unattributed (b.step op) := by
  intro asset
  have hmoved := moved_step hkeys asset op
  revert hmoved
  generalize (b.step op).positionOf asset = p
  rintro (_ | _ | ⟨_, quantity, price, fee, now, strategyId, _, hq, hp, hf, _⟩ |
    ⟨_, quantity, price, fee, now, strategyId, _, _, hs, hf, _⟩)
  · exact h asset
  · rw [entryStrategyId_observe]
    exact h asset
  · obtain ⟨rfl, -⟩ := hop.of_fill
    rw [entryStrategyId_observe]
    exact (ite_self _).trans (h asset)
  · rw [entryStrategyId_observe, Position.sell]
    dsimp only
    split
    · rfl
    · exact h asset

/-- Where nothing is bought, nothing comes to be held. -/
theorem flat_step (hK : ∀ fill, K fill → fill.side ≠ .buy) (hkeys : UpperKeyed b) {op : BookOp}
    (hop : ServiceOp K op) (h : Flat b) : Flat (b.step op) := by
  intro asset
  rw [heldQuantity]
  have hflat : (b.positionOf asset).quantity = 0 := h asset
  have hmoved := moved_step hkeys asset op
  revert hmoved
  generalize hposition : (b.step op).positionOf asset = p
  intro hmoved
  cases hmoved with
  | unseen => exact hflat
  | marked => exact (Position.observe_quantity _ _).trans hflat
  | bought a quantity price fee now strategyId =>
    obtain ⟨-, fill, hmeets, hside⟩ := hop.of_fill
    exact absurd hside (hK fill hmeets)
  | sold a quantity price fee now strategyId _ hq hs =>
    -- there is nothing to sell
    exact absurd (hq.trans_le hs) (by rw [hflat]; exact lt_irrefl 0)

/-- **An unattributed book is attributed when it is flat.** -/
theorem Unattributed.attributed_iff (h : Unattributed b) (openedBy : String → String) :
    Attributed openedBy b ↔ Flat b := by
  constructor
  · intro hall asset
    by_contra hheld
    have hpos := lt_of_le_of_ne (b.positionOf asset).quantity_nonneg (Ne.symm hheld)
    have hsome := hall asset hpos
    rw [h asset] at hsome
    cases hsome
  · intro hflat asset hheld
    rw [hflat asset] at hheld
    exact absurd hheld (lt_irrefl 0)

end PortfolioBook

/-! ## The book of the paper service -/

namespace ContinuousPaperService

open PortfolioBook

variable {svc : ContinuousPaperService} {K : ExecutionFill → Prop} {w : World}

/-- The book in memory and the one a restart reads are runs from a fresh one. -/
structure BookRuns (svc : ContinuousPaperService) (K : ExecutionFill → Prop) (w : World) :
    Prop where
  memory : RunsTo svc.startingBook K w.accounts.book
  saved : RunsTo svc.startingBook K (svc.savedBook w)

theorem bookRuns_start (svc : ContinuousPaperService) : BookRuns svc K svc.start :=
  ⟨.refl _, .refl _⟩

/-- An operation on the book, beside the same files. -/
theorem BookRuns.step (h : BookRuns svc K w) {op : BookOp} (hop : ServiceOp K op)
    {a : Accounts} (ha : a.book = w.accounts.book.step op) :
    BookRuns svc K { w with accounts := a } :=
  ⟨ha ▸ h.memory.step hop, h.saved⟩

theorem bookRuns_submitInvariant (s : IdempotentSubmitter) (env : VenueEnv) (c : SubmitCall) :
    SubmitInvariant s env c (BookRuns svc K) (fun _ _ => BookRuns svc K) where
  save := fun _ h => ⟨h.memory, h.saved⟩
  amend := fun _ _ _ h _ _ _ _ => ⟨h.memory, h.saved⟩
  register := fun _ _ _ h _ _ _ => ⟨h.memory, h.saved⟩
  send := fun _ _ _ h _ _ _ _ => ⟨⟨h.memory, h.saved⟩, fun _ _ => ⟨h.memory, h.saved⟩⟩
  receive := fun _ _ _ _ h _ _ => ⟨h.memory, h.saved⟩
  search := fun _ h => ⟨h.memory, h.saved⟩
  adopt := fun _ _ _ _ _ h _ _ _ _ _ => ⟨h.memory, h.saved⟩

theorem bookRuns_snapshot (now : Time) : Proc.Keeps (BookRuns svc K) (snapshot now) := by
  refine Proc.Triple.exec fun w hw => ?_
  have hstep := hw.step (.snapshot now) (a := { w.accounts with
    book := (w.accounts.book.snapshot now).2 }) rfl
  dsimp only
  split <;> exact hstep

theorem bookRuns_mark (asset : String) (price : ℚ) :
    Proc.Keeps (BookRuns svc K) (mark asset price) := by
  refine Proc.Triple.exec fun w hw => ?_
  dsimp only
  cases hmark : w.accounts.book.mark asset price with
  | error e => exact hw
  | ok b =>
    refine hw.step (.mark asset price) ?_
    rw [PortfolioBook.step, hmark]

theorem bookRuns_saveLedger : Proc.Keeps (BookRuns svc K) saveLedger :=
  Proc.Triple.effect fun _ hw => ⟨⟨hw.memory, hw.saved⟩, ⟨hw.memory, hw.saved⟩⟩

/-- What a checkpoint saves is the book, restarted. -/
theorem BookRuns.saveCheckpoint (h : BookRuns svc K w) {s : PortfolioState}
    (hs : w.accounts.book.state = .ok s) : BookRuns svc K (w.saveCheckpoint s) := by
  refine ⟨h.memory, ?_⟩
  have hstep := h.memory.step .restart
  rw [PortfolioBook.step, hs] at hstep
  exact hstep

theorem bookRuns_submitIntent (portfolio : PortfolioSnapshot) (tick : MarketTick)
    (intent : PaperOrderIntent) (now : Time) :
    Proc.Keeps (BookRuns svc K) (svc.submitIntent portfolio tick intent now) := by
  refine Proc.Keeps.get_bind fun w => ?_
  split
  · exact Proc.Keeps.pure _
  split
  · exact Proc.Keeps.raise _
  split
  · exact Proc.Keeps.raise _
  · rename_i s _
    refine Proc.Keeps.bind ?_ fun _ => Proc.Keeps.pure _
    exact (IdempotentSubmitter.triple_submit_of_invariant
      (bookRuns_submitInvariant s svc.env _)).mapError fun _ _ hw => hw

theorem bookRuns_decideAndSubmit (input : CycleInput) :
    Proc.Keeps (BookRuns svc K) (svc.decideAndSubmit input) := by
  refine Proc.Keeps.bind (bookRuns_snapshot input.now) fun portfolio => ?_
  unfold runOnce
  split
  · exact Proc.Keeps.raise _
  split
  · exact Proc.Keeps.raise _
  split
  · exact Proc.Keeps.raise _
  dsimp only
  split
  · exact Proc.Keeps.pure _
  · exact Proc.Keeps.bind (bookRuns_submitIntent _ _ _ _) fun _ => Proc.Keeps.pure _

theorem bookRuns_markTick (tick : MarketTick) (r : PipelineResult) :
    Proc.Keeps (BookRuns svc K) (markTick tick r) := by
  unfold markTick
  split
  · exact bookRuns_mark _ _
  · exact Proc.Keeps.pure _

/-! ### Fills -/

/-- A paper fill that is due in a world meets `K`. -/
def DueFillMeets (svc : ContinuousPaperService) (K : ExecutionFill → Prop) (input : CycleInput)
    (tick : MarketTick) (r : PipelineResult) (w : World) : Prop :=
  ∀ due ∈ svc.paperFillDue input r w, ∀ fill plan l',
    due.1.prepare due.2 tick.mid input.now w.accounts = (.fill fill plan, l') → K fill

/-- Applying an order books nothing, or the fill it prepared. -/
theorem BookRuns.apply (h : BookRuns svc K w) {sim : PaperFillSimulator}
    {intent : PaperOrderIntent} {midUsd : ℚ} {now : Time}
    (hmeets : ∀ fill plan l', sim.prepare intent midUsd now w.accounts = (.fill fill plan, l') →
      K fill) :
    BookRuns svc K { w with accounts := (sim.apply intent midUsd now w.accounts).2 } := by
  rcases happly : sim.apply intent midUsd now w.accounts with ⟨r, a'⟩
  cases PaperFillSimulator.applied_of_apply happly with
  | unrecorded => exact ⟨h.memory, h.saved⟩
  | recorded hprepare => exact h.step (.fill _ now (hmeets _ _ _ hprepare)) rfl

/-- The fill a trade row reports, if the ledger accepts it, meets `K`. -/
def RowMeets (c : Reconciler) (K : ExecutionFill → Prop) (a : Accounts) (row : Row) : Prop :=
  ∀ fill o, c.readTrade a.ledger row = .ok (some fill) →
    ExecutionLedger.Accepts a.ledger fill o → K fill

/-- **A pass** whose fills meet `K`, also when it raises part-way. -/
theorem BookRuns.reconcileState (h : BookRuns svc K w) {c : Reconciler} {now : Time}
    {orders trades : Payload}
    (hmeets : c.AlongPass now (RowMeets c K) (fun _ _ => True) orders trades w.accounts) :
    BookRuns svc K { w with accounts := (c.reconcileState orders trades now w.accounts).2 } := by
  refine Reconciler.reconcileState_invariant (I := fun a _ => BookRuns svc K { w with accounts := a })
    (j := []) ?_ (fun a _ row _ ha => ⟨ha.memory, ha.saved⟩) hmeets h
  intro a _ row hrow ha
  rcases htrade : c.tradeRow row now a with ⟨r, a'⟩
  rcases Reconciler.tradeRow_cases htrade with ⟨rfl, -⟩ | ⟨fill, o, hread, hrecorded, -⟩
  · exact ha
  · exact ha.step (.fill fill now (hrow fill o hread hrecorded.accepts)) hrecorded.book

end ContinuousPaperService

namespace HedgedPaperService

open PortfolioBook ContinuousPaperService

variable {svc : HedgedPaperService} {K : ExecutionFill → Prop} {h : HedgedWorld}

/-- The book runs of a process with a hedge book. -/
abbrev Books (svc : HedgedPaperService) (K : ExecutionFill → Prop) (h : HedgedWorld) : Prop :=
  BookRuns svc.toContinuousPaperService K h.world

theorem books_openHedge (input : HedgedCycleInput) (fill : ExecutionFill)
    (quote : Option PerpQuote) (decisionId : String) :
    Proc.Keeps (Books svc K) (openHedge input fill quote decisionId) :=
  triple_openHedge fun _ _ _ _ hh _ =>
    ⟨⟨hh.memory, hh.saved⟩, fun _ _ => ⟨hh.memory, hh.saved⟩⟩

theorem books_applyPaperFill (input : HedgedCycleInput) (tick : MarketTick) (r : PipelineResult) :
    Proc.Triple (fun h => svc.DueFillMeets K input.toCycleInput tick r h.world ∧ Books svc K h)
      (svc.applyPaperFill input tick r) (fun _ => Books svc K) (fun _ => Books svc K)
      (Books svc K) := by
  refine Proc.Triple.bind (Q := fun h₀ h => h = h₀ ∧
    svc.DueFillMeets K input.toCycleInput tick r h.world ∧ Books svc K h) ?_ fun h₀ => ?_
  · exact Proc.Triple.get fun h hh => ⟨rfl, hh⟩
  split
  · exact Proc.Triple.pure fun h hh => hh.2.2
  rename_i sim intent hdue
  refine Proc.Triple.bind (Q := fun _ => Books svc K) ?_ fun out => ?_
  · refine Proc.Triple.mapError (R := fun _ => Books svc K) ?_ fun _ _ hh => hh
    refine Proc.Triple.zoom fun h hh => Proc.Triple.exec fun w hw => ?_
    obtain ⟨rfl, hmeets, hbooks⟩ := hh
    subst hw
    have happly := hbooks.apply (hmeets _ hdue)
    dsimp only
    split <;> exact happly
  have hsave : Proc.Keeps (Books svc K) (onWorld saveLedger) :=
    keeps_onWorld_of bookRuns_saveLedger
  split
  · exact hsave
  · refine Proc.Keeps.bind (Proc.Triple.modify fun h hh => ?_) fun _ => hsave.bind fun _ => ?_
    · rw [Books, world_noteFill]
      exact hh
    · split
      · exact books_openHedge _ _ _ _
      · exact Proc.Keeps.pure _

theorem world_funded (input : HedgedCycleInput) (h : HedgedWorld) :
    (funded input h).world = h.world := by
  rw [funded]
  dsimp only
  split
  · split <;> rfl
  · rfl

theorem books_applyPerpFunding (input : HedgedCycleInput) :
    Proc.Keeps (Books svc K) (svc.applyPerpFunding input) := by
  refine Proc.Triple.modify fun h hh => ?_
  split
  · rw [Books, world_funded]
    exact hh
  · exact hh

theorem books_openCarryHedge (input : HedgedCycleInput) :
    Proc.Keeps (Books svc K) (svc.openCarryHedge input) := by
  refine Proc.Keeps.get_bind fun h => ?_
  split
  · exact Proc.Keeps.pure _
  · exact books_openHedge _ _ _ _

theorem books_checkpoint : Proc.Keeps (Books svc K) checkpoint := by
  refine Proc.Triple.bind (Q := fun h₀ h => h = h₀ ∧ Books svc K h) ?_ fun h₀ => ?_
  · exact Proc.Triple.get fun h hh => ⟨rfl, hh⟩
  split
  · exact Proc.Triple.raise fun h hh => hh.2
  · rename_i s hs
    refine Proc.Triple.effect fun h hh => ?_
    obtain ⟨rfl, hbooks⟩ := hh
    have hsaved := hbooks.saveCheckpoint hs
    exact ⟨⟨hsaved.memory, hsaved.saved⟩, ⟨hsaved.memory, hsaved.saved⟩⟩

/-! ### Cycles and passes -/

/-- The world a cycle decides in. -/
def counted (h : HedgedWorld) : HedgedWorld := { h with cycle := h.cycle + 1 }

/-- A paper fill a cycle comes to meets `K`. -/
def CycleMeets (svc : HedgedPaperService) (K : ExecutionFill → Prop) (h : HedgedWorld)
    (input : HedgedCycleInput) : Prop :=
  ∀ x ∈ (svc.decideAndSubmit input (counted h)).exit.toOption,
    svc.DueFillMeets K input.toCycleInput x.1 x.2
      (svc.decideAndSubmit input (counted h)).world.world

/-- The fills a pass comes to meet `K`. -/
def PassMeets (svc : HedgedPaperService) (K : ExecutionFill → Prop) (h : HedgedWorld)
    (input : PassInput) : Prop :=
  ∀ c ∈ svc.reconciler, ∀ payloads ∈ input.payloads,
    c.AlongPass input.now (RowMeets c K) (fun _ _ => True) payloads.1 payloads.2 h.world.accounts

/-- The fills of an event meet `K`. -/
def FillsMeet (svc : HedgedPaperService) (K : ExecutionFill → Prop) (h : HedgedWorld) :
    Event → Prop
  | .cycle input _ => svc.CycleMeets K h input
  | .reconcile input _ => svc.PassMeets K h input

theorem books_decideAndSubmit (input : HedgedCycleInput) :
    Proc.Keeps (Books svc K) (svc.decideAndSubmit input) := by
  refine Proc.Keeps.get_bind fun h => ?_
  exact Proc.Keeps.bind (Proc.Triple.modify fun h hh => ⟨hh.memory, hh.saved⟩) fun _ =>
    keeps_onWorld_of (bookRuns_decideAndSubmit _)

/-- **A cycle** whose paper fill meets `K`, wherever it ends. -/
theorem books_cycle (input : HedgedCycleInput) (hmeets : svc.CycleMeets K h input) :
    Proc.Triple (fun h' => h' = h ∧ Books svc K h') (svc.cycle input) (fun _ => Books svc K)
      (fun _ => Books svc K) (Books svc K) := by
  refine Proc.Triple.bind (Q := fun _ h' => h' = counted h ∧ Books svc K h') ?_ fun _ => ?_
  · refine Proc.Triple.modify fun h' hh => ?_
    obtain ⟨rfl, hbooks⟩ := hh
    exact ⟨rfl, hbooks⟩
  refine Proc.Triple.bind (books_decideAndSubmit input).ran fun ⟨tick, r⟩ => ?_
  refine Proc.Triple.bind ((books_applyPaperFill input tick r).mono (fun h' hh => ?_)
    fun _ _ hh => hh) fun _ => ?_
  · obtain ⟨hexit, rfl, hbooks⟩ := hh
    exact ⟨hmeets (tick, r) (by rw [hexit]; rfl), hbooks⟩
  refine Proc.Keeps.bind (books_applyPerpFunding input) fun _ => ?_
  refine Proc.Keeps.bind (books_openCarryHedge input) fun _ => ?_
  refine Proc.Keeps.bind (keeps_onWorld_of (bookRuns_markTick tick r)) fun _ => ?_
  refine Proc.Keeps.bind (keeps_onWorld_of (bookRuns_snapshot input.now)) fun _ => ?_
  split
  · exact Proc.Keeps.raise _
  · exact books_checkpoint

/-- **A pass** whose fills meet `K`, also when it raises part-way. -/
theorem books_reconcileNow (input : PassInput) (hmeets : svc.PassMeets K h input) :
    Proc.Triple (fun h' => h' = h ∧ Books svc K h') (svc.reconcileNow input)
      (fun _ => Books svc K) (fun _ => Books svc K) (Books svc K) := by
  have hblocked : ∀ b, Proc.Keeps (Books svc K) (onWorld (setBlocked b)) := fun b =>
    keeps_onWorld_of (Proc.Triple.modify fun _ hw => ⟨hw.memory, hw.saved⟩)
  refine Proc.Triple.handle (R := fun _ => Books svc K) ?_ fun _ => hblocked _
  refine Proc.Triple.bind (Q := fun _ => Books svc K) ?_ fun execution => ?_
  · unfold HedgedPaperService.reconcileExecution
    split
    · exact Proc.Triple.pure fun _ hh => hh.2
    rename_i c hc
    split
    · exact Proc.Triple.raise fun _ hh => hh.2
    rename_i orders trades hpayloads
    refine Proc.Triple.bind (Q := fun _ => Books svc K) ?_ fun result => ?_
    · refine Proc.Triple.mapError (R := fun _ => Books svc K) ?_ fun _ _ hh => hh
      refine Proc.Triple.zoom fun h' hh => Proc.Triple.exec fun w hw => ?_
      obtain ⟨rfl, hbooks⟩ := hh
      subst hw
      have hpass := hbooks.reconcileState (hmeets c hc _ hpayloads)
      dsimp only
      split <;> exact hpass
    refine Proc.Keeps.bind (keeps_onWorld_of bookRuns_saveLedger) fun _ => ?_
    split
    · exact Proc.Keeps.bind books_checkpoint fun _ => Proc.Keeps.pure _
    · exact Proc.Keeps.pure _
  · refine Proc.Keeps.bind (keeps_onWorld_of ?_) fun _ => hblocked _
    unfold reconcilePortfolio
    split
    · exact Proc.Keeps.raise _
    · exact Proc.Keeps.pure _

/-! ### Runs -/

/-- **Every run** whose fills meet `K` keeps the book, in memory and in the
checkpoint, a run from a fresh one. -/
theorem books_step {e : Event} (hmeets : svc.FillsMeet K h e) (hbooks : Books svc K h) :
    Books svc K (svc.step h e) := by
  have hrestart : ∀ h', True → Books svc K h' → Books svc K (svc.restart h') :=
    fun _ _ hh => ⟨hh.saved, hh.saved⟩
  cases e with
  | cycle input crash =>
    exact (books_cycle input hmeets).after_of hrestart ⟨rfl, hbooks⟩ crash fun _ _ => trivial
  | reconcile input crash =>
    exact (books_reconcileNow input hmeets).after_of hrestart ⟨rfl, hbooks⟩ crash
      fun _ _ => trivial

theorem books_run (svc : HedgedPaperService) (es : List Event)
    (hmeets : Along svc.step (svc.FillsMeet K) svc.start es) :
    Books svc K (run svc.step svc.start es) :=
  run_invariant_along (fun _ _ hG hI => books_step hG hI) svc.start es hmeets (bookRuns_start _)

/-- Every fill meets nothing in particular. -/
theorem fillsMeet_trivial (svc : HedgedPaperService) (h : HedgedWorld) (e : Event) :
    svc.FillsMeet (fun _ => True) h e := by
  cases e with
  | cycle input crash => exact fun _ _ _ _ _ _ _ _ => trivial
  | reconcile input crash =>
    exact fun c _ payloads _ => Reconciler.alongPass_of_forall (fun _ _ _ _ _ _ => trivial)
      (fun _ _ => trivial) c input.now payloads.1 payloads.2 h.world.accounts

/-- **When the held positions are attributed.** The metadata of every position are
those of its holding period, in every run of a book and so in every run of the
service. But whoever opened its positions, the service attributes them exactly when
it holds none; and it holds none in a run that books no entry. -/
theorem attributed_iff_flat (svc : HedgedPaperService) (es : List Event) :
    (∀ nav (hnav : 0 < nav) ops asset, Tracked (fresh nav hnav) ops asset
        ((run PortfolioBook.step (fresh nav hnav) ops).positionOf asset)) ∧
      (∃ ops, (run svc.step svc.start es).world.accounts.book
          = run PortfolioBook.step svc.startingBook ops ∧
        ∀ asset, Tracked svc.startingBook ops asset
          ((run svc.step svc.start es).world.accounts.book.positionOf asset)) ∧
      (∀ openedBy, Attributed openedBy (run svc.step svc.start es).world.accounts.book ↔
        Flat (run svc.step svc.start es).world.accounts.book) ∧
      (Along svc.step (svc.FillsMeet fun fill => fill.side ≠ .buy) svc.start es →
        ∀ openedBy, Attributed openedBy (run svc.step svc.start es).world.accounts.book) := by
  have hkeys : svc.startingBook.UpperKeyed := upperKeyed_fresh _ _
  have hbooks : Books svc (fun _ => True) (run svc.step svc.start es) :=
    books_run svc es (along_of_forall (fillsMeet_trivial svc) svc.start es)
  have hnone : Unattributed (run svc.step svc.start es).world.accounts.book :=
    hbooks.memory.invariant (fun _ _ hkeys hop h => unattributed_step hkeys hop h) hkeys
      fun _ => rfl
  refine ⟨tracked_run, ?_, hnone.attributed_iff, fun hentries openedBy => ?_⟩
  · obtain ⟨ops, -, hrun⟩ := hbooks.memory
    refine ⟨ops, hrun.symm, fun asset => ?_⟩
    rw [← hrun]
    exact tracked_run _ _ ops asset
  · have hflat : Flat (run svc.step svc.start es).world.accounts.book :=
      (books_run svc es hentries).memory.invariant
        (fun _ _ hkeys hop h => flat_step (fun _ hside => hside) hkeys hop h) hkeys fun _ => rfl
    exact (hnone.attributed_iff openedBy).mpr hflat

/-! ### An entry nobody opened -/

/-- A BTC entry at 100, proposed by `vertical-slice-v1`, is filled on paper; the
position it opens names no strategy. -/
theorem not_attributed :
    let h := run Untold.service.step Untold.service.start
      [.cycle (Untold.input "d1" 0 100 Oversold.hundred_pos) none]
    h.openedBy.get? "BTC" = some "vertical-slice-v1" ∧
      0 < h.world.accounts.book.heldQuantity "BTC" ∧
      (h.world.accounts.book.positionOf "BTC").entryStrategyId = none ∧
      ¬Attributed (fun asset => (h.openedBy.get? asset).getD "") h.world.accounts.book := by
  intro h
  have hheld : 0 < h.world.accounts.book.heldQuantity "BTC" := by decide +kernel
  have hnone : (h.world.accounts.book.positionOf "BTC").entryStrategyId = none := by
    decide +kernel
  refine ⟨by decide +kernel, hheld, hnone, fun hall => ?_⟩
  exact Option.some_ne_none _ ((hall "BTC" hheld).symm.trans hnone)

end HedgedPaperService

end TraderStack
