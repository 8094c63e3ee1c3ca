import TraderStack.Execution.Tally
import TraderStack.Service.OrderLimits

/-!
# Crash consistency of the two files

The ledger file and the portfolio checkpoint are written at different points of
a cycle. A fill is in the ledger's processed set or not, and that decides whether
it can ever be booked again, so a crash between the two writes leaves a book that
never catches up, or one that books the fill twice.

`Durable` is the invariant: in memory the book holds what the ledger adds up to,
so does the checkpoint with respect to the ledger it was written beside, and the
two files are copies of one growing ledger. A restart keeps it exactly when both
files carry the same fill ids, which is what a crash must leave for the
consistency of the run.
-/

namespace TraderStack

open Lib

namespace World

/-- What a restart reads of the ledger. -/
def savedLedger (w : World) : ExecutionLedger := w.ledgerFile.getD .empty

/-- Both files were last written with the same processed fill ids. -/
def FilesAgree (w : World) : Prop :=
  w.savedLedger.processedFillIds = w.checkpointLedger.processedFillIds

instance (w : World) : Decidable w.FilesAgree :=
  inferInstanceAs (Decidable (_ = _))

end World

namespace ContinuousPaperService

variable {svc : ContinuousPaperService} {w : World}

/-- What a restart reads of the book. -/
def savedBook (svc : ContinuousPaperService) (w : World) : PortfolioBook :=
  w.checkpointFile.elim svc.startingBook PortfolioBook.fromState

/-- **The invariant of the two files.** -/
structure Durable (svc : ContinuousPaperService) (w : World) : Prop where
  memory : InOrder w.ledger w.accounts
  checkpoint : InOrder w.checkpointLedger ⟨w.checkpointLedger, svc.savedBook w⟩
  copies : Copies ExecutionLedger.processedFillIds ExecutionLedger.net w.ledger w.savedLedger
    w.checkpointLedger

/-- A fresh book holds nothing, and an empty ledger adds up to nothing. -/
theorem inOrder_fresh (nav : ℚ) (h : 0 < nav) :
    InOrder .empty ⟨.empty, PortfolioBook.fresh nav h⟩ :=
  ⟨PortfolioBook.upperKeyed_fresh nav h, fun _ => rfl, .refl _⟩

theorem durable_start (svc : ContinuousPaperService) : Durable svc svc.start where
  memory := inOrder_fresh _ _
  checkpoint := inOrder_fresh _ _
  copies := .refl _

/-- New records in order, beside the same files. -/
theorem Durable.accounts (h : Durable svc w) {a : Accounts} (ha : InOrder w.ledger a) :
    Durable svc { w with accounts := a } where
  memory := ⟨ha.keyed, ha.tallies, .refl _⟩
  checkpoint := h.checkpoint
  copies := h.copies.grow ha.later

/-- A book that holds the same. -/
theorem Durable.book (h : Durable svc w) {b : PortfolioBook} (hkeyed : b.UpperKeyed)
    (hheld : ∀ asset, b.heldQuantity asset = w.accounts.book.heldQuantity asset) :
    Durable svc { w with accounts := { w.accounts with book := b } } :=
  h.accounts ⟨hkeyed, fun asset => (hheld asset).trans (h.memory.tallies asset), .refl _⟩

/-- A ledger with the same fills. -/
theorem Durable.relabel (h : Durable svc w) {l : ExecutionLedger}
    (hprocessed : l.processedFillIds = w.ledger.processedFillIds)
    (hnet : ∀ asset, l.net asset = w.ledger.net asset) : Durable svc (w.withLedger l) :=
  h.accounts (h.memory.relabel hprocessed hnet)

theorem Durable.saveLedger (h : Durable svc w) : Durable svc w.saveLedger where
  memory := h.memory
  checkpoint := h.checkpoint
  copies := h.copies.writeFirst

theorem Durable.saveCheckpoint (h : Durable svc w) {s : PortfolioBook.PortfolioState}
    (hs : w.accounts.book.state = .ok s) : Durable svc (w.saveCheckpoint s) where
  memory := h.memory
  checkpoint := by
    have hbook : svc.savedBook (w.saveCheckpoint s) = w.accounts.book :=
      PortfolioBook.fromState_state h.memory.keyed hs
    rw [hbook]
    exact h.memory
  copies := h.copies.writeSecond

/-- **A restart** from files that agree. -/
theorem Durable.restart (hagree : w.FilesAgree) (h : Durable svc w) : Durable svc (svc.restart w)
    where
  memory := by
    refine ⟨h.checkpoint.keyed, fun asset => ?_, .refl _⟩
    -- the checkpoint adds up to its own ledger, which has the file's fills
    have hnet := congrFun (h.copies.val_eq hagree) asset
    exact (h.checkpoint.tallies asset).trans hnet.symm
  checkpoint := h.checkpoint
  copies := h.copies.restore hagree

/-! ## The steps of a cycle -/

/-- **The submitter** moves no fill. -/
theorem durable_submitInvariant (s : IdempotentSubmitter) (env : VenueEnv) (c : SubmitCall) :
    SubmitInvariant s env c (Durable svc) (fun _ _ => Durable svc) where
  save := fun _ h => h.saveLedger
  amend := fun _ _ _ h hget ha _ _ => h.relabel rfl (ExecutionLedger.net_put_of_stored _
    (ha.orderId ▸ hget) ha.asset ha.side ha.filledQuantity)
  register := fun _ _ _ h _ hnone _ => h.relabel rfl (ExecutionLedger.net_put_of_new hnone rfl)
  send := fun _ _ _ h _ _ _ _ =>
    ⟨⟨h.memory, h.checkpoint, h.copies⟩, fun _ _ => ⟨h.memory, h.checkpoint, h.copies⟩⟩
  receive := fun _ o id now h hget _ => h.relabel rfl (ExecutionLedger.net_put_of_stored
    (o.receipted id now) hget rfl rfl rfl)
  search := fun _ h => ⟨h.memory, h.checkpoint, h.copies⟩
  adopt := by
    intro w o now rows row h hget _ _ _ _
    have hnet := ExecutionLedger.net_put_of_stored (o.adopted now) hget rfl rfl rfl
    have hput : Durable svc (w.withLedger (w.ledger.put (o.adopted now))) := h.relabel rfl hnet
    exact ⟨hput.memory, hput.checkpoint, hput.copies.writeFirst⟩

theorem durable_snapshot (now : Time) : Proc.Keeps (Durable svc) (snapshot now) := by
  refine Proc.Triple.exec fun w hw => ?_
  have hsame := PortfolioBook.sameBook_snapshot w.accounts.book now
  have hbook := hw.book (PortfolioBook.upperKeyed_of_sameBook hw.memory.keyed hsame)
    hsame.heldQuantity
  dsimp only
  split <;> exact hbook

theorem durable_mark (asset : String) (price : ℚ) :
    Proc.Keeps (Durable svc) (mark asset price) := by
  refine Proc.Triple.exec fun w hw => ?_
  dsimp only
  rcases PortfolioBook.mark_cases w.accounts.book asset price with ⟨h, -⟩ | ⟨hp, h⟩
  · rw [h]
    exact hw
  · rw [h]
    exact hw.book (PortfolioBook.upperKeyed_setMark hw.memory.keyed asset price hp)
      (PortfolioBook.heldQuantity_setMark _ price hp)

theorem durable_saveLedger : Proc.Keeps (Durable svc) saveLedger :=
  Proc.Triple.effect fun _ hw => ⟨hw.saveLedger, hw.saveLedger⟩

theorem durable_checkpoint : Proc.Keeps (Durable svc) checkpoint := by
  refine Proc.Triple.bind (Q := fun w0 w => w = w0 ∧ Durable svc w) ?_ fun w0 => ?_
  · exact Proc.Triple.get fun w hw => ⟨rfl, hw⟩
  split
  · exact Proc.Triple.raise fun w hw => hw.2
  · rename_i s hs
    refine Proc.Triple.effect fun w hw => ?_
    obtain ⟨rfl, hdurable⟩ := hw
    exact ⟨hdurable.saveCheckpoint hs, hdurable.saveCheckpoint hs⟩

theorem durable_submitIntent (portfolio : PortfolioSnapshot) (tick : MarketTick)
    (intent : PaperOrderIntent) (now : Time) :
    Proc.Keeps (Durable svc) (svc.submitIntent portfolio tick intent now) := by
  refine Proc.Keeps.get_bind fun w => ?_
  split
  · exact Proc.Keeps.pure _
  split
  · exact Proc.Keeps.raise _
  split
  · exact Proc.Keeps.raise _
  · rename_i s _
    refine Proc.Keeps.bind ?_ fun _ => Proc.Keeps.pure _
    exact (IdempotentSubmitter.triple_submit_of_invariant
      (durable_submitInvariant s svc.env _)).mapError fun _ _ hw => hw

theorem durable_decideAndSubmit (input : CycleInput) :
    Proc.Keeps (Durable svc) (svc.decideAndSubmit input) := by
  refine Proc.Keeps.bind (durable_snapshot input.now) fun portfolio => ?_
  unfold runOnce
  split
  · exact Proc.Keeps.raise _
  split
  · exact Proc.Keeps.raise _
  split
  · exact Proc.Keeps.raise _
  dsimp only
  split
  · exact Proc.Keeps.pure _
  · exact Proc.Keeps.bind (durable_submitIntent _ _ _ _) fun _ => Proc.Keeps.pure _

/-- The book covers the paper fill that is due in a world. -/
def DueFillCovered (svc : ContinuousPaperService) (input : CycleInput) (tick : MarketTick)
    (r : PipelineResult) (w : World) : Prop :=
  ∀ due ∈ svc.paperFillDue input r w, due.1.FillCovered due.2 tick.mid input.now w.accounts

/-- The book covers the paper fill a cycle comes to, if it comes to one. -/
def CycleCovered (svc : ContinuousPaperService) (w : World) (input : CycleInput) : Prop :=
  ∀ x ∈ (svc.decideAndSubmit input w).exit.toOption,
    svc.DueFillCovered input x.1 x.2 (svc.decideAndSubmit input w).world

instance (w : World) (input : CycleInput) : Decidable (svc.CycleCovered w input) :=
  inferInstanceAs (Decidable (∀ x ∈ _, ∀ due ∈ _, _))

theorem durable_applyPaperFill (input : CycleInput) (tick : MarketTick) (r : PipelineResult) :
    Proc.Triple (fun w => svc.DueFillCovered input tick r w ∧ Durable svc w)
      (svc.applyPaperFill input tick r) (fun _ => Durable svc) (fun _ => Durable svc)
      (Durable svc) := by
  refine Proc.Triple.bind
    (Q := fun w0 w => w = w0 ∧ svc.DueFillCovered input tick r w ∧ Durable svc w) ?_ fun w0 => ?_
  · exact Proc.Triple.get fun w hw => ⟨rfl, hw⟩
  split
  · exact Proc.Triple.pure fun w hw => hw.2.2
  · rename_i sim intent hdue
    refine Proc.Triple.bind (Q := fun _ => Durable svc) ?_ fun _ => durable_saveLedger
    refine Proc.Triple.exec fun w hw => ?_
    obtain ⟨rfl, hcovered, hdurable⟩ := hw
    have happly := hdurable.accounts (hdurable.memory.apply (hcovered _ hdue))
    dsimp only
    split <;> exact happly

theorem durable_markTick (tick : MarketTick) (r : PipelineResult) :
    Proc.Keeps (Durable svc) (markTick tick r) := by
  unfold markTick
  split
  · exact durable_mark _ _
  · exact Proc.Keeps.pure _

theorem durable_closeCycle (input : CycleInput) :
    Proc.Keeps (Durable svc) (closeCycle input) := by
  refine Proc.Keeps.bind (durable_snapshot input.now) fun _ => ?_
  split
  · exact Proc.Keeps.raise _
  · exact durable_checkpoint

/-- **A cycle** whose paper fill is covered, wherever it ends. -/
theorem durable_cycle (input : CycleInput) (hcovered : svc.CycleCovered w input) :
    Proc.Triple (fun v => v = w ∧ Durable svc v) (svc.cycle input) (fun _ => Durable svc)
      (fun _ => Durable svc) (Durable svc) := by
  refine Proc.Triple.bind (durable_decideAndSubmit input).ran fun ⟨tick, r⟩ => ?_
  refine Proc.Triple.bind ((durable_applyPaperFill input tick r).mono
    (fun v hv => ?_) fun _ _ hv => hv) fun _ =>
      Proc.Keeps.bind (durable_markTick tick r) fun _ => durable_closeCycle input
  obtain ⟨hexit, rfl, hdurable⟩ := hv
  exact ⟨hcovered (tick, r) (by rw [hexit]; rfl), hdurable⟩

/-! ## Passes -/

/-- The book covers every fill a pass reads. -/
def PassCovered (svc : ContinuousPaperService) (w : World) (input : PassInput) : Prop :=
  ∀ c ∈ svc.reconciler, ∀ payloads ∈ input.payloads,
    c.AlongPass input.now (fun a row => c.RowCovered row a) (fun _ _ => True) payloads.1 payloads.2
      w.accounts

instance (w : World) (input : PassInput) : Decidable (svc.PassCovered w input) :=
  inferInstanceAs (Decidable (∀ c ∈ _, ∀ payloads ∈ _, _))

/-- **A pass** whose fills are covered, also when it raises part-way. -/
theorem durable_reconcileNow (input : PassInput) (hcovered : svc.PassCovered w input) :
    Proc.Triple (fun v => v = w ∧ Durable svc v) (svc.reconcileNow input) (fun _ => Durable svc)
      (fun _ => Durable svc) (Durable svc) := by
  have hblocked : ∀ b, Proc.Keeps (Durable svc) (setBlocked b) :=
    fun b => Proc.Triple.modify fun _ hw => ⟨hw.memory, hw.checkpoint, hw.copies⟩
  refine Proc.Triple.handle (R := fun _ => Durable svc) ?_ fun _ => hblocked _
  refine Proc.Triple.bind (Q := fun _ => Durable svc) ?_ fun execution => ?_
  · unfold reconcileExecution
    split
    · exact Proc.Triple.pure fun _ hv => hv.2
    rename_i c hc
    split
    · exact Proc.Triple.raise fun _ hv => hv.2
    rename_i orders trades hpayloads
    refine Proc.Triple.bind (Q := fun _ => Durable svc) ?_ fun result => ?_
    · refine Proc.Triple.exec fun v hv => ?_
      obtain ⟨rfl, hdurable⟩ := hv
      have hpass := hdurable.accounts
        (hdurable.memory.reconcileState (hcovered c hc _ hpayloads))
      dsimp only
      split <;> exact hpass
    refine Proc.Keeps.bind durable_saveLedger fun _ => ?_
    split
    · exact Proc.Keeps.bind durable_checkpoint fun _ => Proc.Keeps.pure _
    · exact Proc.Keeps.pure _
  · unfold reconcilePortfolio
    split
    · exact Proc.Keeps.raise _
    · exact hblocked _

/-! ## Runs -/

/-- A crash, if there is one, leaves files that agree. -/
def CrashesClean {α : Type} (ran : Ran World ServiceError α) (crash : Option ℕ) : Prop :=
  ∀ k ∈ crash, (ran.crashPoints.getD k ran.world).FilesAgree

instance {α : Type} (ran : Ran World ServiceError α) (crash : Option ℕ) :
    Decidable (CrashesClean ran crash) :=
  inferInstanceAs (Decidable (∀ k ∈ crash, _))

/-- The book covers what the ledger accepts, and no crash comes while a fill has
reached one of the files only. -/
def KeepsFiles (svc : ContinuousPaperService) (w : World) : Event → Prop
  | .cycle input crash => svc.CycleCovered w input ∧ CrashesClean (svc.cycle input w) crash
  | .reconcile input crash => svc.PassCovered w input ∧ CrashesClean (svc.reconcileNow input w) crash

instance (w : World) : ∀ e, Decidable (svc.KeepsFiles w e)
  | .cycle _ _ => inferInstanceAs (Decidable (_ ∧ _))
  | .reconcile _ _ => inferInstanceAs (Decidable (_ ∧ _))

theorem durable_step {e : Event} (hkeeps : svc.KeepsFiles w e) (h : Durable svc w) :
    Durable svc (svc.step w e) := by
  have hrestart : ∀ v, v.FilesAgree → Durable svc v → Durable svc (svc.restart v) :=
    fun _ hagree hv => hv.restart hagree
  cases e with
  | cycle input crash =>
    obtain ⟨hcovered, hclean⟩ := hkeeps
    exact (durable_cycle input hcovered).after_of hrestart ⟨rfl, h⟩ crash hclean
  | reconcile input crash =>
    obtain ⟨hcovered, hclean⟩ := hkeeps
    exact (durable_reconcileNow input hcovered).after_of hrestart ⟨rfl, h⟩ crash hclean

/-- **The book and the ledger stay consistent across crashes.** In every run of
cycles and passes in which the book covers what the ledger accepts and no crash
comes between the two files' writes of a fill, the book holds in every asset what
the ledger's fills add up to, before and after every restart. -/
theorem crash_consistent (svc : ContinuousPaperService) (es : List Event)
    (hkeeps : Along svc.step svc.KeepsFiles svc.start es) :
    (run svc.step svc.start es).accounts.Tallies := by
  have hdurable : Durable svc (run svc.step svc.start es) :=
    run_invariant_along (fun _ _ hG hI => durable_step hG hI) svc.start es hkeeps
      (durable_start svc)
  exact hdurable.memory.tallies

end ContinuousPaperService

/-! ### Crashes between the files -/

namespace Torn

/-- A service that fills its entries on paper. -/
def paper : ContinuousPaperService :=
  { InFlight.service with paperFillSimulator := some Oversold.sim, submit := false }

/-- A BTC cycle at 100, which may crash. -/
def cycle (decisionId : String) (now : Time) (crash : Option ℕ) : ContinuousPaperService.Event :=
  match InFlight.cycle decisionId now with
  | .cycle input _ => .cycle input crash
  | .reconcile input _ => .reconcile input crash

/-- A cycle that finds no market and books nothing. -/
def idle : ContinuousPaperService.Event :=
  .cycle
    { symbol := "BTC/USD", market := none, now := 60, killSwitch := none, circuitBreaker := none
      reviewWithholds := false, auditFails := false }
    none

/-- A paper entry whose process dies with the ledger file written and the
checkpoint not. -/
def missing : List ContinuousPaperService.Event := [cycle "d1" 0 (some 0), idle]

/-- A pass that books a first trade of the entry and then meets a row it cannot
read. -/
def raising : ContinuousPaperService.Event :=
  .reconcile
    { payloads := some (.list [], .list [Feeless.trade "t1" (2 / 5) 1, some (.ofList [])])
      drift := some []
      now := 10 }
    none

/-- A pass that reads the first trade alone. -/
def reading : ContinuousPaperService.Event :=
  .reconcile
    { payloads := some (.list [], .list [Feeless.trade "t1" (2 / 5) 1])
      drift := some []
      now := 30 }
    none

/-- An entry, the raising pass, a cycle whose checkpoint carries the trade while
the ledger file does not, a crash, and a pass that books the trade again. -/
def twice : List ContinuousPaperService.Event :=
  [InFlight.cycle "d1" 0, raising, cycle "d2" 20 (some 8), reading]

/-- An entry, its fill, and a crash with both files written. -/
def clean : List ContinuousPaperService.Event :=
  [InFlight.cycle "d1" 0, InFlight.pass 60, cycle "d2" 120 (some 8)]

end Torn

namespace ContinuousPaperService

theorem crash_consistent_clean :
    (run InFlight.service.step InFlight.service.start Torn.clean).accounts.Tallies :=
  crash_consistent InFlight.service Torn.clean (by decide +kernel)

/-- A paper fill is in the ledger and never reaches the book; a venue trade is
in the book twice. -/
theorem not_crash_consistent :
    ¬(run Torn.paper.step Torn.paper.start Torn.missing).accounts.Tallies ∧
      ¬(run InFlight.service.step InFlight.service.start Torn.twice).accounts.Tallies :=
  ⟨fun h => absurd (h "BTC") (by decide +kernel), fun h => absurd (h "BTC") (by decide +kernel)⟩

end ContinuousPaperService

end TraderStack
