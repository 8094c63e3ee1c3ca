import TraderStack.Service.HedgedCycle
import TraderStack.Service.OrderLimits

/-!
# What a cycle books behind a closed gate

In diagnostic mode, while reconciliation blocks new risk, and under the kill
switch, a cycle neither submits nor fills. Of the two paths into the hedge book
the one behind a spot fill is closed with it; the carry path asks for the kill
switch alone.

- `quiet_decideAndSubmit`: up to the carry path such a cycle changes nothing;
- `closed_gates_book_nothing_iff`: it books nothing exactly when it does not come
  to a hedge of the carry path.
-/

namespace TraderStack

open Lib

/-- The ledger, the holdings, the cash and the block are as they were. -/
structure World.Quiet (w₀ w : World) : Prop where
  ledger : w.ledger = w₀.ledger
  held : ∀ asset, w.accounts.book.heldQuantity asset = w₀.accounts.book.heldQuantity asset
  cash : w.accounts.book.cashUsd = w₀.accounts.book.cashUsd
  blocked : w.reconciliationBlocked = w₀.reconciliationBlocked

theorem World.Quiet.refl (w : World) : World.Quiet w w := ⟨rfl, fun _ => rfl, rfl, rfl⟩

namespace ContinuousPaperService

variable {svc : ContinuousPaperService} {input : CycleInput} {w₀ w : World}

/-- A gate of new risk is closed. -/
def GateClosed (svc : ContinuousPaperService) (input : CycleInput) (w : World) : Prop :=
  svc.diagnosticMode = true ∨ w.reconciliationBlocked = true ∨
    input.killSwitch.any KillSwitch.engaged = true

theorem quiet_snapshot (now : Time) : Proc.Keeps (World.Quiet w₀) (snapshot now) := by
  refine Proc.Triple.exec fun w hw => ?_
  have hsame := PortfolioBook.sameBook_snapshot w.accounts.book now
  have hquiet : World.Quiet w₀
      { w with accounts := { w.accounts with book := (w.accounts.book.snapshot now).2 } } :=
    ⟨hw.ledger, fun asset => (hsame.heldQuantity asset).trans (hw.held asset),
      hsame.cashUsd.trans hw.cash, hw.blocked⟩
  dsimp only
  split <;> exact hquiet

theorem quiet_markTick (tick : MarketTick) (r : PipelineResult) :
    Proc.Keeps (World.Quiet w₀) (markTick tick r) := by
  unfold markTick
  split
  · refine Proc.Triple.exec fun w hw => ?_
    dsimp only
    rcases PortfolioBook.mark_cases w.accounts.book tick.asset tick.last with ⟨h, -⟩ | ⟨hp, h⟩
    · rw [h]
      exact hw
    · rw [h]
      exact ⟨hw.ledger, fun asset => (PortfolioBook.heldQuantity_setMark _ _ hp asset).trans
        (hw.held asset), hw.cash, hw.blocked⟩
  · exact Proc.Keeps.pure _

/-- Behind a closed gate nothing is submitted. -/
theorem quiet_submitIntent {portfolio : PortfolioSnapshot} {tick : MarketTick}
    {intent : PaperOrderIntent} {now : Time} {R : ServiceError → World → Prop} {C : World → Prop}
    (hclosed : svc.diagnosticMode = true ∨ w₀.reconciliationBlocked = true) :
    Proc.Triple (World.Quiet w₀) (svc.submitIntent portfolio tick intent now)
      (fun _ => World.Quiet w₀) R C := by
  refine Proc.Triple.bind (Q := fun v w => w = v ∧ World.Quiet w₀ w) ?_ fun v => ?_
  · exact Proc.Triple.get fun w hw => ⟨rfl, hw⟩
  refine Proc.Triple.of_fact (F := World.Quiet w₀ v) (fun w hw => hw.1 ▸ hw.2) fun hv => ?_
  have hdisabled : svc.submissionEnabled v = false := by
    unfold submissionEnabled
    rw [hv.blocked]
    rcases hclosed with hdiagnostic | hblocked
    · rw [hdiagnostic]
      exact Bool.and_false _
    · rw [hblocked]
      simp
  rw [hdisabled, Bool.not_false, Bool.or_true, if_pos rfl]
  exact Proc.Triple.pure fun w hw => hw.2

/-- **Behind a closed gate** a cycle comes to its decision, or raises without one; it
changes nothing, and no paper fill is due. -/
theorem quiet_decideAndSubmit (hclosed : svc.GateClosed input w₀) :
    Proc.Triple (fun w => w = w₀) (svc.decideAndSubmit input)
      (fun x w => World.Quiet w₀ w ∧ (svc.decision input w₀.accounts.book).isSome = true ∧
        svc.paperFillDue input x.2 w = none)
      (fun _ w => World.Quiet w₀ w ∧ svc.decision input w₀.accounts.book = none)
      (fun _ => True) := by
  refine Proc.Triple.bind (Q := fun portfolio w =>
    (w₀.accounts.book.snapshot input.now).1 = .ok portfolio ∧ World.Quiet w₀ w) ?_
    fun portfolio => ?_
  · have hsame := PortfolioBook.sameBook_snapshot w₀.accounts.book input.now
    have hquiet : World.Quiet w₀ { w₀ with accounts :=
        { w₀.accounts with book := (w₀.accounts.book.snapshot input.now).2 } } :=
      ⟨rfl, hsame.heldQuantity, hsame.cashUsd, rfl⟩
    refine Proc.Triple.exec fun w hw => ?_
    subst hw
    dsimp only
    cases hsnapshot : (w.accounts.book.snapshot input.now).1 with
    | ok portfolio => exact ⟨rfl, hquiet⟩
    | error e =>
      refine ⟨hquiet, ?_⟩
      unfold decision
      rw [hsnapshot]
  refine Proc.Triple.of_fact (fun w hw => hw.1) fun hsnapshot => ?_
  unfold runOnce
  cases hmarket : input.market with
  | none =>
    refine Proc.Triple.raise fun w hw => ⟨hw.2, ?_⟩
    unfold decision
    rw [hsnapshot, hmarket]
  | some i =>
    dsimp only
    by_cases hsymbol : i.tick.symbol ≠ input.symbol
    · rw [if_pos hsymbol]
      refine Proc.Triple.raise fun w hw => ⟨hw.2, ?_⟩
      unfold decision
      rw [hsnapshot, hmarket]
      exact if_pos hsymbol
    rw [if_neg hsymbol]
    have hdecision : svc.decision input w₀.accounts.book
        = ((svc.pipelineAt input).process i portfolio).toOption := by
      unfold decision
      rw [hsnapshot, hmarket]
      exact if_neg hsymbol
    rw [hdecision]
    cases hprocess : (svc.pipelineAt input).process i portfolio with
    | error e => exact Proc.Triple.raise fun w hw => ⟨hw.2, rfl⟩
    | ok r =>
      dsimp only
      cases horder : (reviewed input r).paperOrder with
      | none =>
        refine Proc.Triple.pure fun w hw => ⟨hw.2, rfl, ?_⟩
        unfold paperFillDue
        rw [horder]
        split
        · rfl
        · cases svc.paperFillSimulator <;> rfl
      | some intent =>
        -- under the kill switch there would be no order
        have hkill : input.killSwitch.any KillSwitch.engaged = false := by
          by_contra hengaged
          rw [Bool.not_eq_false] at hengaged
          have hhalted : (svc.pipelineAt input).riskEngine.halted = true := by
            unfold pipelineAt RiskEngine.halted
            cases hswitch : input.killSwitch with
            | none =>
              rw [hswitch] at hengaged
              cases hengaged
            | some k =>
              rw [hswitch] at hengaged
              exact hengaged
          have hnone := VerticalSlicePipeline.paperOrder_of_halted hprocess hhalted
          have hreviewed : (reviewed input r).paperOrder = none := by
            unfold reviewed
            split
            · rfl
            · exact hnone
          cases hreviewed.symm.trans horder
        have hgate : svc.diagnosticMode = true ∨ w₀.reconciliationBlocked = true := by
          rcases hclosed with h | h | h
          · exact .inl h
          · exact .inr h
          · cases hkill.symm.trans h
        have hsubmit : Proc.Triple (World.Quiet w₀)
            (svc.submitIntent portfolio i.tick intent input.now) (fun _ => World.Quiet w₀)
            (fun _ w => World.Quiet w₀ w ∧ Except.toOption (.ok r : Except PipelineError _) = none)
            (fun _ => True) :=
          quiet_submitIntent hgate
        refine Proc.Triple.bind (hsubmit.mono (fun w hw => hw.2) fun _ w hw => hw) fun _ => ?_
        refine Proc.Triple.pure fun w hw => ⟨hw, rfl, ?_⟩
        unfold paperFillDue
        rw [hw.blocked]
        rcases hgate with hdiagnostic | hblocked
        · rw [hdiagnostic, Bool.or_true, Bool.true_or, Bool.true_or, if_pos rfl]
        · rw [hblocked, Bool.or_true, if_pos rfl]

end ContinuousPaperService

/-- Nothing was booked between two worlds: no order and no fill id added, no holding
and no cash moved, no hedge opened or enlarged. -/
structure HedgedWorld.BookedNothing (h h' : HedgedWorld) : Prop where
  ledger : ExecutionLedger.Within h'.world.ledger h.world.ledger
  held : ∀ asset, h'.world.accounts.book.heldQuantity asset
    = h.world.accounts.book.heldQuantity asset
  cash : h'.world.accounts.book.cashUsd = h.world.accounts.book.cashUsd
  perp : PaperPerpBook.NoLarger h'.perp h.perp

namespace HedgedPaperService

variable {svc : HedgedPaperService} {input : HedgedCycleInput} {h₀ h : HedgedWorld}

/-- A gate of new risk is closed. -/
def GateClosed (svc : HedgedPaperService) (input : HedgedCycleInput) (h : HedgedWorld) : Prop :=
  svc.toContinuousPaperService.GateClosed input.toCycleInput h.world

/-- The cycle comes to its decision, and its carry path to a hedge that is booked. -/
def CarryBooks (svc : HedgedPaperService) (input : HedgedCycleInput) (h : HedgedWorld) : Prop :=
  (svc.toContinuousPaperService.decision (input.judged h) h.world.accounts.book).isSome = true ∧
    ∃ quote fill, svc.carryFill input { h with cycle := h.cycle + 1 } = some (quote, fill) ∧
      h.perp.books input.killSwitch fill (some quote.midUsd) fill.orderId input.now h.world.ledger
        = true

/-- Up to the carry path: the world is quiet, the hedges and the breaker's cycle are
those of the start. -/
structure Idle (h₀ h : HedgedWorld) : Prop where
  world : World.Quiet h₀.world h.world
  perp : PaperPerpBook.SameHedges h₀.perp h.perp
  cycle : h.cycle = h₀.cycle + 1

theorem Idle.bookedNothing (hi : Idle h₀ h) : HedgedWorld.BookedNothing h₀ h where
  ledger := hi.world.ledger ▸ .refl _
  held := hi.world.held
  cash := hi.world.cash
  perp := hi.perp.noLarger

/-- What was booked is read off the ledger, the holdings, the cash and the hedges. -/
theorem bookedNothing_congr {h' : HedgedWorld} (hw : World.Quiet h.world h'.world)
    (hp : h'.perp = h.perp) :
    HedgedWorld.BookedNothing h₀ h' ↔ HedgedWorld.BookedNothing h₀ h := by
  constructor
  · rintro ⟨hledger, hheld, hcash, hperp⟩
    exact ⟨hw.ledger ▸ hledger, fun asset => (hw.held asset).symm.trans (hheld asset),
      hw.cash.symm.trans hcash, hp ▸ hperp⟩
  · rintro ⟨hledger, hheld, hcash, hperp⟩
    exact ⟨hw.ledger ▸ hledger, fun asset => (hw.held asset).trans (hheld asset),
      hw.cash.trans hcash, hp ▸ hperp⟩

/-- The cycle booked nothing exactly when its carry path did not. -/
def Told (svc : HedgedPaperService) (input : HedgedCycleInput) (h₀ h : HedgedWorld) : Prop :=
  HedgedWorld.BookedNothing h₀ h ↔ ¬svc.CarryBooks input h₀

theorem Told.of_quiet {h' : HedgedWorld} (ht : Told svc input h₀ h)
    (hw : World.Quiet h.world h'.world) (hp : h'.perp = h.perp) : Told svc input h₀ h' :=
  (bookedNothing_congr hw hp).trans ht

/-- A quiet step on the `World` changes nothing of what was booked. -/
theorem told_onWorld {α : Type} {p : Service α}
    (hp : ∀ w₀, Proc.Keeps (World.Quiet w₀) p) :
    Proc.Keeps (Told svc input h₀) (onWorld p) := by
  refine Proc.Triple.mapError (R := fun _ => Told svc input h₀) ?_ fun _ _ hs => hs
  refine Proc.Triple.zoom fun h hh => ?_
  have hquiet : ∀ w, World.Quiet h.world w → Told svc input h₀ (h.withWorld w) :=
    fun w hw => Told.of_quiet hh hw rfl
  intro w hw
  subst hw
  obtain ⟨hexit, -⟩ := hp h.world h.world (.refl _)
  refine ⟨?_, fun c hmem => ?_⟩
  · split
    · rename_i a ha
      rw [ha] at hexit
      exact hquiet _ hexit
    · rename_i e he
      rw [he] at hexit
      exact hquiet _ hexit
  · exact hquiet c ((hp h.world h.world (.refl _)).2 c hmem)

/-! ## The steps of a cycle -/

theorem idle_decideAndSubmit (hclosed : svc.GateClosed input h₀) :
    Proc.Triple (fun h => h = { h₀ with cycle := h₀.cycle + 1 }) (svc.decideAndSubmit input)
      (fun x h => Idle h₀ h ∧ (svc.toContinuousPaperService.decision (input.judged h₀)
          h₀.world.accounts.book).isSome = true ∧
        svc.paperFillDue input.toCycleInput x.2 h.world = none)
      (fun _ h => Idle h₀ h ∧ svc.toContinuousPaperService.decision (input.judged h₀)
        h₀.world.accounts.book = none)
      (fun _ => True) := by
  have hbase := @ContinuousPaperService.quiet_decideAndSubmit svc.toContinuousPaperService
    (input.judged h₀) h₀.world hclosed
  intro h hh
  subst hh
  -- the breaker is asked first, and only the breaker changes
  have hstep : Proc.Triple (fun h => h = ({ h₀ with
        cycle := h₀.cycle + 1,
        circuitBreaker := svc.consulted input { h₀ with cycle := h₀.cycle + 1 } } : HedgedWorld))
      (onWorld (svc.toContinuousPaperService.decideAndSubmit (input.judged h₀)))
      (fun x h => Idle h₀ h ∧ (svc.toContinuousPaperService.decision (input.judged h₀)
          h₀.world.accounts.book).isSome = true ∧
        svc.paperFillDue input.toCycleInput x.2 h.world = none)
      (fun _ h => Idle h₀ h ∧ svc.toContinuousPaperService.decision (input.judged h₀)
        h₀.world.accounts.book = none)
      (fun _ => True) := by
    refine Proc.Triple.mapError (R := fun _ h => Idle h₀ h ∧
      svc.toContinuousPaperService.decision (input.judged h₀) h₀.world.accounts.book = none) ?_
      fun _ _ hs => hs
    refine Proc.Triple.zoom fun h hh => ?_
    subst hh
    intro w hw
    obtain ⟨hexit, -⟩ := hbase w hw
    refine ⟨?_, fun _ _ => trivial⟩
    split
    · rename_i x hx
      rw [hx] at hexit
      exact ⟨⟨hexit.1, .refl _, rfl⟩, hexit.2⟩
    · rename_i e he
      rw [he] at hexit
      exact ⟨⟨hexit.1, .refl _, rfl⟩, hexit.2⟩
  exact hstep _ rfl

theorem idle_applyPaperFill (tick : MarketTick) (r : PipelineResult)
    {R : HedgedError → HedgedWorld → Prop} {C : HedgedWorld → Prop} :
    Proc.Triple (fun h => Idle h₀ h ∧ svc.paperFillDue input.toCycleInput r h.world = none)
      (svc.applyPaperFill input tick r) (fun _ => Idle h₀) R C := by
  refine Proc.Triple.bind (Q := fun v h => h = v ∧ Idle h₀ h ∧
    svc.paperFillDue input.toCycleInput r h.world = none) ?_ fun v => ?_
  · exact Proc.Triple.get fun h hh => ⟨rfl, hh⟩
  refine Proc.Triple.of_fact (F := svc.paperFillDue input.toCycleInput r v.world = none)
    (fun h hh => hh.1 ▸ hh.2.2) fun hnone => ?_
  rw [hnone]
  exact Proc.Triple.pure fun h hh => hh.2.1

theorem sameHedges_funded (input : HedgedCycleInput) (h : HedgedWorld) :
    PaperPerpBook.SameHedges h.perp (funded input h).perp ∧ (funded input h).world = h.world ∧
      (funded input h).cycle = h.cycle := by
  unfold funded
  dsimp only
  split
  · split
    · exact ⟨PaperPerpBook.sameHedges_applyFunding _ _ _ _ _, rfl, rfl⟩
    · exact ⟨PaperPerpBook.sameHedges_applyFunding _ _ _ _ _, rfl, rfl⟩
  · exact ⟨.refl _, rfl, rfl⟩

theorem idle_applyPerpFunding {R : HedgedError → HedgedWorld → Prop} {C : HedgedWorld → Prop} :
    Proc.Triple (Idle h₀) (svc.applyPerpFunding input) (fun _ => Idle h₀) R C := by
  refine Proc.Triple.modify fun h hh => ?_
  split
  · obtain ⟨hperp, hworld, hcycle⟩ := sameHedges_funded input h
    exact ⟨hworld ▸ hh.world, hh.perp.trans hperp, hcycle.trans hh.cycle⟩
  · exact hh

/-- The carry path asks for the hedge of its asset, and counts the cycles. -/
theorem carryFill_of_idle (svc : HedgedPaperService) (input : HedgedCycleInput)
    (hi : Idle h₀ h) :
    svc.carryFill input h = svc.carryFill input { h₀ with cycle := h₀.cycle + 1 } := by
  unfold carryFill
  dsimp only
  rw [hi.perp.isSome, hi.cycle]

/-- What is booked by a hedge attempt of a quiet cycle. -/
theorem told_openHedge {C : HedgedWorld → Prop} {quote : PerpQuote} {fill : ExecutionFill}
    (hcarry : svc.carryFill input { h₀ with cycle := h₀.cycle + 1 } = some (quote, fill))
    (hdecision : (svc.toContinuousPaperService.decision (input.judged h₀)
      h₀.world.accounts.book).isSome = true) :
    Proc.Triple (Idle h₀) (openHedge input fill (some quote) fill.orderId)
      (fun _ => Told svc input h₀) (fun _ => Told svc input h₀) C := by
  refine triple_openHedge fun h r perp ledger hi hhedge => ?_
  have hbooked := PaperPerpBook.booksNothing_iff hhedge
  rw [hi.world.ledger, hi.perp.noLarger_iff, hi.perp.books_eq] at hbooked
  have hcondition : svc.CarryBooks input h₀ ↔ h₀.perp.books input.killSwitch fill
      (some quote.midUsd) fill.orderId input.now h₀.world.ledger = true := by
    constructor
    · rintro ⟨-, quote', fill', hfill, hbooks⟩
      cases hcarry.symm.trans hfill
      exact hbooks
    · exact fun hbooks => ⟨hdecision, quote, fill, hcarry, hbooks⟩
  have htold : Told svc input h₀ (h.withHedge perp ledger) := by
    unfold Told
    rw [hcondition, Bool.not_eq_true, ← Option.map_some, ← hbooked]
    exact ⟨fun hn => ⟨hn.ledger, hn.perp⟩,
      fun hn => ⟨hn.1, hi.world.held, hi.world.cash, hn.2⟩⟩
  exact ⟨htold, fun asset quote' => htold.of_quiet (.refl _) rfl⟩

/-- **The carry path** of a quiet cycle. -/
theorem told_openCarryHedge {C : HedgedWorld → Prop}
    (hdecision : (svc.toContinuousPaperService.decision (input.judged h₀)
      h₀.world.accounts.book).isSome = true) :
    Proc.Triple (Idle h₀) (svc.openCarryHedge input) (fun _ => Told svc input h₀)
      (fun _ => Told svc input h₀) C := by
  refine Proc.Triple.bind (Q := fun v h => h = v ∧ Idle h₀ h) ?_ fun v => ?_
  · exact Proc.Triple.get fun h hh => ⟨rfl, hh⟩
  refine Proc.Triple.of_fact (F := Idle h₀ v) (fun h hh => hh.1 ▸ hh.2) fun hi => ?_
  have hsame := carryFill_of_idle svc input hi
  cases hcarry : svc.carryFill input v with
  | none =>
    refine Proc.Triple.pure fun h hh => ?_
    refine ⟨fun _ => ?_, fun _ => hh.2.bookedNothing⟩
    rintro ⟨-, quote, fill, hfill, -⟩
    rw [← hsame, hcarry] at hfill
    cases hfill
  | some hedge =>
    obtain ⟨quote, fill⟩ := hedge
    exact (told_openHedge (hsame ▸ hcarry) hdecision).mono (fun h hh => hh.2) fun _ h hh => hh

theorem told_closeCycle : Proc.Keeps (Told svc input h₀) (closeCycle input) := by
  refine Proc.Keeps.bind (told_onWorld fun w₀ => ContinuousPaperService.quiet_snapshot _)
    fun _ => ?_
  split
  · exact Proc.Keeps.raise _
  refine Proc.Keeps.get_bind fun v => ?_
  split
  · exact Proc.Keeps.raise _
  · refine Proc.Triple.effect fun h hh => ?_
    have hquiet : ∀ s, World.Quiet h.world (h.world.saveCheckpoint s) :=
      fun s => ⟨rfl, fun _ => rfl, rfl, rfl⟩
    exact ⟨hh.of_quiet (hquiet _) rfl, hh.of_quiet (hquiet _) rfl⟩

/-- **A cycle** behind a closed gate, however it ends. -/
theorem told_cycle (hclosed : svc.GateClosed input h₀) :
    Proc.Triple (fun h => h = h₀) (svc.cycle input) (fun _ => Told svc input h₀)
      (fun _ => Told svc input h₀) (fun _ => True) := by
  refine Proc.Triple.bind
    (Q := fun _ h => h = { h₀ with cycle := h₀.cycle + 1 }) ?_ fun _ => ?_
  · exact Proc.Triple.modify fun h hh => by rw [hh]
  have hdecide := (idle_decideAndSubmit hclosed).weaken (T := fun _ => Told svc input h₀)
    (D := fun _ => True) (fun e h hh => ?_) fun _ _ => trivial
  · refine Proc.Triple.bind hdecide fun ⟨tick, r⟩ => ?_
    refine Proc.Triple.of_fact (fun h hh => hh.2.1) fun hdecision => ?_
    refine Proc.Triple.bind (Q := fun _ => Idle h₀)
      ((idle_applyPaperFill tick r).mono (fun h hh => ⟨hh.1, hh.2.2⟩) fun _ h hh => hh) fun _ => ?_
    refine Proc.Triple.bind (Q := fun _ => Idle h₀) idle_applyPerpFunding fun _ => ?_
    refine Proc.Triple.bind (told_openCarryHedge hdecision) fun _ => ?_
    refine (Proc.Keeps.bind (told_onWorld fun w₀ => ContinuousPaperService.quiet_markTick tick r)
      fun _ => told_closeCycle).weaken (fun _ _ hh => hh) fun _ _ => trivial
  · -- no decision, no carry path
    refine ⟨fun _ hbooks => ?_, fun _ => hh.1.bookedNothing⟩
    have hnone := hbooks.1
    rw [hh.2] at hnone
    cases hnone

/-- **Closed gates book nothing, but for the carry path.** After every run, a symbol
cycle during which diagnostic mode is on, reconciliation is blocked or the kill
switch is engaged adds no order and no fill id, moves no holding and no cash and
opens or enlarges no hedge, exactly when it does not come to a carry hedge that is
booked; and with a durable-state error recorded at start no cycle runs. -/
theorem closed_gates_book_nothing_iff (svc : HedgedPaperService) (es : List Event)
    (input : HedgedCycleInput) (hclosed : svc.GateClosed input (run svc.step svc.start es)) :
    (HedgedWorld.BookedNothing (run svc.step svc.start es)
        (svc.step (run svc.step svc.start es) (.cycle input none)) ↔
      ¬svc.CarryBooks input (run svc.step svc.start es)) ∧
    ∀ error h es', svc.serve (some error) h es' = h := by
  refine ⟨?_, fun _ _ _ => rfl⟩
  obtain ⟨hexit, -⟩ := told_cycle hclosed (run svc.step svc.start es) rfl
  show Told svc input _ _
  split at hexit
  · exact hexit
  · exact hexit

end HedgedPaperService

/-! ### A carry hedge in diagnostic mode -/

namespace Carry

theorem mid_pos : (0 : ℚ) < 100 := by norm_num

theorem five_nonneg : (0 : ℚ) ≤ 5 := by norm_num

/-- A service in diagnostic mode, with the carry path on. -/
def service : HedgedPaperService :=
  { InFlight.service with
    submitter := none
    reconciler := none
    paperFillSimulator := some Oversold.sim
    submit := false
    diagnosticMode := true
    perpHedge := true
    perpFeeBps := 10
    perpSlippageBps := 5
    promoteHarvestSignHold := false
    carryHedgeDiagnostic := true
    circuitBreaker := ⟨3, 10, 5 / 100, 3600, Dict.empty⟩
    perpFee_nonneg := Oversold.ten_nonneg
    perpSlippage_nonneg := five_nonneg
    circuitBreaker_new := rfl }

/-- A BTC cycle at 100 whose perp venue quotes 100 and last paid the given rate. -/
def input (rate : ℚ) : HedgedCycleInput where
  symbol := "BTC/USD"
  market := some
    { tick := ⟨.kraken, "BTC/USD", 0, 100, 100, 100, mid_pos, mid_pos, mid_pos⟩
      references := [⟨.coingecko, "BTC", "USD", 100, mid_pos⟩]
      candles := none
      intelligence := none
      now := 0
      decisionId := "d1" }
  now := 0
  killSwitch := none
  circuitBreaker := none
  reviewWithholds := false
  auditFails := false
  hedgeQuote := none
  fundingTape := none
  fundingQuote := none
  carryQuote := some ⟨"hyperliquid", 100, 0⟩
  carryTape := some [(0, rate)]

end Carry

namespace HedgedPaperService

/-- A rate of zero pays no side, and the cycle books nothing. -/
theorem closed_gates_book_nothing_iff_unpaid :
    HedgedWorld.BookedNothing Carry.service.start
      (Carry.service.step Carry.service.start (.cycle (Carry.input 0) none)) :=
  (closed_gates_book_nothing_iff Carry.service [] (Carry.input 0) (.inl rfl)).1.mpr (by
    rintro ⟨-, quote, fill, hfill, -⟩
    have hnone : (Carry.service.carryFill (Carry.input 0)
        { Carry.service.start with cycle := Carry.service.start.cycle + 1 }).isNone = true := by
      decide +kernel
    rw [run_nil] at hfill
    rw [hfill] at hnone
    cases hnone)

/-- In diagnostic mode a cycle records a hedge's order and its fill and opens the
hedge. -/
theorem not_closed_gates_book_nothing :
    Carry.service.GateClosed (Carry.input (1 / 10000)) Carry.service.start ∧
      ¬HedgedWorld.BookedNothing Carry.service.start
        (Carry.service.step Carry.service.start (.cycle (Carry.input (1 / 10000)) none)) := by
  refine ⟨.inl rfl, fun hnothing => ?_⟩
  have hfills : (Carry.service.step Carry.service.start
      (.cycle (Carry.input (1 / 10000)) none)).world.ledger.processedFillIds.card = 1 := by
    decide +kernel
  have hsubset := Finset.card_le_card hnothing.ledger.fills
  rw [hfills] at hsubset
  exact absurd hsubset (by decide +kernel)

end HedgedPaperService

end TraderStack
