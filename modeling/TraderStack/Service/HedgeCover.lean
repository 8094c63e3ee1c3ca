import TraderStack.Service.BookRuns
import TraderStack.Service.ClosedGates

/-!
# The hedges and their spot positions (service.py, paper_perp.py)

A hedge is opened against a spot fill and nothing closes it. The spot book is long only. A hedge
fits while its spot position is open, on the other side, and at least as large. A purchase cannot
upset that; a sale can, of a hedged asset or of one that it gets hedged.

- `HedgesFit`: every open hedge is covered by its spot position;
- `SaleLeaves`: what a sale must leave for that;
- `fits_cycle`, `fits_reconcileNow`: what a cycle and a pass keep;
- `hedges_fit_along`: the runs in which the hedges fit.
-/

namespace TraderStack

open Lib

/-! ## Hedges that fit -/

/-- Every hedge is of an asset that is held, opposite to a purchase of it, and no larger than what
is held. -/
def HedgesFit (perp : PaperPerpBook) (b : PortfolioBook) : Prop :=
  ∀ asset hedge, perp.positions.get? asset = some hedge →
    0 < b.heldQuantity asset ∧ hedge.side = hedgeSide .buy ∧
      hedge.quantity ≤ b.heldQuantity asset

/-- **A flat asset has no hedge** while the hedges fit. -/
theorem HedgesFit.get?_eq_none {perp : PaperPerpBook} {b : PortfolioBook} (h : HedgesFit perp b)
    {asset : String} (hflat : b.heldQuantity asset = 0) : perp.positions.get? asset = none := by
  cases hget : perp.positions.get? asset with
  | none => rfl
  | some hedge =>
    have hheld := (h asset hedge hget).1
    rw [hflat] at hheld
    exact absurd hheld (lt_irrefl 0)

/-- A sale the book covers leaves at least what the hedge of its asset is for. -/
def SaleLeaves (perp : PaperPerpBook) (b : PortfolioBook) (fill : ExecutionFill) : Prop :=
  b.Covers fill → fill.side = .sell → ∀ hedge ∈ perp.positions.get? (Text.upper fill.asset),
    hedge.quantity + fill.quantity ≤ b.heldQuantity (Text.upper fill.asset)

section

variable {perp perp' : PaperPerpBook} {b b' : PortfolioBook} {fill : ExecutionFill}

/-- Hedges that are covered stay covered where no less is held of any hedged asset. -/
theorem HedgesFit.of_covered (h : HedgesFit perp b)
    (hcovered : ∀ asset hedge, perp.positions.get? asset = some hedge →
      hedge.quantity ≤ b'.heldQuantity asset) : HedgesFit perp b' := by
  intro asset hedge hget
  have hle := hcovered asset hedge hget
  exact ⟨hedge.quantity_pos.trans_le hle, (h asset hedge hget).2.1, hle⟩

theorem HedgesFit.of_held (h : HedgesFit perp b)
    (hheld : ∀ asset, b'.heldQuantity asset = b.heldQuantity asset) : HedgesFit perp b' := by
  intro asset hedge hget
  rw [hheld]
  exact h asset hedge hget

/-- A sale that leaves enough keeps the hedges covered, and so does every purchase. -/
theorem HedgesFit.applyFill (h : HedgesFit perp b) (hleaves : SaleLeaves perp b fill) (now : Time)
    (hfill : (b.applyFill fill.asset fill.side fill.quantity fill.priceUsd fill.feeUsd now
      none).2 = b') : HedgesFit perp b' := by
  by_cases hcovers : b.Covers fill
  · have hmoved : ∀ asset, b'.heldQuantity asset = b.heldQuantity asset + fill.moves asset := by
      intro asset
      rw [← hfill]
      exact heldQuantity_applyFill hcovers now asset
    refine h.of_covered fun asset hedge hget => ?_
    rw [hmoved]
    unfold ExecutionFill.moves
    by_cases hasset : Text.upper fill.asset = asset
    · rw [if_pos hasset]
      cases hside : fill.side with
      | buy =>
        have hle := (h asset hedge hget).2.2
        have hpos := fill.quantity_pos
        show hedge.quantity ≤ b.heldQuantity asset + fill.quantity
        linarith
      | sell =>
        have hle := hleaves hcovers hside hedge (hasset ▸ hget)
        rw [hasset] at hle
        show hedge.quantity ≤ b.heldQuantity asset + -fill.quantity
        linarith
    · rw [if_neg hasset, add_zero]
      exact (h asset hedge hget).2.2
  · -- a refused fill moves nothing
    rcases happly : b.applyFill fill.asset fill.side fill.quantity fill.priceUsd fill.feeUsd now
      none with ⟨r, b''⟩
    rw [happly] at hfill
    obtain rfl := hfill
    rcases PortfolioBook.applyFill_cases happly with
      ⟨e, -, rfl | rfl⟩ | ⟨_, _, _, rfl, -⟩ | ⟨_, _, rfl, -⟩
    · exact h
    · refine h.of_held fun asset => ?_
      rw [PortfolioBook.heldQuantity, PortfolioBook.positionOf_withPosition]
      rfl
    · exact absurd ((covers_iff_applyFill_ok b fill now).mpr (by rw [happly])) hcovers
    · exact absurd ((covers_iff_applyFill_ok b fill now).mpr (by rw [happly])) hcovers

/-- A fill whose hedge attempt would fit: the hedge book refuses to hedge a sale, and a purchase
is held. -/
structure HedgeFitting (perp : PaperPerpBook) (killSwitch : Option KillSwitch)
    (perpMidUsd : Option ℚ) (decisionId : String) (b : PortfolioBook) (fill : ExecutionFill) :
    Prop where
  fits : HedgesFit perp b
  bought : fill.side = .buy → fill.quantity ≤ b.heldQuantity (Text.upper fill.asset)
  sold : fill.side = .sell → ∀ mid, perp.admits killSwitch fill perpMidUsd decisionId ≠ .ok mid

/-- **A hedge attempt** keeps the hedges fitting: what it opens is opposite to a purchase. -/
theorem HedgeFitting.hedged {killSwitch : Option KillSwitch} {perpMidUsd : Option ℚ}
    {decisionId : String} {now : Time} {l l' : ExecutionLedger}
    {r : Except PaperPerpError PaperPerpOutcome}
    (h : HedgeFitting perp killSwitch perpMidUsd decisionId b fill)
    (hhedge : perp.maybeHedgeSpotFill killSwitch fill perpMidUsd decisionId now l
      = (r, perp', l')) : HedgesFit perp' b := by
  rcases PaperPerpBook.positions_of_hedge hhedge with hsame | ⟨mid, hadmits, hopened⟩
  · intro asset hedge hget
    rw [hsame] at hget
    exact h.fits asset hedge hget
  cases hside : fill.side with
  | sell => exact absurd hadmits (h.sold hside mid)
  | buy =>
    intro asset hedge hget
    rw [hopened.positions, Dict.get?_set] at hget
    split at hget
    · rename_i hasset
      cases hget
      have hle := h.bought hside
      rw [hasset]
      refine ⟨fill.quantity_pos.trans_le hle, ?_, hle⟩
      show hedgeSide fill.side = hedgeSide .buy
      rw [hside]
    · exact h.fits asset hedge hget

/-- Funding moves no hedge. -/
theorem HedgesFit.of_sameHedges (h : HedgesFit perp b)
    (hsame : PaperPerpBook.SameHedges perp perp') : HedgesFit perp' b := by
  intro asset hedge hget
  obtain ⟨old, hold, hside, hquantity⟩ := hsame.get? hget
  rw [hside, hquantity]
  exact h asset old hold

end

/-! ## What the steps of the service keep -/

namespace PaperFillSimulator

variable {sim : PaperFillSimulator} {intent : PaperOrderIntent} {midUsd : ℚ} {now : Time}
  {a : Accounts}

/-- An order that ended, or whose fill is booked already, comes with no fill. -/
theorem fill_of_refusal {o : ExecutionOrder} {l : ExecutionLedger} {out : PaperFillOutcome}
    (h : refusal o l intent = some out) : out.fill = none := by
  unfold refusal at h
  split at h
  · cases h
    rfl
  · split at h
    · cases h
      rfl
    · cases h

/-- A planned order whose fill is booked already, or that sells short, comes with no fill. -/
theorem fill_of_checkFill {plan : ExecutionPlan} {o : ExecutionOrder} {key : String}
    {quantity price : ℚ} {hq : 0 < quantity} {hp : 0 < price} {out : PaperFillOutcome}
    (h : sim.checkFill intent plan a o key quantity price hq hp = .outcome out) :
    out.fill = none := by
  unfold checkFill at h
  split at h
  · cases h
    rfl
  · split at h
    · cases h
      rfl
    · cases h

/-- An order that is refused comes with no fill. -/
theorem fill_of_refused {out : PaperFillOutcome} {l' : ExecutionLedger}
    (h : sim.prepare intent midUsd now a = (.outcome out, l')) : out.fill = none := by
  unfold prepare at h
  split at h
  · cases h
  split at h
  · cases h
    rfl
  dsimp only at h
  split at h
  · rename_i out' hrefuse
    cases h
    obtain ⟨o, -, hout⟩ := Option.bind_eq_some_iff.mp hrefuse
    exact fill_of_refusal hout
  split at h
  · cases h
    rfl
  split at h
  · rw [Prod.mk.injEq] at h
    exact fill_of_checkFill h.1
  split at h
  · cases h
  · rw [Prod.mk.injEq] at h
    exact fill_of_checkFill h.1

/-- **The fill of an outcome** is the one that was prepared, and the book covers it. -/
theorem prepared_of_outcome {out : PaperFillOutcome} {a' : Accounts} {fill : ExecutionFill}
    (h : sim.apply intent midUsd now a = (.ok out, a')) (hfill : out.fill = some fill) :
    ∃ plan l', sim.prepare intent midUsd now a = (.fill fill plan, l') ∧ a.book.Covers fill ∧
      a'.book = (a.book.applyFill fill.asset fill.side fill.quantity fill.priceUsd fill.feeUsd
        now none).2 := by
  obtain ⟨p, l', hprepare, ⟨out', rfl, hout, -⟩ | ⟨e, -, herror, -⟩ |
    ⟨fill', plan, booking, rfl, -, hout⟩⟩ := apply_cases h
  · cases hout
    rw [fill_of_refused hprepare] at hfill
    cases hfill
  · cases herror
  have hfilled : out.status = .filled ∧ fill' = fill := by
    split at hout
    · cases hout
    · cases hout
      cases hfill
    · cases hout
      exact ⟨rfl, Option.some.inj hfill⟩
  obtain ⟨hstatus, rfl⟩ := hfilled
  cases applied_of_apply h with
  | unrecorded _ hunfilled => exact absurd hstatus (hunfilled out rfl)
  | recorded hprepare' _ houtcome =>
    obtain ⟨hfills, -⟩ := Prod.mk.inj (hprepare.symm.trans hprepare')
    cases hfills
    rcases houtcome with ⟨-, hcovers⟩ | ⟨e, herror, -⟩
    · exact ⟨plan, l', hprepare, hcovers, rfl⟩
    · cases herror

end PaperFillSimulator

namespace ContinuousPaperService

section

variable {svc : ContinuousPaperService} {perp : PaperPerpBook}

/-- What is held covers the hedges. -/
abbrev Covering (perp : PaperPerpBook) (w : World) : Prop := HedgesFit perp w.accounts.book

theorem covering_submitInvariant (s : IdempotentSubmitter) (env : VenueEnv) (c : SubmitCall) :
    SubmitInvariant s env c (Covering perp) (fun _ _ => Covering perp) where
  save := fun _ h => h
  amend := fun _ _ _ h _ _ _ _ => h
  register := fun _ _ _ h _ _ _ => h
  send := fun _ _ _ h _ _ _ _ => ⟨h, fun _ _ => h⟩
  receive := fun _ _ _ _ h _ _ => h
  search := fun _ h => h
  adopt := fun _ _ _ _ _ h _ _ _ _ _ => h

theorem covering_snapshot (now : Time) : Proc.Keeps (Covering perp) (snapshot now) := by
  refine Proc.Triple.exec fun w hw => ?_
  have hfits : HedgesFit perp (w.accounts.book.snapshot now).2 :=
    hw.of_held (PortfolioBook.sameBook_snapshot w.accounts.book now).heldQuantity
  dsimp only
  split <;> exact hfits

theorem covering_mark (asset : String) (price : ℚ) :
    Proc.Keeps (Covering perp) (mark asset price) := by
  refine Proc.Triple.exec fun w hw => ?_
  dsimp only
  cases hmark : w.accounts.book.mark asset price with
  | error e => exact hw
  | ok b =>
    unfold PortfolioBook.mark at hmark
    split at hmark
    · cases hmark
    · rename_i hprice
      cases hmark
      exact hw.of_held (PortfolioBook.heldQuantity_setMark _ _ (pos_of_check hprice))

theorem covering_saveLedger : Proc.Keeps (Covering perp) saveLedger :=
  Proc.Triple.effect fun _ hw => ⟨hw, hw⟩

theorem covering_submitIntent (portfolio : PortfolioSnapshot) (tick : MarketTick)
    (intent : PaperOrderIntent) (now : Time) :
    Proc.Keeps (Covering perp) (svc.submitIntent portfolio tick intent now) := by
  refine Proc.Keeps.get_bind fun w => ?_
  split
  · exact Proc.Keeps.pure _
  split
  · exact Proc.Keeps.raise _
  split
  · exact Proc.Keeps.raise _
  · rename_i s _
    refine Proc.Keeps.bind ?_ fun _ => Proc.Keeps.pure _
    exact (IdempotentSubmitter.triple_submit_of_invariant
      (covering_submitInvariant s svc.env _)).mapError fun _ _ hw => hw

theorem covering_decideAndSubmit (input : CycleInput) :
    Proc.Keeps (Covering perp) (svc.decideAndSubmit input) := by
  refine Proc.Keeps.bind (covering_snapshot input.now) fun portfolio => ?_
  unfold runOnce
  split
  · exact Proc.Keeps.raise _
  split
  · exact Proc.Keeps.raise _
  split
  · exact Proc.Keeps.raise _
  dsimp only
  split
  · exact Proc.Keeps.pure _
  · exact Proc.Keeps.bind (covering_submitIntent _ _ _ _) fun _ => Proc.Keeps.pure _

theorem covering_markTick (tick : MarketTick) (r : PipelineResult) :
    Proc.Keeps (Covering perp) (markTick tick r) := by
  unfold markTick
  split
  · exact covering_mark _ _
  · exact Proc.Keeps.pure _

/-- A fill a trade row reports, if the ledger accepts it, leaves the hedges covered. -/
def RowLeaves (c : Reconciler) (perp : PaperPerpBook) (a : Accounts) (row : Row) : Prop :=
  ∀ fill o, c.readTrade a.ledger row = .ok (some fill) →
    ExecutionLedger.Accepts a.ledger fill o → SaleLeaves perp a.book fill

/-- **A pass** whose sales leave enough, also when it raises part-way. -/
theorem covering_reconcileState {w : World} (h : Covering perp w) {c : Reconciler} {now : Time}
    {orders trades : Payload}
    (hleaves : c.AlongPass now (RowLeaves c perp) (fun _ _ => True) orders trades w.accounts) :
    HedgesFit perp (c.reconcileState orders trades now w.accounts).2.book := by
  refine Reconciler.reconcileState_invariant (I := fun a _ => HedgesFit perp a.book)
    (j := []) ?_ (fun a _ row _ ha => ha) hleaves h
  intro a _ row hrow ha
  rcases htrade : c.tradeRow row now a with ⟨r, a'⟩
  rcases Reconciler.tradeRow_cases htrade with ⟨rfl, -⟩ | ⟨fill, o, hread, hrecorded, -⟩
  · exact ha
  · exact ha.applyFill (hrow fill o hread hrecorded.accepts) now hrecorded.book.symm

end

end ContinuousPaperService

namespace HedgedPaperService

open ContinuousPaperService

variable {svc : HedgedPaperService} {h : HedgedWorld}

/-- The hedges of a process fit its spot book. -/
abbrev Fits (h : HedgedWorld) : Prop := HedgesFit h.perp h.world.accounts.book

/-- A step on the `World` that leaves what is held leaves the hedges covered. -/
theorem fits_onWorld {α : Type} {p : Service α} (hp : ∀ perp, Proc.Keeps (Covering perp) p) :
    Proc.Keeps Fits (onWorld p) := by
  refine Proc.Triple.mapError (R := fun _ => Fits) ?_ fun _ _ hs => hs
  refine Proc.Triple.zoom fun h hh => ?_
  refine (hp h.perp).mono (fun w hw => ?_) fun _ _ hw => hw
  obtain rfl := hw
  exact hh

/-- Saving the ledger changes neither book. -/
theorem keeps_ledgerSaved (P : PaperPerpBook → PortfolioBook → Prop) :
    Proc.Keeps (fun h : HedgedWorld => P h.perp h.world.accounts.book) (onWorld saveLedger) := by
  refine Proc.Triple.mapError (R := fun _ (h : HedgedWorld) => P h.perp h.world.accounts.book)
    ?_ fun _ _ hs => hs
  refine Proc.Triple.zoom fun h hh => Proc.Triple.effect fun w hw => ?_
  obtain rfl := hw
  exact ⟨hh, hh⟩

/-- A paper fill a cycle comes to leaves the hedges covered, and the sale of an unhedged asset is
not hedged. -/
structure FillCovered (input : HedgedCycleInput) (decisionId : String) (h : HedgedWorld)
    (fill : ExecutionFill) : Prop where
  leaves : SaleLeaves h.perp h.world.accounts.book fill
  unhedged : fill.side = .sell → ∀ mid, h.perp.admits input.killSwitch fill
    (input.hedgeQuote.map PerpQuote.midUsd) decisionId ≠ .ok mid

/-- The paper fill that is due in a world is covered. -/
def DueFillCovered (svc : HedgedPaperService) (input : HedgedCycleInput) (tick : MarketTick)
    (r : PipelineResult) (h : HedgedWorld) : Prop :=
  ∀ due ∈ svc.paperFillDue input.toCycleInput r h.world, ∀ fill plan l',
    due.1.prepare due.2 tick.mid input.now h.world.accounts = (.fill fill plan, l') →
      FillCovered input due.2.decisionId h fill

/-- What the hedge of a fill at a venue's mid would fit. -/
abbrev AttemptFits (input : HedgedCycleInput) (quote : Option PerpQuote) (decisionId : String)
    (fill : ExecutionFill) (h : HedgedWorld) : Prop :=
  HedgeFitting h.perp input.killSwitch (quote.map PerpQuote.midUsd) decisionId
    h.world.accounts.book fill

theorem fits_openHedge (input : HedgedCycleInput) (fill : ExecutionFill)
    (quote : Option PerpQuote) (decisionId : String) :
    Proc.Triple (AttemptFits input quote decisionId fill)
      (openHedge input fill quote decisionId) (fun _ => Fits) (fun _ => Fits) (fun _ => True) :=
  triple_openHedge fun _ _ _ _ hfitting hhedge =>
    ⟨hfitting.hedged hhedge, fun _ _ => hfitting.hedged hhedge⟩

theorem perp_noteFill (h : HedgedWorld) (before : PortfolioBook) (strategyId : String)
    (fill : ExecutionFill) (now : Time) :
    (h.noteFill before strategyId fill now).perp = h.perp := by
  unfold HedgedWorld.noteFill
  dsimp only
  split
  · split <;> rfl
  · rfl

/-- **A paper fill and its hedge.** -/
theorem fits_applyPaperFill (input : HedgedCycleInput) (tick : MarketTick) (r : PipelineResult) :
    Proc.Triple (fun h => svc.DueFillCovered input tick r h ∧ Fits h)
      (svc.applyPaperFill input tick r) (fun _ => Fits) (fun _ => Fits) (fun _ => True) := by
  refine Proc.Triple.bind (Q := fun h₀ h => h = h₀ ∧ svc.DueFillCovered input tick r h ∧ Fits h)
    (Proc.Triple.get fun h hh => ⟨rfl, hh⟩) fun h₀ => ?_
  split
  · exact Proc.Triple.pure fun h hh => hh.2.2
  rename_i sim intent hdue
  -- the order is refused, or it is filled and its fill may be hedged
  refine Proc.Triple.bind (Q := fun out h => Fits h ∧ ∀ fill, out.fill = some fill →
    AttemptFits input input.hedgeQuote intent.decisionId fill h) ?_ fun out => ?_
  · refine Proc.Triple.mapError (R := fun _ => Fits) ?_ fun _ _ hh => hh
    refine Proc.Triple.zoom fun h hh => Proc.Triple.exec fun w hw => ?_
    obtain ⟨rfl, hcovered, hfits⟩ := hh
    subst hw
    rcases happly : sim.apply intent tick.mid input.now h.world.accounts with ⟨result, a'⟩
    have hfits' : HedgesFit h.perp a'.book := by
      cases PaperFillSimulator.applied_of_apply happly with
      | unrecorded => exact hfits
      | recorded hprepare =>
        exact hfits.applyFill (hcovered _ hdue _ _ _ hprepare).leaves input.now rfl
    cases result with
    | error e => exact hfits'
    | ok out =>
      refine ⟨hfits', fun fill hfill => ?_⟩
      obtain ⟨plan, l', hprepare, hcovers, hbook⟩ :=
        PaperFillSimulator.prepared_of_outcome happly hfill
      refine ⟨hfits', fun hside => ?_, (hcovered _ hdue fill plan l' hprepare).unhedged⟩
      show fill.quantity ≤ a'.book.heldQuantity (Text.upper fill.asset)
      rw [hbook, heldQuantity_applyFill hcovers, ExecutionFill.moves, if_pos rfl, hside]
      exact le_add_of_nonneg_left (PortfolioBook.positionOf _ _).quantity_nonneg
  split
  · exact ((fits_onWorld fun _ => covering_saveLedger).mono (fun _ hh => hh.1)
      fun _ _ hh => hh).weaken (fun _ _ hh => hh) fun _ _ => trivial
  rename_i fill hfill
  refine Proc.Triple.bind
    (Q := fun _ => AttemptFits input input.hedgeQuote intent.decisionId fill)
    (Proc.Triple.modify fun h hh => ?_) fun _ => ?_
  · unfold AttemptFits
    rw [perp_noteFill, world_noteFill]
    exact hh.2 fill hfill
  refine Proc.Triple.bind
    (Q := fun _ => AttemptFits input input.hedgeQuote intent.decisionId fill) ?_ fun _ => ?_
  · exact (keeps_ledgerSaved fun perp book => HedgeFitting perp input.killSwitch
      (input.hedgeQuote.map PerpQuote.midUsd) intent.decisionId book fill).weaken
        (fun _ _ hh => hh.fits) fun _ _ => trivial
  split
  · exact fits_openHedge input fill input.hedgeQuote intent.decisionId
  · exact Proc.Triple.pure fun _ hh => hh.fits

theorem fits_applyPerpFunding (input : HedgedCycleInput) :
    Proc.Keeps Fits (svc.applyPerpFunding input) := by
  refine Proc.Triple.modify fun h hh => ?_
  split
  · unfold Fits
    rw [world_funded]
    exact hh.of_sameHedges (sameHedges_funded input h).1
  · exact hh

/-- Without the carry path nothing else is hedged. -/
theorem fits_openCarryHedge (hdiagnostic : svc.carryHedgeDiagnostic = false)
    (hpromote : svc.promoteHarvestSignHold = false) (input : HedgedCycleInput) :
    Proc.Keeps Fits (svc.openCarryHedge input) := by
  have hnone : ∀ h, svc.carryFill input h = none := by
    intro h
    unfold carryFill carryActive
    rw [hdiagnostic, hpromote, Bool.or_false, Bool.and_false]
    rfl
  refine Proc.Keeps.get_bind fun h => ?_
  rw [hnone]
  exact Proc.Keeps.pure _

theorem fits_checkpoint : Proc.Keeps Fits checkpoint := by
  refine Proc.Keeps.get_bind fun h => ?_
  split
  · exact Proc.Keeps.raise _
  · exact Proc.Triple.effect fun h hh => ⟨hh, hh⟩

/-! ## Cycles, passes and runs -/

/-- The paper fill a cycle comes to is covered. -/
def CycleCovered (svc : HedgedPaperService) (h : HedgedWorld) (input : HedgedCycleInput) : Prop :=
  ∀ x ∈ (svc.decideAndSubmit input (counted h)).exit.toOption,
    svc.DueFillCovered input x.1 x.2 (svc.decideAndSubmit input (counted h)).world

/-- The fills a pass comes to leave the hedges covered. -/
def PassCovered (svc : HedgedPaperService) (h : HedgedWorld) (input : PassInput) : Prop :=
  ∀ c ∈ svc.reconciler, ∀ payloads ∈ input.payloads,
    c.AlongPass input.now (RowLeaves c h.perp) (fun _ _ => True) payloads.1 payloads.2
      h.world.accounts

/-- An event that does not crash leaves the hedges covered. A crash ends them all. -/
def StepCovered (svc : HedgedPaperService) (h : HedgedWorld) : Event → Prop
  | .cycle input none => svc.CycleCovered h input
  | .reconcile input none => svc.PassCovered h input
  | _ => True

theorem fits_decideAndSubmit (input : HedgedCycleInput) :
    Proc.Keeps Fits (svc.decideAndSubmit input) := by
  refine Proc.Keeps.get_bind fun h => ?_
  exact Proc.Keeps.bind (Proc.Triple.modify fun h hh => hh) fun _ =>
    fits_onWorld fun _ => covering_decideAndSubmit _

/-- **A cycle** whose fill is covered, wherever it ends. -/
theorem fits_cycle (hdiagnostic : svc.carryHedgeDiagnostic = false)
    (hpromote : svc.promoteHarvestSignHold = false) (input : HedgedCycleInput)
    (hcovered : svc.CycleCovered h input) :
    Proc.Triple (fun h' => h' = h ∧ Fits h') (svc.cycle input) (fun _ => Fits) (fun _ => Fits)
      (fun _ => True) := by
  have hkeeps : ∀ {α : Type} {p : HedgedStep α}, Proc.Keeps Fits p →
      Proc.Triple Fits p (fun _ => Fits) (fun _ => Fits) (fun _ => True) :=
    fun hp => hp.weaken (fun _ _ hh => hh) fun _ _ => trivial
  refine Proc.Triple.bind (Q := fun _ h' => h' = counted h ∧ Fits h') ?_ fun _ => ?_
  · refine Proc.Triple.modify fun h' hh => ?_
    obtain ⟨rfl, hfits⟩ := hh
    exact ⟨rfl, hfits⟩
  refine Proc.Triple.bind (hkeeps (fits_decideAndSubmit input)).ran fun ⟨tick, r⟩ => ?_
  refine Proc.Triple.bind ((fits_applyPaperFill input tick r).mono (fun h' hh => ?_)
    fun _ _ hh => hh) fun _ => ?_
  · obtain ⟨hexit, rfl, hfits⟩ := hh
    exact ⟨hcovered (tick, r) (by rw [hexit]; rfl), hfits⟩
  refine hkeeps (Proc.Keeps.bind (fits_applyPerpFunding input) fun _ => ?_)
  refine Proc.Keeps.bind (fits_openCarryHedge hdiagnostic hpromote input) fun _ => ?_
  refine Proc.Keeps.bind (fits_onWorld fun _ => covering_markTick tick r) fun _ => ?_
  refine Proc.Keeps.bind (fits_onWorld fun _ => covering_snapshot input.now) fun _ => ?_
  split
  · exact Proc.Keeps.raise _
  · exact fits_checkpoint

/-- **A pass** whose fills leave the hedges covered, also when it raises part-way. -/
theorem fits_reconcileNow (input : PassInput) (hcovered : svc.PassCovered h input) :
    Proc.Triple (fun h' => h' = h ∧ Fits h') (svc.reconcileNow input) (fun _ => Fits)
      (fun _ => Fits) Fits := by
  have hblocked : ∀ b, Proc.Keeps Fits (onWorld (setBlocked b)) := fun b =>
    fits_onWorld fun _ => Proc.Triple.modify fun _ hw => hw
  refine Proc.Triple.handle (R := fun _ => Fits) ?_ fun _ => hblocked _
  refine Proc.Triple.bind (Q := fun _ => Fits) ?_ fun execution => ?_
  · unfold HedgedPaperService.reconcileExecution
    split
    · exact Proc.Triple.pure fun _ hh => hh.2
    rename_i c hc
    split
    · exact Proc.Triple.raise fun _ hh => hh.2
    rename_i orders trades hpayloads
    refine Proc.Triple.bind (Q := fun _ => Fits) ?_ fun result => ?_
    · refine Proc.Triple.mapError (R := fun _ => Fits) ?_ fun _ _ hh => hh
      refine Proc.Triple.zoom fun h' hh => Proc.Triple.exec fun w hw => ?_
      obtain ⟨rfl, hfits⟩ := hh
      subst hw
      have hpass := covering_reconcileState hfits (hcovered c hc _ hpayloads)
      dsimp only
      split <;> exact hpass
    refine Proc.Keeps.bind (fits_onWorld fun _ => covering_saveLedger) fun _ => ?_
    split
    · exact Proc.Keeps.bind fits_checkpoint fun _ => Proc.Keeps.pure _
    · exact Proc.Keeps.pure _
  · refine Proc.Keeps.bind (fits_onWorld fun _ => ?_) fun _ => hblocked _
    unfold reconcilePortfolio
    split
    · exact Proc.Keeps.raise _
    · exact Proc.Keeps.pure _

/-- A new process has no hedges. -/
theorem fits_restart (svc : HedgedPaperService) (h : HedgedWorld) : Fits (svc.restart h) :=
  fun _ _ hget => by cases hget

/-- **A step** whose fills are covered keeps the hedges covered. -/
theorem fits_step (hdiagnostic : svc.carryHedgeDiagnostic = false)
    (hpromote : svc.promoteHarvestSignHold = false) {e : Event} (hcovered : svc.StepCovered h e)
    (hfits : Fits h) : Fits (svc.step h e) := by
  cases e with
  | cycle input crash =>
    cases crash with
    | none =>
      obtain ⟨hend, -⟩ := fits_cycle hdiagnostic hpromote input hcovered h ⟨rfl, hfits⟩
      show Fits (svc.cycle input h).world
      split at hend <;> exact hend
    | some k => exact fits_restart svc _
  | reconcile input crash =>
    cases crash with
    | none =>
      obtain ⟨hend, -⟩ := fits_reconcileNow input hcovered h ⟨rfl, hfits⟩
      show Fits (svc.reconcileNow input h).world
      split at hend <;> exact hend
    | some k => exact fits_restart svc _

/-- A cycle whose paper fill is a purchase is covered. -/
theorem cycleCovered_of_buy {input : HedgedCycleInput}
    (hbuy : ∀ x ∈ (svc.decideAndSubmit input (counted h)).exit.toOption,
      ∀ due ∈ svc.paperFillDue input.toCycleInput x.2
        (svc.decideAndSubmit input (counted h)).world.world, due.2.side = .buy) :
    svc.CycleCovered h input := by
  intro x hx due hdue fill plan l' hprepare
  obtain ⟨o, hprepared⟩ := PaperFillSimulator.prepare_fill hprepare
  have hside : fill.side = .buy := hprepared.side.trans (hbuy x hx due hdue)
  have hnot : fill.side ≠ .sell := by
    rw [hside]
    decide
  exact ⟨fun _ hsell => absurd hsell hnot, fun hsell => absurd hsell hnot⟩

end HedgedPaperService

/-! ### A stop-loss under a hedge -/

namespace Unwound

/-- The service with its hedge book, and without the carry path. -/
def service : HedgedPaperService := { Untold.service with perpHedge := true }

/-- A BTC entry at 100, with a perp mid or without one. -/
def entry (quote : Option PerpQuote) : HedgedCycleInput :=
  { Untold.input "d1" 0 100 Oversold.hundred_pos with hedgeQuote := quote }

/-- The stop-loss at 90. -/
def stopLoss (quote : Option PerpQuote) : HedgedCycleInput :=
  { Untold.input "d2" 60 90 Untold.ninety_pos with hedgeQuote := quote }

/-- An entry that is hedged, and its exit. -/
def hedgedEntry : HedgedWorld := run service.step service.start
  [.cycle (entry (some ⟨"hyperliquid", 100, 0⟩)) none, .cycle (stopLoss none) none]

/-- An entry without a perp mid, and its exit with one. -/
def hedgedExit : HedgedWorld := run service.step service.start
  [.cycle (entry none) none, .cycle (stopLoss (some ⟨"hyperliquid", 90, 60⟩)) none]

end Unwound

namespace HedgedPaperService

/-- **A hedge outlives its position**, and the exit of an unhedged position is hedged. With the
carry path off, a stop-loss sells all but a residual of BTC: a hedge of the entry is larger than
what is left, and a hedge of the exit is on the same side. -/
theorem not_hedges_fit :
    Unwound.service.carryHedgeDiagnostic = false ∧ Unwound.service.promoteHarvestSignHold = false ∧
      Unwound.hedgedEntry.world.accounts.book.heldQuantity "BTC" = 1 / 2000 ∧
      (Unwound.hedgedEntry.perp.positions.get? "BTC").map (fun hedge => hedge.quantity) = some 1 ∧
      (Unwound.hedgedExit.perp.positions.get? "BTC").map (fun hedge => hedge.side) = some .buy ∧
      ¬Fits Unwound.hedgedEntry ∧ ¬Fits Unwound.hedgedExit := by
  have hleft : Unwound.hedgedEntry.world.accounts.book.heldQuantity "BTC" = 1 / 2000 ∧
      (Unwound.hedgedEntry.perp.positions.get? "BTC").map (fun hedge => hedge.quantity) = some 1 ∧
      (Unwound.hedgedExit.perp.positions.get? "BTC").map (fun hedge => hedge.side)
        = some .buy := by
    decide +kernel
  refine ⟨rfl, rfl, hleft.1, hleft.2.1, hleft.2.2, fun hfits => ?_, fun hfits => ?_⟩
  · obtain ⟨hedge, hget, hquantity⟩ := Option.map_eq_some_iff.mp hleft.2.1
    have hle := (hfits "BTC" hedge hget).2.2
    rw [hleft.1, hquantity] at hle
    norm_num at hle
  · obtain ⟨hedge, hget, hside⟩ := Option.map_eq_some_iff.mp hleft.2.2
    have hopposite := (hfits "BTC" hedge hget).2.1
    rw [hside] at hopposite
    cases hopposite

/-- **The runs in which the hedges fit.** With the carry path off, start a process and let no step
book a sale that leaves less than the hedge of its asset is for, or a sale of an unhedged asset that
the hedge book would hedge. Then after every step each hedge is on the other side of a spot
position that is at least as large, and an asset that is flat has none. -/
theorem hedges_fit_along (svc : HedgedPaperService) (hdiagnostic : svc.carryHedgeDiagnostic = false)
    (hpromote : svc.promoteHarvestSignHold = false) (es : List Event)
    (hcovered : Along svc.step svc.StepCovered svc.start es) :
    ∀ pre, pre <+: es → Fits (run svc.step svc.start pre) ∧
      ∀ asset, (run svc.step svc.start pre).world.accounts.book.heldQuantity asset = 0 →
        (run svc.step svc.start pre).perp.positions.get? asset = none := by
  rintro pre ⟨post, rfl⟩
  have hpre := ((along_append svc.start pre post).mp hcovered).1
  have hfits : Fits (run svc.step svc.start pre) :=
    run_invariant_along (fun _ _ hG hI => fits_step hdiagnostic hpromote hG hI) svc.start pre hpre
      (fun _ _ hget => by cases hget)
  exact ⟨hfits, fun asset hflat => hfits.get?_eq_none hflat⟩

/-- The entry alone is hedged, and its hedge fits. -/
theorem hedges_fit_along_entry :
    let h := run Unwound.service.step Unwound.service.start
      [.cycle (Unwound.entry (some ⟨"hyperliquid", 100, 0⟩)) none]
    (h.perp.positions.get? "BTC").isSome = true ∧ Fits h := by
  have hbuy : ((Unwound.service.decideAndSubmit (Unwound.entry (some ⟨"hyperliquid", 100, 0⟩))
      (counted Unwound.service.start)).exit.toOption.bind fun x =>
        Unwound.service.paperFillDue (Unwound.entry (some ⟨"hyperliquid", 100, 0⟩)).toCycleInput x.2
          (Unwound.service.decideAndSubmit (Unwound.entry (some ⟨"hyperliquid", 100, 0⟩))
            (counted Unwound.service.start)).world.world).map (fun due => due.2.side) = some .buy ∧
      ((run Unwound.service.step Unwound.service.start
        [.cycle (Unwound.entry (some ⟨"hyperliquid", 100, 0⟩)) none]).perp.positions.get?
          "BTC").isSome = true := by decide +kernel
  refine ⟨hbuy.2, (hedges_fit_along Unwound.service rfl rfl
    [.cycle (Unwound.entry (some ⟨"hyperliquid", 100, 0⟩)) none] ⟨?_, trivial⟩ _
      (List.prefix_refl _)).1⟩
  refine cycleCovered_of_buy fun x hx due hdue => ?_
  have hside := hbuy.1
  rw [Option.mem_def.mp hx, Option.bind_some, Option.mem_def.mp hdue, Option.map_some] at hside
  exact Option.some.inj hside

end HedgedPaperService

end TraderStack
