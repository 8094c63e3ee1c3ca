import TraderStack.Execution.Provenance
import TraderStack.Execution.SubmitRuns

/-!
# The discriminator over whole runs

Submit calls, simulated fills and reconciliation passes in any order. As long as
every writer meets its condition, `is_local_paper_fill` and the processed
paper-fill ids agree, no order is filled from both sides, and no row of a
venue-executed order is taken for a local simulation. Without the conditions a
fee-less venue fill is indistinguishable from a simulated one.
-/

namespace TraderStack

open Lib

/-- The world, and who filled which order so far. -/
structure Audited where
  world : World
  journal : Journal

/-- What happens to the execution records. -/
inductive ExecutionEvent where
  | submit (call : SubmitCall)
  | apply (intent : PaperOrderIntent) (midUsd : ℚ) (now : Time)
  | reconcile (ordersPayload tradesPayload : Payload) (now : Time)

/-- The parties of the execution plane. -/
structure ExecutionDesk where
  submitter : IdempotentSubmitter
  env : VenueEnv
  simulator : PaperFillSimulator
  reconciler : Reconciler

namespace PaperFillSimulator

variable {sim : PaperFillSimulator} {intent : PaperOrderIntent} {midUsd : ℚ} {now : Time}
  {a a' : Accounts}

/-- The key of the order `apply` records a fill on, if it does. -/
def simulated (sim : PaperFillSimulator) (intent : PaperOrderIntent) (midUsd : ℚ) (now : Time)
    (a : Accounts) : Option String :=
  match sim.prepare intent midUsd now a with
  | (.fill fill _, l) =>
    match l.recordFill fill now with
    | .ok (true, _) => some fill.orderId
    | _ => none
  | _ => none

/-- The simulator's fill of an order that is already there, if the ledger takes
it, is the order's first and completes it: nothing was filled before, and the
quantity is not cut down to a shrunken holding. -/
def FillsWhole (sim : PaperFillSimulator) (intent : PaperOrderIntent) (midUsd : ℚ)
    (a : Accounts) : Prop :=
  ∀ o ∈ existingOrder a.ledger intent.decisionId,
    ∀ plan ∈ (sim.planner.plan intent
      (adverseFillPriceUsd intent.side midUsd sim.paperSlippageBps) midUsd
      (reduceOnlyCap a.book intent)).toOption,
    o.filledQuantity + existingQuantity o plan (reduceOnlyCap a.book intent) ≤
        o.requestedQuantity + fillTolerance →
      o.feeSource = none ∧
        o.stateAfterFill (existingQuantity o plan (reduceOnlyCap a.book intent)) = .filled

instance : Decidable (sim.FillsWhole intent midUsd a) := by
  unfold FillsWhole
  infer_instance

/-- **What `apply` does to the records**: it registers at most an empty order,
and then books nothing or records the prepared fill on the decision's order. -/
theorem apply_recorded {r : Except PaperFillError PaperFillOutcome}
    (h : sim.apply intent midUsd now a = (r, a')) :
    ∃ l', (l' = a.ledger ∨ ∃ plan : ExecutionPlan,
        plan.clientOrderId = sim.planner.clientOrderIdFor plan.decisionId ∧
        a.ledger.registerOrder (plannedOrder plan now) = .ok l') ∧
      ((sim.simulated intent midUsd now a = none ∧ a' = { a with ledger := l' }) ∨
        ∃ fill plan o, PreparedFill sim intent midUsd now a fill plan l' o ∧
          Reconciler.Recorded { a with ledger := l' } a' fill o now ∧
          sim.simulated intent midUsd now a = some o.orderId) := by
  obtain ⟨p, l', hprep, hcase⟩ := apply_cases h
  refine ⟨l', (prepare_ledger hprep).imp_right ?_, ?_⟩
  · rintro ⟨plan, -, hplan, hreg⟩
    have hplanned := ExecutionPlanner.planned_of_ok hplan
    exact ⟨plan, by rw [hplanned.clientOrderId, hplanned.decisionId], hreg⟩
  unfold simulated
  rw [hprep]
  rcases hcase with ⟨out, rfl, -, rfl⟩ | ⟨e, rfl, -, rfl⟩ | ⟨fill, plan, booking, rfl, hbook, -⟩
  · exact .inl ⟨rfl, rfl⟩
  · exact .inl ⟨rfl, rfl⟩
  obtain ⟨o, hp⟩ := prepare_fill hprep
  dsimp only
  rcases bookFill_cases hbook with ⟨rfl, hno⟩ | ⟨o', hacc, hl, happly, -⟩
  · left
    refine ⟨?_, rfl⟩
    rcases hno with ⟨-, hmem⟩ | ⟨e, rfl, -⟩
    · unfold ExecutionLedger.recordFill
      rw [if_pos hmem]
    · unfold bookFill at hbook
      rcases hrec : l'.recordFill fill now with e' | ⟨_ | _, l⟩
      · rfl
      · rfl
      · rw [hrec] at hbook
        dsimp only at hbook
        split at hbook <;> cases hbook
  · -- the fill names the order by its key
    have hsame : o' = o := by
      have hfound := hacc.found
      unfold ExecutionLedger.findOrder at hfound
      rw [hp.orderId, prepared_stored hp] at hfound
      exact (Option.some.inj hfound).symm
    subst hsame
    right
    refine ⟨fill, plan, o', hp, ⟨hacc, hl, by rw [happly]⟩, ?_⟩
    have hrecorded : { a with ledger := l' }.ledger.recordFill fill now = _ :=
      ExecutionLedger.recordFill_of_accepts hacc
    dsimp only at hrecorded
    rw [hrecorded, hp.orderId]

end PaperFillSimulator

/-! ## The writers -/

/-- A trade row the ledger takes has an id of its own and does not complete an
order none of whose fills carried a fee. -/
def TradeKeeps (c : Reconciler) (a : Accounts) (row : Row) : Prop :=
  ∀ fill ∈ (c.readTrade a.ledger row).toOption.join, ∀ o ∈ a.ledger.findOrder fill.orderId,
    fill.fillId ∉ a.ledger.processedFillIds →
    o.filledQuantity + fill.quantity ≤ o.requestedQuantity + fillTolerance →
      isPaperSimulatedFill fill.fillId = false ∧
        ¬(o.stateAfterFill fill.quantity = .filled ∧
          o.feeSourceAfter fill.feeSource = .modelled)

instance (c : Reconciler) (a : Accounts) (row : Row) : Decidable (TradeKeeps c a row) := by
  unfold TradeKeeps
  infer_instance

/-- An order row does not report as filled an order none of whose fills so far
carried a fee. -/
def OrderKeeps (l : ExecutionLedger) (row : Row) : Prop :=
  mapState (Text.lower (row.text ["status"])) = some .filled →
    ∀ o ∈ l.findOrder (row.text ["order_id", "id"]),
      o.state.isLegalTransition .filled → o.state ≠ .filled → o.feeSource ≠ some .modelled

instance (l : ExecutionLedger) (row : Row) : Decidable (OrderKeeps l row) := by
  unfold OrderKeeps
  infer_instance

theorem isLocalPaperFill_withFill (o : ExecutionOrder) (fill : ExecutionFill) (now : Time) :
    isLocalPaperFill (o.withFill fill now) = true ↔
      o.stateAfterFill fill.quantity = .filled ∧ o.feeSourceAfter fill.feeSource = .modelled := by
  unfold isLocalPaperFill ExecutionOrder.withFill
  simp only [Bool.and_eq_true, decide_eq_true_eq, Option.some.injEq]

/-- **A trade row** meeting its condition. -/
theorem sourced_tradeRow {c : Reconciler} {a : Accounts} {j : Journal} {row : Row} {now : Time}
    (hkeeps : TradeKeeps c a row) (h : Sourced a.ledger j) :
    Sourced (c.tradeRow row now a).2.ledger
      (j ++ (c.recorded row now a).toList.map fun e => (e.1, .venue)) := by
  rcases hrow : c.tradeRow row now a with ⟨r, a'⟩
  rcases Reconciler.tradeRow_cases hrow with ⟨rfl, hnone, -⟩ | ⟨fill, o, hread, hrec, hsome, -⟩
  · rw [hnone]
    show Sourced a'.ledger (j ++ [])
    rw [List.append_nil]
    exact h
  · rw [hsome]
    show Sourced a'.ledger (j ++ [(o.orderId, .venue)])
    rw [hrec.ledger]
    have hacc := hrec.accepts
    have hlocal := (Reconciler.readTrade_some hread).2.2 o hacc.found
    obtain ⟨hid, hno⟩ := hkeeps fill (by rw [hread]; rfl) o hacc.found hacc.fresh hacc.fits
    refine h.recordVenue (ExecutionLedger.get?_of_findOrder hacc.found) hid hlocal ?_
    rw [← isLocalPaperFill_withFill o fill now] at hno
    exact Bool.not_eq_true _ ▸ hno

/-- **An order row** meeting its condition. -/
theorem sourced_orderRow {l : ExecutionLedger} {j : Journal} {row : Row} {now : Time}
    (hkeeps : OrderKeeps l row) (h : Sourced l j) :
    Sourced (Reconciler.orderRow row now l).2 j := by
  rcases hrow : Reconciler.orderRow row now l with ⟨r, l'⟩
  rcases Reconciler.orderRow_cases hrow with rfl | ⟨identifier, o, state, hid, hfind, hlocal,
    hstate, hlegal, rfl⟩
  · exact h
  · refine h.put (ExecutionLedger.get?_of_findOrder hfind) rfl rfl ?_ rfl
    rw [hlocal]
    have htext : row.text ["order_id", "id"] = identifier := by
      unfold Row.requiredText at hid
      split at hid
      · cases hid
      · exact Except.ok.inj hid
    -- only a status of FILLED could make it local
    by_cases hfilled : state = .filled
    · subst hfilled
      by_cases hwas : o.state = .filled
      · rw [← hlocal]
        unfold isLocalPaperFill
        rw [hwas]
      · have hfee := hkeeps hstate o (by rw [htext]; exact hfind) hlegal hwas
        unfold isLocalPaperFill
        simp [hfee]
    · unfold isLocalPaperFill
      simp [hfilled]

/-- **The simulator**, filling whole orders. -/
theorem sourced_apply {sim : PaperFillSimulator} {intent : PaperOrderIntent} {midUsd : ℚ}
    {now : Time} {a : Accounts} {j : Journal} (hwhole : sim.FillsWhole intent midUsd a)
    (h : Sourced a.ledger j) :
    Sourced (sim.apply intent midUsd now a).2.ledger
      (j ++ (sim.simulated intent midUsd now a).toList.map fun k => (k, .simulator)) := by
  rcases happ : sim.apply intent midUsd now a with ⟨r, a'⟩
  obtain ⟨l', hreg, hcase⟩ := PaperFillSimulator.apply_recorded happ
  -- registering an empty order first keeps the records as they are
  have hl' : Sourced l' j := by
    rcases hreg with rfl | ⟨plan, hplan, hreg⟩
    · exact h
    · obtain ⟨rfl, hold⟩ := ExecutionLedger.registerOrder_ok hreg
      rcases hold with hnone | hsame
      · exact h.register hplan hnone
      · exact h.amend hsame (.refl _)
  rcases hcase with ⟨hnone, rfl⟩ | ⟨fill, plan, o, hp, hrec, hsome⟩
  · rw [hnone]
    show Sourced l' (j ++ [])
    rw [List.append_nil]
    exact hl'
  · rw [hsome]
    show Sourced a'.ledger (j ++ [(o.orderId, .simulator)])
    rw [hrec.ledger]
    have hstored := PaperFillSimulator.prepared_stored hp
    have hkey := hl'.idempotencyKey hstored
    have hfits := hrec.accepts.fits
    -- an existing order by the condition, a new one because it is empty
    have hfirst : o.feeSource = none ∧ o.stateAfterFill fill.quantity = .filled := by
      rw [hp.quantity] at hfits ⊢
      rcases hp.order with ⟨hex, -, -⟩ | ⟨-, rfl, -⟩
      · exact hwhole o hex plan (by rw [hp.planned]; rfl) hfits
      · refine ⟨rfl, ?_⟩
        rw [PaperFillSimulator.existingQuantity_plannedOrder]
        unfold ExecutionOrder.stateAfterFill PaperFillSimulator.plannedOrder
        dsimp only
        rw [zero_add, sub_self, abs_zero, if_pos (by unfold fillTolerance; norm_num)]
    refine hl'.recordSimulated hstored (by rw [hp.fillId, hkey]) hfirst.1 ?_
    rw [isLocalPaperFill_withFill]
    refine ⟨hfirst.2, ?_⟩
    unfold ExecutionOrder.feeSourceAfter
    rw [hfirst.1, hp.feeSource]

/-- **The submitter**, in every world. -/
theorem sourced_submitInvariant (s : IdempotentSubmitter) (env : VenueEnv) (c : SubmitCall)
    (j : Journal) :
    SubmitInvariant s env c (fun w => Sourced w.ledger j) (fun _ _ w => Sourced w.ledger j) where
  save := fun _ h => h
  amend := fun _ _ _ h hget ha _ _ => h.amend hget ha
  register := fun _ _ _ h hplan hnone _ => h.register hplan hnone
  send := fun _ _ _ h _ _ _ _ => ⟨h, fun _ _ => h⟩
  receive := fun _ _ id now h hget hstate => h.amend hget (amends_receipted hstate id now)
  search := fun _ h => h
  adopt := fun _ _ now _ _ h hget huncertain _ _ _ => h.amend hget (amends_adopted huncertain now)

/-! ## Runs -/

namespace ExecutionDesk

variable (d : ExecutionDesk)

/-- One event. -/
def step (a : Audited) : ExecutionEvent → Audited
  | .submit c => { a with world := (d.submitter.submit d.env c a.world).world }
  | .apply intent midUsd now =>
    { world :=
        { a.world with accounts := (d.simulator.apply intent midUsd now a.world.accounts).2 }
      journal := a.journal ++
        (d.simulator.simulated intent midUsd now a.world.accounts).toList.map
          fun k => (k, .simulator) }
  | .reconcile orders trades now =>
    { world :=
        { a.world with
          accounts := (d.reconciler.reconcileState orders trades now a.world.accounts).2 }
      journal := a.journal ++
        (d.reconciler.recordedByPass orders trades now a.world.accounts).map
          fun e => (e.1, .venue) }

/-- The writer of the event meets its condition. -/
def Keeps (a : Audited) : ExecutionEvent → Prop
  | .submit _ => True
  | .apply intent midUsd _ => d.simulator.FillsWhole intent midUsd a.world.accounts
  | .reconcile orders trades now =>
    d.reconciler.AlongPass now (TradeKeeps d.reconciler) OrderKeeps orders trades a.world.accounts

instance (a : Audited) : ∀ e, Decidable (d.Keeps a e)
  | .submit _ => isTrue trivial
  | .apply intent midUsd _ =>
    inferInstanceAs (Decidable (d.simulator.FillsWhole intent midUsd a.world.accounts))
  | .reconcile orders trades now =>
    inferInstanceAs (Decidable (d.reconciler.AlongPass now (TradeKeeps d.reconciler) OrderKeeps
      orders trades a.world.accounts))

/-- Nothing has happened yet. -/
def start (book : PortfolioBook) : Audited := ⟨.fresh book, []⟩

variable {d}

/-- **One event** keeps the records sourced. -/
theorem sourced_step {a : Audited} {e : ExecutionEvent} (hkeeps : d.Keeps a e)
    (h : Sourced a.world.ledger a.journal) :
    Sourced (d.step a e).world.ledger (d.step a e).journal := by
  cases e with
  | submit c =>
    have htriple := IdempotentSubmitter.triple_submit_of_invariant
      (sourced_submitInvariant d.submitter d.env c a.journal)
    obtain ⟨hexit, -⟩ := htriple a.world h
    show Sourced (d.submitter.submit d.env c a.world).world.ledger a.journal
    cases hrun : (d.submitter.submit d.env c a.world).exit with
    | ok out =>
      rw [hrun] at hexit
      exact hexit
    | error e =>
      rw [hrun] at hexit
      exact hexit
  | apply intent midUsd now => exact sourced_apply hkeeps h
  | reconcile orders trades now =>
    have hpass := Reconciler.reconcileState_invariant
      (I := fun acc j => Sourced acc.ledger (a.journal ++ j.map fun e => (e.1, .venue)))
      (T := TradeKeeps d.reconciler) (O := OrderKeeps) (c := d.reconciler)
      (a := a.world.accounts) (j := [])
      (fun acc j row hT hI => by
        rw [List.map_append, ← List.append_assoc]
        exact sourced_tradeRow hT hI)
      (fun acc j row hO hI => sourced_orderRow hO hI) hkeeps
      (by simpa using h)
    simpa [step] using hpass

/-- **A run** whose writers meet their conditions keeps the records sourced. -/
theorem sourced_run (book : PortfolioBook) (es : List ExecutionEvent)
    (hkeeps : Along d.step d.Keeps (start book) es) :
    Sourced (run d.step (start book) es).world.ledger (run d.step (start book) es).journal :=
  run_invariant_along (I := fun a => Sourced a.world.ledger a.journal)
    (fun _ _ hG hI => sourced_step hG hI) (start book) es hkeeps sourced_empty

/-- The discriminator agrees with the processed paper-fill ids; no order has
fills of both origins; and no row of an order without simulated fills is skipped
as a local simulation. -/
structure Provenance (a : Audited) : Prop where
  agrees : ∀ k o, a.world.ledger.orders.get? k = some o →
    (isLocalPaperFill o = true ↔ paperFillId o.idempotencyKey ∈ a.world.ledger.processedFillIds)
  oneOrigin : ∀ k, ¬((k, .simulator) ∈ a.journal ∧ (k, .venue) ∈ a.journal)
  notSkipped : ∀ (c : Reconciler) row orderId o, row.requiredText ["order_id"] = .ok orderId →
    a.world.ledger.findOrder orderId = some o → (o.orderId, .simulator) ∉ a.journal →
      c.readTrade a.world.ledger row ≠ .ok none

/-- A row of an order is skipped only if the order is a local paper fill. -/
theorem isLocalPaperFill_of_skipped {c : Reconciler} {l : ExecutionLedger} {row : Row}
    {orderId : String} {o : ExecutionOrder} (hid : row.requiredText ["order_id"] = .ok orderId)
    (hfind : l.findOrder orderId = some o) (h : c.readTrade l row = .ok none) :
    isLocalPaperFill o = true := by
  unfold Reconciler.readTrade at h
  rw [hid] at h
  dsimp only at h
  split at h
  · rename_i hlocal
    rw [hfind] at hlocal
    simpa using hlocal
  · exfalso
    cases hfill : c.tradeFill row orderId <;> rw [hfill] at h <;> cases h

theorem provenance_of_sourced {a : Audited} (h : Sourced a.world.ledger a.journal) :
    Provenance a where
  agrees := by
    intro k o hget
    rw [h.idempotencyKey hget]
    constructor
    · intro hlocal
      by_contra hk
      rw [(h.venue k o hget hk).1] at hlocal
      cases hlocal
    · exact fun hk => (h.simulated k o hget hk).1
  oneOrigin := by
    rintro k ⟨hsim, hvenue⟩
    obtain ⟨o, hget⟩ := Option.ne_none_iff_exists'.mp (h.journaled k _ hsim)
    by_cases hk : paperFillId k ∈ a.world.ledger.processedFillIds
    · exact (h.simulated k o hget hk).2.2 hvenue
    · exact (h.venue k o hget hk).2 hsim
  notSkipped := by
    intro c row orderId o hid hfind hnosim hskip
    have hlocal := isLocalPaperFill_of_skipped hid hfind hskip
    have hget := ExecutionLedger.get?_of_findOrder hfind
    by_cases hk : paperFillId o.orderId ∈ a.world.ledger.processedFillIds
    · exact hnosim (h.simulated _ _ hget hk).2.1
    · rw [(h.venue _ _ hget hk).1] at hlocal
      cases hlocal

/-- **Provenance holds in every run** whose fee-less venue fills and simulated
fills meet their conditions. -/
theorem provenance_of_keeps (d : ExecutionDesk) (book : PortfolioBook) (es : List ExecutionEvent)
    (hkeeps : Along d.step d.Keeps (start book) es) : Provenance (run d.step (start book) es) :=
  provenance_of_sourced (sourced_run book es hkeeps)

end ExecutionDesk

/-! ### A venue fill without a fee -/

namespace Feeless

/-- A venue that creates every order. -/
def env : VenueEnv where
  create := fun _ => .created
  query := fun _ => .unreachable
  mint := Flip.env.mint

/-- The desk of a submitter with two retries and the simulator it shares its
planner with. -/
def desk : ExecutionDesk where
  submitter := Flip.submitter
  env := env
  simulator := Oversold.sim
  reconciler := ⟨10, Oversold.ten_nonneg⟩

/-- A trade of the first order, for a quantity and a fee. -/
def trade (id : String) (quantity fee : ℚ) : Option Row :=
  some (Dict.ofList [("order_id", .str (env.mint 0)), ("trade_id", .str id),
    ("trading_pair", .str "BTC-USD"), ("trade_type", .str "BUY"), ("amount", .num quantity),
    ("price", .num 100), ("fee", .num fee)])

/-- The first order's row, in a status. -/
def order (status : String) : Option Row :=
  some (Dict.ofList [("order_id", .str (env.mint 0)), ("status", .str status)])

/-- A BUY of 1 BTC, and a pass that sees a first trade without a fee and the
order as filled. -/
def events : List ExecutionEvent :=
  [.submit (Flip.call .buy), .reconcile (.list [order "filled"]) (.list [trade "t1" (2 / 5) 0]) 0]

/-- The BUY, a pass that sees all of it with its fee, and a paper fill of the
next decision. -/
def charged : List ExecutionEvent :=
  [.submit (Flip.call .buy), .reconcile (.list [order "filled"]) (.list [trade "t1" 1 1]) 0,
    .apply { (Flip.call .buy).intent with decisionId := "d2" } 100 0]

end Feeless

namespace ExecutionDesk

theorem provenance_of_keeps_charged :
    Provenance (run Feeless.desk.step (start Flip.book) Feeless.charged) :=
  provenance_of_keeps Feeless.desk Flip.book Feeless.charged (by decide +kernel)

/-- A partly filled venue order without a fee that is reported as filled passes
for a local paper fill, though no paper fill was ever processed. -/
theorem not_provenance_feeless :
    ¬Provenance (run Feeless.desk.step (start Flip.book) Feeless.events) := by
  intro h
  have hget : ((run Feeless.desk.step (start Flip.book) Feeless.events).world.ledger.orders.get?
      "ts-d1").any isLocalPaperFill = true := by decide +kernel
  have hids : (run Feeless.desk.step (start Flip.book) Feeless.events).world.ledger.processedFillIds
      = {"t1"} := by decide +kernel
  cases ho : (run Feeless.desk.step (start Flip.book) Feeless.events).world.ledger.orders.get?
      "ts-d1" with
  | none =>
    rw [ho] at hget
    cases hget
  | some o =>
    rw [ho] at hget
    have hprocessed := (h.agrees "ts-d1" o ho).mp hget
    rw [hids, Finset.mem_singleton] at hprocessed
    have hpaper := isPaperSimulatedFill_paperFillId o.idempotencyKey
    rw [hprocessed] at hpaper
    exact absurd hpaper (by decide)

end ExecutionDesk

end TraderStack
