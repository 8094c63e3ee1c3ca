import TraderStack.Execution.PaperPerp
import TraderStack.Execution.SubmitRuns

/-!
# One paper fill a decision

`apply` finds the decision's first order in the ledger and looks for that order's
own paper fill among the processed ids. Nothing removes an order or an id and
nothing moves an order, so the first order stays the first one, whoever registers
others after it, and the ledger file keeps their order. What a restart loses is
what was not saved.

- `Settled`: the paper fill of the decision's first order is processed;
- `fills_once`: no later call fills the decision, as long as no restart loses that.
-/

namespace TraderStack

open Lib

/-! ## The first order of a decision -/

namespace ExecutionLedger

variable {l : ExecutionLedger} {o o' x : ExecutionOrder} {d : String}

/-- The first order of a decision, with the key it is stored under. -/
theorem existingOrder_eq_find? (l : ExecutionLedger) (d : String) :
    PaperFillSimulator.existingOrder l d
      = (l.orders.find? fun o => o.decisionId = d).map Prod.snd := by
  unfold PaperFillSimulator.existingOrder ordersForDecision Dict.values Dict.find?
  rw [List.head?_filter, List.find?_map]
  rfl

/-- A new order comes after all others. -/
theorem existingOrder_put_of_new (hnew : l.orders.get? o.orderId = none) :
    PaperFillSimulator.existingOrder (l.put o) d
      = (PaperFillSimulator.existingOrder l d).or (if o.decisionId = d then some o else none) := by
  rw [existingOrder_eq_find?, existingOrder_eq_find?, orders_put, Dict.find?_set_of_fresh hnew]
  cases l.orders.find? fun o => o.decisionId = d with
  | some e => rfl
  | none =>
    by_cases hd : o.decisionId = d <;> simp [hd]

/-- An order stored again stays where it was. -/
theorem existingOrder_put_of_stored (hget : l.orders.get? o.orderId = some o)
    (hid : o'.orderId = o.orderId) (hdecision : o'.decisionId = o.decisionId) :
    PaperFillSimulator.existingOrder (l.put o') d
      = (PaperFillSimulator.existingOrder l d).map fun x =>
          if x.orderId = o.orderId then o' else x := by
  rw [existingOrder_eq_find?, existingOrder_eq_find?, orders_put, hid,
    Dict.find?_set hget (by rw [hdecision]), Option.map_map, Option.map_map]
  cases hfind : l.orders.find? fun o => o.decisionId = d with
  | none => rfl
  | some e =>
    have he : e.2.orderId = e.1 := l.keyed _ _ (Dict.get?_of_find? hfind).1
    simp only [Option.map_some, Function.comp_apply, he]
    split <;> rfl

end ExecutionLedger

/-- **The decision is settled**: its first order's own paper fill is processed. -/
def Settled (d : String) (l : ExecutionLedger) : Prop :=
  ∃ o, PaperFillSimulator.existingOrder l d = some o ∧
    paperFillId o.idempotencyKey ∈ l.processedFillIds

/-- The key an order's paper fill goes by is fixed when the order is made. -/
theorem ExecutionOrder.idempotencyKey_congr {o o' : ExecutionOrder} (hid : o'.orderId = o.orderId)
    (hclient : o'.clientOrderId = o.clientOrderId) : o'.idempotencyKey = o.idempotencyKey := by
  unfold ExecutionOrder.idempotencyKey
  rw [hid, hclient]

namespace Settled

variable {d : String} {l l' : ExecutionLedger} {o o' : ExecutionOrder}

/-- A new order comes too late. -/
theorem put_new (h : Settled d l) (hnew : l.orders.get? o.orderId = none) :
    Settled d (l.put o) := by
  obtain ⟨x, hx, hprocessed⟩ := h
  refine ⟨x, ?_, hprocessed⟩
  rw [ExecutionLedger.existingOrder_put_of_new hnew, hx]
  rfl

/-- An order changes, but for its names and its decision. -/
theorem put_stored (h : Settled d l) (hget : l.orders.get? o.orderId = some o)
    (hid : o'.orderId = o.orderId) (hdecision : o'.decisionId = o.decisionId)
    (hclient : o'.clientOrderId = o.clientOrderId) : Settled d (l.put o') := by
  obtain ⟨x, hx, hprocessed⟩ := h
  have hfirst : PaperFillSimulator.existingOrder (l.put o') d
      = some (if x.orderId = o.orderId then o' else x) := by
    rw [ExecutionLedger.existingOrder_put_of_stored hget hid hdecision, hx, Option.map_some]
  refine ⟨_, hfirst, ?_⟩
  by_cases hkey : x.orderId = o.orderId
  · -- the first order is the one that changed
    have hstored := (ExecutionLedger.mem_ordersForDecision.mp (List.mem_of_mem_head? hx)).1
    rw [hkey, hget] at hstored
    cases hstored
    rw [if_pos rfl, ExecutionOrder.idempotencyKey_congr hid hclient]
    exact hprocessed
  · rw [if_neg hkey]
    exact hprocessed

theorem markProcessed (h : Settled d l) (fillId : String) : Settled d (l.markProcessed fillId) := by
  obtain ⟨x, hx, hprocessed⟩ := h
  exact ⟨x, hx, ExecutionLedger.mem_processed_markProcessed.mpr (.inr hprocessed)⟩

/-- `register_order`. -/
theorem registerOrder (h : Settled d l) (hregister : l.registerOrder o = .ok l') :
    Settled d l' := by
  obtain ⟨rfl, hnew | hsame⟩ := ExecutionLedger.registerOrder_ok hregister
  · exact h.put_new hnew
  · exact h.put_stored hsame rfl rfl rfl

/-- `record_fill`, on whichever order. -/
theorem recordFill (h : Settled d l) {fill : ExecutionFill} {now : Time} {booked : Bool}
    (hrecord : l.recordFill fill now = .ok (booked, l')) : Settled d l' := by
  rcases ExecutionLedger.recordFill_cases hrecord with ⟨-, hr⟩ | ⟨e, hr, -⟩ | ⟨o, hacc, hr⟩
  · cases hr
    exact h
  · cases hr
  · cases hr
    have hget := ExecutionLedger.get?_of_findOrder hacc.found
    have hfilled : Settled d (l.put (o.withFill fill now)) := h.put_stored hget rfl rfl rfl
    exact hfilled.markProcessed fill.fillId

end Settled

/-! ## The writers of the ledger -/

/-- **The submitter** leaves a settled decision settled. -/
theorem settled_submitInvariant (s : IdempotentSubmitter) (env : VenueEnv) (c : SubmitCall)
    (d : String) :
    SubmitInvariant s env c (fun w => Settled d w.ledger) (fun _ _ w => Settled d w.ledger) where
  save := fun _ h => h
  amend := fun _ _ _ h hget ha _ _ => h.put_stored hget ha.orderId ha.decisionId ha.clientOrderId
  register := fun _ _ _ h _ hnew _ => h.put_new hnew
  send := fun _ _ _ h _ _ _ _ => ⟨h, fun _ _ => h⟩
  receive := by
    intro w o id now h hget _
    show Settled d (w.ledger.put (o.receipted id now))
    exact h.put_stored hget rfl rfl rfl
  search := fun _ h => h
  adopt := by
    intro w o now _ _ h hget _ _ _ _
    show Settled d (w.ledger.put (o.adopted now))
    exact h.put_stored hget rfl rfl rfl

/-- And settled on file, too, once it is. -/
theorem settledOnFile_submitInvariant (s : IdempotentSubmitter) (env : VenueEnv) (c : SubmitCall)
    (d : String) :
    SubmitInvariant s env c
      (fun w => Settled d w.ledger ∧ Settled d (w.ledgerFile.getD .empty))
      (fun _ _ w => Settled d w.ledger ∧ Settled d (w.ledgerFile.getD .empty)) where
  save := fun _ h => ⟨h.1, h.1⟩
  amend := fun w o o' h hget ha hvenue hsize =>
    ⟨(settled_submitInvariant s env c d).amend w o o' h.1 hget ha hvenue hsize, h.2⟩
  register := fun w plan now h hplan hnew hnone =>
    ⟨(settled_submitInvariant s env c d).register w plan now h.1 hplan hnew hnone, h.2⟩
  send := fun _ _ _ h _ _ _ _ => ⟨h, fun _ _ => h⟩
  receive := fun w o id now h hget hwaiting =>
    ⟨(settled_submitInvariant s env c d).receive w o id now h.1 hget hwaiting, h.2⟩
  search := fun _ h => h
  adopt := by
    intro w o now rows row h hget huncertain hlist hmem hshows
    have hadopted := (settled_submitInvariant s env c d).adopt w o now rows row h.1 hget huncertain
      hlist hmem hshows
    exact ⟨hadopted, hadopted⟩

/-- A hedge of the decision, or of another, leaves it settled. -/
theorem settled_hedge {d : String} {b b' : PaperPerpBook} {l l' : ExecutionLedger}
    {killSwitch : Option KillSwitch} {fill : ExecutionFill} {perpMidUsd : Option ℚ}
    {decisionId : String} {now : Time} {r : Except PaperPerpError PaperPerpOutcome}
    (hhedge : b.maybeHedgeSpotFill killSwitch fill perpMidUsd decisionId now l = (r, b', l'))
    (h : Settled d l) : Settled d l' := by
  have hregistered : ∀ {registered},
      PaperPerpBook.registerHedge fill decisionId now l = .ok (some registered) →
        Settled d registered := by
    intro registered hregister
    rcases PaperPerpBook.registerHedge_cases hregister with ⟨rfl, -⟩ | ⟨rfl, -, hnew⟩
    · exact h
    · exact h.put_new hnew
  rcases PaperPerpBook.hedge_cases hhedge with ⟨-, -, -, -, rfl⟩ | ⟨mid, -, ⟨-, rfl, -⟩ |
    ⟨registered, hregister, ⟨-, rfl, -⟩ | ⟨_, booked, hrecord, -⟩⟩⟩
  · exact h
  · exact h
  · exact hregistered hregister
  · exact (hregistered hregister).recordFill hrecord

namespace PaperFillSimulator

variable {sim : PaperFillSimulator} {intent : PaperOrderIntent} {midUsd : ℚ} {now : Time}
  {a a' : Accounts} {r : Except PaperFillError PaperFillOutcome} {d : String}

/-- A paper fill, of this decision or another, leaves a settled one settled. -/
theorem settled_apply (happly : sim.apply intent midUsd now a = (r, a'))
    (h : Settled d a.ledger) : Settled d a'.ledger := by
  have hprepared : ∀ {p l'}, sim.prepare intent midUsd now a = (p, l') → Settled d l' := by
    intro p l' hprepare
    rcases prepare_registers hprepare with rfl | ⟨plan, -, -, hnew, rfl⟩
    · exact h
    · exact h.put_new hnew
  cases applied_of_apply happly with
  | unrecorded hprepare hunfilled => exact hprepared hprepare
  | @recorded fill plan l' o hprepare hfill houtcome =>
    have hfilled : Settled d (l'.put (o.withFill fill now)) :=
      (hprepared hprepare).put_stored (prepared_stored hfill) rfl rfl rfl
    exact hfilled.markProcessed fill.fillId

/-- A prepared fill's order is the first of its decision. -/
theorem existingOrder_of_prepared {fill : ExecutionFill} {plan : ExecutionPlan}
    {l' : ExecutionLedger} {o : ExecutionOrder}
    (h : PreparedFill sim intent midUsd now a fill plan l' o) :
    existingOrder l' intent.decisionId = some o := by
  rcases h.order with ⟨hexisting, -, rfl⟩ | ⟨hnone, rfl, hregister⟩
  · exact hexisting
  · have hdecision := (ExecutionPlanner.planned_of_ok h.planned).decisionId
    obtain ⟨rfl, hnew | hsame⟩ := ExecutionLedger.registerOrder_ok hregister
    · rw [ExecutionLedger.existingOrder_put_of_new hnew, hnone, Option.none_or]
      exact if_pos hdecision
    · -- it would have been the decision's order before
      have hmem := ExecutionLedger.mem_ordersForDecision.mpr ⟨hsame, hdecision⟩
      rw [List.head?_eq_none_iff.mp hnone] at hmem
      cases hmem

/-- **A recorded paper fill settles its decision**, whether or not the book takes
it. -/
theorem settled_of_recorded {fill : ExecutionFill} {plan : ExecutionPlan}
    {l' : ExecutionLedger} {o : ExecutionOrder}
    (h : PreparedFill sim intent midUsd now a fill plan l' o) :
    Settled intent.decisionId ((l'.put (o.withFill fill now)).markProcessed fill.fillId) := by
  refine ⟨o.withFill fill now, ?_, ?_⟩
  · have hput := @ExecutionLedger.existingOrder_put_of_stored l' o (o.withFill fill now)
      intent.decisionId (prepared_stored h) rfl rfl
    rw [existingOrder_of_prepared h, Option.map_some, if_pos rfl] at hput
    exact hput
  · rw [ExecutionLedger.mem_processed_markProcessed]
    exact .inl h.fillId.symm

/-- A fill of a settled decision is refused before anything is recorded. -/
theorem not_prepared_of_settled (h : Settled intent.decisionId a.ledger) {fill : ExecutionFill}
    {plan : ExecutionPlan} {l' : ExecutionLedger} {o : ExecutionOrder} :
    ¬PreparedFill sim intent midUsd now a fill plan l' o := by
  intro hprepared
  obtain ⟨x, hx, hprocessed⟩ := h
  rcases hprepared.order with ⟨hexisting, hrefuse, -⟩ | ⟨hnone, -, -⟩
  · rw [hx] at hexisting
    cases hexisting
    unfold refusal at hrefuse
    rw [if_pos (.inr hprocessed)] at hrefuse
    cases hrefuse
  · rw [hx] at hnone
    cases hnone

end PaperFillSimulator

/-! ## Runs -/

/-- The records, and the paper perp book beside them. -/
structure PaperWorld where
  world : World
  perp : PaperPerpBook

/-- What happens to them: a paper fill, a submission, which may crash, or a perp
hedge, each of any decision; a save of the ledger; a restart; and the book may
become any other in between. -/
inductive PaperEvent where
  | apply (intent : PaperOrderIntent) (midUsd : ℚ) (now : Time)
  | submit (call : SubmitCall) (crash : Option ℕ)
  | hedge (killSwitch : Option KillSwitch) (fill : ExecutionFill) (perpMidUsd : Option ℚ)
      (decisionId : String) (now : Time)
  | save
  | restart
  | rebook (book : PortfolioBook)

/-- The paper simulator, and the submitter beside it. -/
structure PaperDesk where
  simulator : PaperFillSimulator
  submitter : IdempotentSubmitter
  env : VenueEnv

namespace PaperDesk

variable {desk : PaperDesk} {s : PaperWorld} {d : String}

/-- The perp book is not saved. -/
def reload (s : PaperWorld) : PaperWorld where
  world := s.world.reloadLedger
  perp := .fresh s.perp.paperFeeBps s.perp.paperSlippageBps s.perp.paperFee_nonneg
    s.perp.paperSlippage_nonneg

/-- One event. -/
def step (desk : PaperDesk) (s : PaperWorld) : PaperEvent → PaperWorld
  | .apply intent midUsd now =>
    { s with world := { s.world with
        accounts := (desk.simulator.apply intent midUsd now s.world.accounts).2 } }
  | .submit call none =>
    { s with world := (desk.submitter.submit desk.env call s.world).world }
  | .submit call (some k) =>
    let ran := desk.submitter.submit desk.env call s.world
    reload { s with world := ran.crashPoints.getD k ran.world }
  | .hedge killSwitch fill perpMidUsd decisionId now =>
    let (_, perp, ledger) :=
      s.perp.maybeHedgeSpotFill killSwitch fill perpMidUsd decisionId now s.world.ledger
    { world := s.world.withLedger ledger, perp := perp }
  | .save => { s with world := s.world.saveLedger }
  | .restart => reload s
  | .rebook book => { s with world := { s.world with
        accounts := { s.world.accounts with book := book } } }

/-- The event is a paper fill of the decision that returns FILLED or changes the
book. -/
def Fills (desk : PaperDesk) (d : String) (s : PaperWorld) : PaperEvent → Prop
  | .apply intent midUsd now =>
    intent.decisionId = d ∧
      ((∃ out, (desk.simulator.apply intent midUsd now s.world.accounts).1 = .ok out ∧
          out.status = .filled) ∨
        (desk.simulator.apply intent midUsd now s.world.accounts).2.book ≠ s.world.accounts.book)
  | _ => False

/-- The process goes down, if it does, with the decision's paper fill saved, if
there is one. -/
def KeepsFill (d : String) (s : PaperWorld) : PaperEvent → Prop
  | .restart | .submit _ (some _) =>
    Settled d s.world.ledger → Settled d (s.world.ledgerFile.getD .empty)
  | _ => True

/-- A FILLED call, or one that changes the book, settles the decision, and was not
made on a settled one. -/
theorem settled_of_fills {e : PaperEvent} (h : desk.Fills d s e) :
    ¬Settled d s.world.ledger ∧ Settled d (desk.step s e).world.ledger := by
  cases e with
  | apply intent midUsd now =>
    obtain ⟨rfl, hfills⟩ := h
    rcases happly : desk.simulator.apply intent midUsd now s.world.accounts with ⟨r, a'⟩
    rw [happly] at hfills
    show ¬_ ∧ Settled _ (desk.simulator.apply intent midUsd now s.world.accounts).2.ledger
    rw [happly]
    cases PaperFillSimulator.applied_of_apply happly with
    | unrecorded hprepare hunfilled =>
      rcases hfills with ⟨out, hout, hfilled⟩ | hbook
      · exact absurd hfilled (hunfilled out hout)
      · exact absurd rfl hbook
    | recorded hprepare hprepared houtcome =>
      exact ⟨fun hsettled => PaperFillSimulator.not_prepared_of_settled hsettled hprepared,
        PaperFillSimulator.settled_of_recorded hprepared⟩
  | submit _ _ => exact h.elim
  | hedge _ _ _ _ _ => exact h.elim
  | save => exact h.elim
  | restart => exact h.elim
  | rebook _ => exact h.elim

/-- A submission that runs to its end leaves a settled decision settled. -/
theorem settled_submit (call : SubmitCall) (h : Settled d s.world.ledger) :
    Settled d (desk.submitter.submit desk.env call s.world).world.ledger := by
  have htriple := IdempotentSubmitter.triple_submit_of_invariant
    (settled_submitInvariant desk.submitter desk.env call d)
  have hend : Settled d ((desk.submitter.submit desk.env call s.world).after id none).ledger :=
    htriple.after (fun _ _ hw => hw) (fun _ _ hw => hw) (fun _ hw => hw) (fun _ hw => hw) h none
  exact hend

/-- One that crashes leaves it settled on file, if it was. -/
theorem settled_crash (call : SubmitCall) (k : ℕ)
    (h : Settled d s.world.ledger ∧ Settled d (s.world.ledgerFile.getD .empty)) :
    Settled d ((desk.submitter.submit desk.env call s.world).after World.reloadLedger
      (some k)).ledger := by
  have htriple := IdempotentSubmitter.triple_submit_of_invariant
    (settledOnFile_submitInvariant desk.submitter desk.env call d)
  have hrestart : ∀ v : World, Settled d v.ledger ∧ Settled d (v.ledgerFile.getD .empty) →
      Settled d v.reloadLedger.ledger ∧ Settled d (v.reloadLedger.ledgerFile.getD .empty) :=
    fun v hv => ⟨hv.2, hv.2⟩
  exact (htriple.after (fun _ _ hw => hw) (fun _ _ hw => hw) hrestart hrestart h (some k)).1

/-- **One event** leaves a settled decision settled, unless it loses its fill. -/
theorem settled_step {e : PaperEvent} (hkeeps : KeepsFill d s e) (h : Settled d s.world.ledger) :
    Settled d (desk.step s e).world.ledger := by
  cases e with
  | apply intent midUsd now =>
    exact PaperFillSimulator.settled_apply (Eq.refl (desk.simulator.apply intent midUsd now
      s.world.accounts)) h
  | submit call crash =>
    cases crash with
    | none => exact settled_submit call h
    | some k => exact settled_crash call k ⟨h, hkeeps h⟩
  | hedge killSwitch fill perpMidUsd decisionId now =>
    exact settled_hedge (Eq.refl (s.perp.maybeHedgeSpotFill killSwitch fill perpMidUsd decisionId
      now s.world.ledger)) h
  | save => exact h
  | restart => exact hkeeps h
  | rebook book => exact h

/-- **At most one paper fill a decision.** In every run of paper fills, submissions,
hedges, saves and restarts, from any records, in which the process never goes down
with a paper fill of the decision that is not saved: at most one call for the
decision returns FILLED or changes the book. -/
theorem fills_once (desk : PaperDesk) (d : String) (s : PaperWorld) (es : List PaperEvent)
    (hkeeps : Along desk.step (KeepsFill d) s es) :
    AtMostOnce desk.step (desk.Fills d) s es := by
  refine atMostOnce_of_settled (I := fun s => Settled d s.world.ledger) (fun s e h => ?_)
    (fun s e hK hI => settled_step hK hI) (fun s e hI h => ?_) s es hkeeps
  · exact (settled_of_fills h).2
  · exact (settled_of_fills h).1 hI

end PaperDesk

/-! ### A fill that was not saved -/

namespace Forgotten

def desk : PaperDesk := ⟨Oversold.sim, Flip.submitter, Flip.env⟩

/-- A fresh process with 1000 in cash. -/
def start : PaperWorld := ⟨.fresh Flip.book, .fresh 0 0 le_rfl le_rfl⟩

/-- A paper fill of decision `d1`, a BUY of 1 BTC at 100. -/
def buy (now : Time) : PaperEvent := .apply (Flip.call .buy).intent 100 now

theorem filled_of_status {s : PaperWorld} {now : Time}
    (h : (Oversold.sim.apply (Flip.call .buy).intent 100 now s.world.accounts).1.toOption.map
      PaperFillOutcome.status = some .filled) : desk.Fills "d1" s (buy now) := by
  obtain ⟨out, hout, hstatus⟩ := Option.map_eq_some_iff.mp h
  refine ⟨rfl, .inl ⟨out, ?_, hstatus⟩⟩
  show (Oversold.sim.apply (Flip.call .buy).intent 100 now s.world.accounts).1 = .ok out
  cases hr : (Oversold.sim.apply (Flip.call .buy).intent 100 now s.world.accounts).1 with
  | error e =>
    rw [hr] at hout
    cases hout
  | ok out' =>
    rw [hr] at hout
    cases hout
    rfl

end Forgotten

namespace PaperDesk

/-- With the ledger saved in between, the second call finds the fill. -/
theorem fills_once_saved :
    AtMostOnce Forgotten.desk.step (Forgotten.desk.Fills "d1") Forgotten.start
      [Forgotten.buy 0, .save, .restart, .rebook Flip.book, Forgotten.buy 60] :=
  fills_once Forgotten.desk "d1" Forgotten.start _
    ⟨trivial, trivial, fun h => h, trivial, trivial, trivial⟩

/-- A process that goes down between the fill and the save fills the decision again
when it comes back. -/
theorem not_fills_once :
    ¬AtMostOnce Forgotten.desk.step (Forgotten.desk.Fills "d1") Forgotten.start
      [Forgotten.buy 0, .restart, .rebook Flip.book, Forgotten.buy 60] := by
  rintro ⟨honce, -⟩
  obtain ⟨-, -, hnever, -⟩ := honce (Forgotten.filled_of_status (by decide +kernel))
  exact hnever (Forgotten.filled_of_status (by decide +kernel))

end PaperDesk

end TraderStack
