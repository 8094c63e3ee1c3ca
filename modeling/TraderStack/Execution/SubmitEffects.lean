import TraderStack.Execution.Atomicity
import TraderStack.Execution.Submitter

/-!
# What a submission can change

`submit` touches the world in seven ways: it saves the ledger, amends an order
it holds, registers a planned order, sends a create call, takes over the id a
receipt carries, searches, and adopts. `SubmitInvariant` asks of an assertion
that each of them keeps it; `triple_submit_of_invariant` concludes for the whole
call, at its end and at every point where it can crash.
-/

namespace TraderStack

open Lib

/-- The order is waiting to be sent, for the first time or again. -/
def ExecutionOrder.waiting (o : ExecutionOrder) : Prop :=
  o.state = .planned ∨ o.state = .submissionUncertain

/-- The writes of a submission to an order it holds. -/
inductive Amendment (o : ExecutionOrder) : ExecutionOrder → Prop
  | same : Amendment o o
  | attempted : Amendment o { o with submissionAttempts := o.submissionAttempts + 1 }
  | settled (state : OrderLifecycleState) (now : Time) (reason : Option Reason)
      (legal : o.state.isLegalTransition state = true) :
      Amendment o { o with state := state, lastUpdatedAt := now, reason := reason }
  | replanned (quantity : ℚ) (pos : 0 < quantity) (uncertain : o.state = .submissionUncertain) :
      Amendment o { o with requestedQuantity := quantity, requested_pos := pos }
  | received (id : String) (now : Time) (waiting : o.waiting) :
      Amendment o
        { o with venueOrderId := some id, state := .submitted, lastUpdatedAt := now, reason := none }

/-- What a submission may change of an order: its state, its attempts, its
quantity, its reason and the clock, but nothing of its identity or its fills. -/
structure Amends (o o' : ExecutionOrder) : Prop where
  orderId : o'.orderId = o.orderId
  decisionId : o'.decisionId = o.decisionId
  asset : o'.asset = o.asset
  side : o'.side = o.side
  filledQuantity : o'.filledQuantity = o.filledQuantity
  clientOrderId : o'.clientOrderId = o.clientOrderId
  feeSource : o'.feeSource = o.feeSource
  state : o'.state = o.state ∨
    (o.state.isLegalTransition o'.state = true ∧
      (o'.state = .submitted ∨ o'.state = .rejected ∨
        (o'.state = .submissionUncertain ∧ o.waiting)))
  how : Amendment o o'

theorem Amends.refl (o : ExecutionOrder) : Amends o o :=
  ⟨rfl, rfl, rfl, rfl, rfl, rfl, rfl, .inl rfl, .same⟩

/-- An amended order is a local paper fill exactly if it was one. -/
theorem Amends.isLocalPaperFill {o o' : ExecutionOrder} (h : Amends o o') :
    isLocalPaperFill o' = isLocalPaperFill o := by
  have hfilled : o'.state = .filled ↔ o.state = .filled := by
    rcases h.state with heq | ⟨hlegal, hto⟩
    · rw [heq]
    · constructor
      · intro hf
        rw [hf] at hto
        simp at hto
      · intro hf
        have hsame := OrderLifecycleState.eq_of_legal_of_terminal (by rw [hf]; rfl) hlegal
        rw [← hsame, hf]
  unfold TraderStack.isLocalPaperFill
  rw [h.feeSource]
  simp only [hfilled]

/-- The rows a search can return on a venue. -/
def Venue.CanList (env : VenueEnv) (v : Venue) (rows : List Row) : Prop :=
  ∃ n status arrange complete, env.query n = .answers status arrange complete ∧
    rows = arrange (v.accepted.map fun o => o.row (status o))

/-- The order as adoption leaves it. -/
def ExecutionOrder.adopted (o : ExecutionOrder) (now : Time) : ExecutionOrder :=
  { o with state := .submitted, lastUpdatedAt := now, reason := some .venueConfirmed }

/-- The order as a receipt leaves it. -/
def ExecutionOrder.receipted (o : ExecutionOrder) (id : String) (now : Time) : ExecutionOrder :=
  { o with venueOrderId := some id, state := .submitted, lastUpdatedAt := now, reason := none }

theorem amends_adopted {o : ExecutionOrder} (h : o.state = .submissionUncertain) (now : Time) :
    Amends o (o.adopted now) := by
  have hlegal : o.state.isLegalTransition .submitted = true := by
    rw [h]
    rfl
  exact ⟨rfl, rfl, rfl, rfl, rfl, rfl, rfl, .inr ⟨hlegal, .inl rfl⟩, .settled _ _ _ hlegal⟩

theorem amends_receipted {o : ExecutionOrder} (h : o.waiting) (id : String) (now : Time) :
    Amends o (o.receipted id now) := by
  refine ⟨rfl, rfl, rfl, rfl, rfl, rfl, rfl, .inr ⟨?_, .inl rfl⟩, .received id now h⟩
  rcases h with h | h <;> rw [h] <;> rfl

/-- The plans of a call: the cap of a reduce-only order depends on whether it
resumes one. -/
def IdempotentSubmitter.Plans (s : IdempotentSubmitter) (c : SubmitCall) (plan : ExecutionPlan) :
    Prop :=
  ∃ resumed, s.planner.plan c.intent c.executionPriceUsd c.referencePriceUsd
    (IdempotentSubmitter.reduceOnlyCap c.intent c.maxQuantity resumed) = .ok plan

/-- The requests of a call: each is built from a plan of it. -/
def IdempotentSubmitter.Requests (s : IdempotentSubmitter) (c : SubmitCall)
    (req : HummingbotOrderRequest) : Prop :=
  ∃ plan, s.Plans c plan ∧ s.executor.buildRequest c.intent plan.executionPriceUsd s.tradingMode
    plan.quantity plan.clientOrderId = .ok req

/-- A create call goes out for the order of the call's decision, in the quantity the
order asks for, once the ledger that says so is saved. -/
structure IdempotentSubmitter.Sends (c : SubmitCall) (w : World) (o : ExecutionOrder)
    (req : HummingbotOrderRequest) : Prop where
  decisionId : o.decisionId = c.intent.decisionId
  amount : req.amount = o.requestedQuantity
  saved : w.ledgerFile = some w.ledger

/-- What a call makes of the quantity of an order: it leaves it, or takes it from a
plan made under the order's own cap. -/
def IdempotentSubmitter.Resizes (s : IdempotentSubmitter) (c : SubmitCall)
    (o o' : ExecutionOrder) : Prop :=
  o'.requestedQuantity = o.requestedQuantity ∨
    ∃ plan, s.planner.plan c.intent c.executionPriceUsd c.referencePriceUsd
      (IdempotentSubmitter.reduceOnlyCap c.intent c.maxQuantity (some o)) = .ok plan ∧
        o'.requestedQuantity = plan.quantity

/-- **An invariant of submission.** `J o id` holds between a receipt and the
order taking its id over. -/
structure SubmitInvariant (s : IdempotentSubmitter) (env : VenueEnv) (c : SubmitCall)
    (I : World → Prop) (J : ExecutionOrder → String → World → Prop) : Prop where
  save : ∀ w, I w → I w.saveLedger
  amend : ∀ w o o', I w → w.ledger.orders.get? o.orderId = some o → Amends o o' →
    o'.venueOrderId = o.venueOrderId → s.Resizes c o o' → I (w.withLedger (w.ledger.put o'))
  register : ∀ w (plan : ExecutionPlan) now, I w →
    plan.clientOrderId = s.planner.clientOrderIdFor plan.decisionId →
    w.ledger.orders.get? plan.clientOrderId = none →
    w.ledger.hasOrderForDecision plan.decisionId = false →
    I (w.withLedger (w.ledger.put (PaperFillSimulator.plannedOrder plan now)))
  send : ∀ w o req, I w → w.ledger.orders.get? o.orderId = some o →
    req.clientOrderId = some (s.planner.clientOrderIdFor o.decisionId) → s.Requests c req →
    IdempotentSubmitter.Sends c w o req →
    I { w with venue := (w.venue.create env req).2 } ∧
      ∀ id, (w.venue.create env req).1 = .receipt id →
        J o id { w with venue := (w.venue.create env req).2 }
  receive : ∀ w o id now, J o id w → w.ledger.orders.get? o.orderId = some o →
    o.waiting →
    I (w.withLedger (w.ledger.put (o.receipted id now)))
  search : ∀ w, I w → I { w with venue := (w.venue.search env).2 }
  adopt : ∀ w o now rows row, I w → w.ledger.orders.get? o.orderId = some o →
    o.state = .submissionUncertain → w.venue.CanList env rows → row ∈ rows →
    row.shows w.ledger o.idempotencyKey (o.asset ++ "-" ++ s.planner.quoteCurrency)
      o.side.tradeType o.requestedQuantity = .ok true →
    I { (w.withLedger (w.ledger.put (o.adopted now))).saveLedger with
        adoptions := w.adoptions ++ [(row, o.orderId)] }

/-- The row a search finds is one of the rows, and it shows the order. -/
theorem shows_of_venueKnowsOrder_some {l : ExecutionLedger} {k pair side : String} {q : ℚ}
    {row : Row} :
    ∀ {rows : List Row}, venueKnowsOrder l k pair side q rows = .ok (some row) →
      row ∈ rows ∧ row.shows l k pair side q = .ok true := by
  intro rows
  induction rows with
  | nil => exact nofun
  | cons head rows ih =>
    intro h
    unfold venueKnowsOrder at h
    split at h
    · cases h
    · rename_i hhead
      cases h
      exact ⟨List.mem_cons_self, hhead⟩
    · obtain ⟨hmem, hshows⟩ := ih h
      exact ⟨List.mem_cons_of_mem _ hmem, hshows⟩

namespace IdempotentSubmitter

variable {s : IdempotentSubmitter} {env : VenueEnv} {c : SubmitCall} {I : World → Prop}
  {J : ExecutionOrder → String → World → Prop} {o : ExecutionOrder} {now : Time}

/-- The assertion, with the order at hand stored as it is. -/
structure Held (I : World → Prop) (o : ExecutionOrder) (w : World) : Prop where
  inv : I w
  stored : w.ledger.orders.get? o.orderId = some o

/-- Whatever is raised, the assertion still holds. -/
abbrev Still (I : World → Prop) (_ : SubmitError) (w : World) : Prop := I w

theorem held_put {w : World} (h : I (w.withLedger (w.ledger.put o))) :
    Held I o (w.withLedger (w.ledger.put o)) where
  inv := h
  stored := by
    show (w.ledger.put o).orders.get? o.orderId = some o
    rw [ExecutionLedger.get?_put, if_pos rfl]

/-- After a save, memory and file are the same. -/
theorem held_save (h : SubmitInvariant s env c I J) :
    Proc.Triple (Held I o) persist (fun _ w => Held I o w ∧ w.ledgerFile = some w.ledger) (Still I)
      I :=
  Proc.Triple.effect fun w hw => ⟨⟨⟨h.save w hw.inv, hw.stored⟩, rfl⟩, h.save w hw.inv⟩

theorem held_persist (h : SubmitInvariant s env c I J) :
    Proc.Triple (Held I o) persist (fun _ => Held I o) (Still I) I :=
  (held_save h).mono (fun _ hw => hw) fun _ _ hw => hw.1

theorem held_putOrder (h : SubmitInvariant s env c I J) (o' : ExecutionOrder) (ha : Amends o o')
    (hv : o'.venueOrderId = o.venueOrderId) (hsize : s.Resizes c o o') :
    Proc.Triple (Held I o) (putOrder o') (fun _ => Held I o') (Still I) I :=
  Proc.Triple.modify fun w hw => held_put (h.amend w o o' hw.inv hw.stored ha hv hsize)

/-- A transition raises and changes nothing, or stores the order in its new
state. -/
theorem held_transition (h : SubmitInvariant s env c I J) {state : OrderLifecycleState}
    {reason : Option Reason}
    (hstate : state = .submitted ∨ state = .rejected ∨
      (state = .submissionUncertain ∧ o.waiting)) :
    Proc.Triple (Held I o) (transition o state reason now)
      (fun o' w => Held I o' w ∧ o'.decisionId = o.decisionId ∧
        o'.requestedQuantity = o.requestedQuantity ∧ o'.state = state) (Still I) I := by
  unfold transition
  split
  · exact Proc.Triple.raise fun w hw => hw.inv
  · rename_i o' ho'
    rcases ExecutionLedger.transition_cases ho' with ⟨hlegal, heq⟩ | ⟨-, heq⟩
    · cases heq
      refine Proc.Triple.bind (held_putOrder h { o with
        state := state, lastUpdatedAt := now, reason := reason } ?_ rfl (.inl rfl)) fun _ => ?_
      · exact ⟨rfl, rfl, rfl, rfl, rfl, rfl, rfl, .inr ⟨hlegal, hstate⟩, .settled _ _ _ hlegal⟩
      · exact Proc.Triple.pure fun w hw => ⟨hw, rfl, rfl, rfl⟩
    · cases heq

/-- A transition, a save and a result. -/
theorem held_close {α : Type} (h : SubmitInvariant s env c I J) {state : OrderLifecycleState}
    {reason : Option Reason} {out : α} {Q : α → World → Prop}
    (hstate : state = .submitted ∨ state = .rejected) (hout : ∀ w, I w → Q out w) :
    Proc.Triple (Held I o)
      (do
        let _ ← transition o state reason now
        persist
        return out)
      Q (Still I) I := by
  refine Proc.Triple.bind (held_transition h (hstate.imp_right .inl)) fun o' => ?_
  refine Proc.Triple.bind ((held_persist h (o := o')).mono (fun w hw => hw.1) fun _ w hw => hw)
    fun _ => ?_
  exact Proc.Triple.pure fun w hw => hout w hw.inv

/-- The search: if a row grounds a yes, the venue could list it and it shows the
order. -/
theorem held_venueKnows (h : SubmitInvariant s env c I J) :
    Proc.Triple (Held I o) (s.venueKnows env o)
      (fun known w => Held I o w ∧ ∀ row, known = some (some row) →
        ∃ rows, w.venue.CanList env rows ∧ row ∈ rows ∧
          row.shows w.ledger o.idempotencyKey (o.asset ++ "-" ++ s.planner.quoteCurrency)
            o.side.tradeType o.requestedQuantity = .ok true)
      (Still I) I := by
  unfold venueKnows
  refine Proc.Triple.bind (Q := fun rows w => Held I o w ∧
    ∀ rs, rows = some rs → w.venue.CanList env rs) ?_ fun rows => ?_
  · refine Proc.Triple.effect fun w hw => ⟨⟨⟨h.search w hw.inv, hw.stored⟩, ?_⟩,
      h.search w hw.inv⟩
    intro rs hrs
    simp only [Venue.search] at hrs
    split at hrs
    · cases hrs
    · rename_i status arrange complete hquery
      cases hrs
      exact ⟨_, status, arrange, complete, hquery, rfl⟩
  refine Proc.Triple.bind (Q := fun w0 w => w = w0 ∧ Held I o w ∧
    ∀ rs, rows = some rs → w.venue.CanList env rs) ?_ fun w0 => ?_
  · exact Proc.Triple.get fun w hw => ⟨rfl, hw⟩
  cases rows with
  | none => exact Proc.Triple.pure fun w hw => ⟨hw.2.1, nofun⟩
  | some rs =>
    dsimp only
    split
    · exact Proc.Triple.pure fun w hw => ⟨hw.2.1, nofun⟩
    · rename_i ground hground
      refine Proc.Triple.pure fun w hw => ?_
      obtain ⟨rfl, hheld, hlist⟩ := hw
      refine ⟨hheld, fun row hrow => ?_⟩
      cases hrow
      obtain ⟨hmem, hshows⟩ := shows_of_venueKnowsOrder_some hground
      exact ⟨rs, hlist rs rfl, hmem, hshows⟩

theorem held_gateRetry (h : SubmitInvariant s env c I J) (baseReason : Option Reason)
    (huncertain : o.state = .submissionUncertain) :
    Proc.Triple (Held I o) (s.gateRetry env o baseReason now)
      (fun out w => match out with
        | some _ => I w
        | none => Held I o w) (Still I) I := by
  unfold gateRetry
  dsimp only
  split
  · exact Proc.Triple.pure fun w hw => hw.inv
  refine Proc.Triple.bind (held_venueKnows h) fun known => ?_
  match known with
  | none => exact Proc.Triple.pure fun w hw => hw.1.inv
  | some (some row) =>
    -- transition, note and save are one step for a crash
    have hadopted : o.transition .submitted now =
        .ok { o with state := .submitted, lastUpdatedAt := now } := by
      unfold ExecutionOrder.transition
      rw [huncertain]
      rfl
    refine Proc.Triple.bind (Q := fun o' w => o' = o.adopted now ∧
      I { w.saveLedger with adoptions := w.adoptions ++ [(row, o.orderId)] }) ?_ fun o' => ?_
    · unfold transition
      rw [hadopted]
      refine Proc.Triple.bind (Q := fun _ w =>
        I { w.saveLedger with adoptions := w.adoptions ++ [(row, o.orderId)] }) ?_ fun _ => ?_
      · refine Proc.Triple.modify fun w hw => ?_
        obtain ⟨hheld, hground⟩ := hw
        obtain ⟨rows, hlist, hmem, hshows⟩ := hground row rfl
        exact h.adopt w o now rows row hheld.inv hheld.stored huncertain hlist hmem hshows
      · exact Proc.Triple.pure fun w hw => ⟨rfl, hw⟩
    refine Proc.Triple.bind (Q := fun _ w => I w.saveLedger) ?_ fun _ => ?_
    · refine Proc.Triple.modify fun w hw => ?_
      obtain ⟨rfl, hinv⟩ := hw
      exact hinv
    refine Proc.Triple.bind (Q := fun _ w => I w) ?_ fun _ => ?_
    · exact Proc.Triple.effect fun w hw => ⟨hw, hw⟩
    · exact Proc.Triple.pure fun w hw => hw
  | some none =>
    dsimp only
    split
    · exact (held_close h (by simp) fun w hw => hw).mono (fun w hw => hw.1) fun _ w hw => hw
    · exact Proc.Triple.pure fun w hw => hw.1

/-- An order of the call's decision that is waiting to be sent, for what the plan
says. -/
structure Waiting (s : IdempotentSubmitter) (c : SubmitCall) (plan : ExecutionPlan)
    (o : ExecutionOrder) : Prop where
  clientId : plan.clientOrderId = s.planner.clientOrderIdFor o.decisionId
  decisionId : o.decisionId = c.intent.decisionId
  quantity : o.requestedQuantity = plan.quantity
  waiting : o.waiting

/-- A create call, whether or not its request can be built. -/
theorem held_call (h : SubmitInvariant s env c I J) {plan : ExecutionPlan}
    (hwait : Waiting s c plan o) (hplans : s.Plans c plan) :
    Proc.Triple (fun w => Held I o w ∧ w.ledgerFile = some w.ledger) (s.call env c.intent plan)
      (fun response w => Held I o w ∧ ∀ id, response = .receipt id → J o id w) (Still I) I := by
  unfold call
  split
  · exact Proc.Triple.pure fun w hw => ⟨hw.1, nofun⟩
  · rename_i req hreq
    refine Proc.Triple.effect fun w hw => ?_
    obtain ⟨hheld, hsaved⟩ := hw
    obtain ⟨-, -, hamount, hclient⟩ := buildRequest_ok hreq
    rw [hwait.clientId] at hclient
    obtain ⟨hinv, hreceipt⟩ := h.send w o req hheld.inv hheld.stored hclient
      ⟨plan, hplans, hreq⟩ ⟨hwait.decisionId, hamount.trans hwait.quantity.symm, hsaved⟩
    exact ⟨⟨⟨hinv, hheld.stored⟩, hreceipt⟩, hinv⟩

/-- Only a receipt counts as an acceptance. -/
theorem receipt_of_accepted {response : CreateResponse} {id : String}
    (h : s.answerOf response = .accepted id) : response = .receipt id := by
  unfold answerOf at h
  split at h
  · cases h
    rfl
  · split at h <;> cases h
  all_goals cases h

/-- Taking over a receipt's id is one step with the transition that stores it. -/
theorem held_receive (h : SubmitInvariant s env c I J) (id : String)
    (hstate : o.waiting) :
    Proc.Triple (fun w => Held I o w ∧ J o id w)
      (transition { o with venueOrderId := some id } .submitted none now)
      (fun _ => I) (Still I) I := by
  unfold transition
  split
  · exact Proc.Triple.raise fun w hw => hw.1.inv
  · rename_i o' ho'
    rcases ExecutionLedger.transition_cases ho' with ⟨-, heq⟩ | ⟨-, heq⟩
    · cases heq
      refine Proc.Triple.bind (Q := fun _ => I) ?_ fun _ => Proc.Triple.pure fun w hw => hw
      exact Proc.Triple.modify fun w hw => h.receive w o id now hw.2 hw.1.stored hstate
    · cases heq

/-- **The retry loop keeps the assertion**, by induction on the budget. -/
theorem held_submitWithRetries (h : SubmitInvariant s env c I J) {plan : ExecutionPlan}
    (hplans : s.Plans c plan) (budget : ℕ) (o : ExecutionOrder) (hwait : Waiting s c plan o) :
    Proc.Triple (Held I o) (s.submitWithRetries env c.intent plan now budget o) (fun _ => I)
      (Still I) I := by
  induction budget generalizing o with
  | zero => exact Proc.Triple.raise fun w hw => hw.inv
  | succ budget ih =>
    unfold submitWithRetries
    refine Proc.Triple.bind (held_putOrder h
      { o with submissionAttempts := o.submissionAttempts + 1 } ?_ rfl (.inl rfl)) fun _ => ?_
    · exact ⟨rfl, rfl, rfl, rfl, rfl, rfl, rfl, .inl rfl, .attempted⟩
    refine Proc.Triple.bind (held_save h) fun _ => ?_
    refine Proc.Triple.bind (held_call h
      ⟨hwait.clientId, hwait.decisionId, hwait.quantity, hwait.waiting⟩ hplans) fun response => ?_
    cases hanswer : s.answerOf response with
    | accepted orderId =>
      refine Proc.Triple.bind ((held_receive h orderId
        (o := { o with submissionAttempts := o.submissionAttempts + 1 }) hwait.waiting).mono
        (fun w hw => ?_) fun _ w hw => hw) fun _ => ?_
      · exact ⟨hw.1, hw.2 orderId (receipt_of_accepted hanswer)⟩
      refine Proc.Triple.bind (Q := fun _ => I) ?_ fun _ => Proc.Triple.pure fun w hw => hw
      exact Proc.Triple.effect fun w hw => ⟨h.save w hw, h.save w hw⟩
    | refused statusCode =>
      exact (held_close h (by simp) fun w hw => hw).mono (fun w hw => hw.1) fun _ w hw => hw
    | uncertain reason =>
      refine Proc.Triple.bind ((held_transition h
        (o := { o with submissionAttempts := o.submissionAttempts + 1 })
        (.inr (.inr ⟨rfl, hwait.waiting⟩))).mono (fun w hw => hw.1)
        fun _ w hw => hw) fun o' => ?_
      refine Proc.Triple.of_fact (fun w hw => hw.2) fun ⟨hdecision, hquantity, huncertain⟩ => ?_
      refine Proc.Triple.bind ((held_persist h (o := o')).mono (fun w hw => hw.1) fun _ w hw => hw)
        fun _ => ?_
      refine Proc.Triple.bind (held_gateRetry h (some reason) huncertain) fun out => ?_
      cases out with
      | some outcome => exact Proc.Triple.pure fun w hw => hw
      | none =>
        have hwait' : Waiting s c plan o' := by
          refine ⟨?_, hdecision.trans hwait.decisionId, hquantity.trans hwait.quantity,
            .inr huncertain⟩
          rw [hdecision]
          exact hwait.clientId
        exact ih o' hwait'

/-- A resumed order is stored as it is; without one the decision has no order. -/
def HeldOpt (I : World → Prop) (decisionId : String) : Option ExecutionOrder → World → Prop
  | none, w => I w ∧ w.ledger.hasOrderForDecision decisionId = false
  | some o, w => Held I o w

theorem held_rejectResumed (h : SubmitInvariant s env c I J) {resumed : Option ExecutionOrder}
    {reason : Reason} :
    Proc.Triple (HeldOpt I c.intent.decisionId resumed) (rejectResumed resumed reason now)
      (fun _ => I) (Still I) I := by
  cases resumed with
  | none => exact Proc.Triple.pure fun w hw => hw.1
  | some o =>
    refine Proc.Triple.bind (held_transition h (by simp)) fun o' => ?_
    exact Proc.Triple.effect fun w hw => ⟨h.save w hw.1.inv, h.save w hw.1.inv⟩

theorem held_orderToSend (h : SubmitInvariant s env c I J) {resumed : Option ExecutionOrder}
    {plan : ExecutionPlan}
    (hplan : s.planner.plan c.intent c.executionPriceUsd c.referencePriceUsd
      (reduceOnlyCap c.intent c.maxQuantity resumed) = .ok plan)
    (hresumed : ∀ o ∈ resumed,
      o.decisionId = c.intent.decisionId ∧ o.state = .submissionUncertain) :
    Proc.Triple (HeldOpt I c.intent.decisionId resumed) (orderToSend resumed plan now)
      (fun o w => Held I o w ∧ Waiting s c plan o) (Still I) I := by
  have hplanned := ExecutionPlanner.planned_of_ok hplan
  cases resumed with
  | some o =>
    obtain ⟨hdecision, huncertain⟩ := hresumed o rfl
    refine Proc.Triple.bind (held_putOrder h { o with
      requestedQuantity := plan.quantity, requested_pos := plan.quantity_pos } ?_ rfl
      (.inr ⟨plan, hplan, rfl⟩)) fun _ => ?_
    · exact ⟨rfl, rfl, rfl, rfl, rfl, rfl, rfl, .inl rfl, .replanned _ _ huncertain⟩
    · refine Proc.Triple.pure fun w hw => ⟨hw, ?_, hdecision, rfl, .inr huncertain⟩
      rw [hplanned.clientOrderId, ← hdecision]
  | none =>
    have hid : plan.clientOrderId = s.planner.clientOrderIdFor plan.decisionId := by
      rw [hplanned.clientOrderId, hplanned.decisionId]
    refine Proc.Triple.bind (Q := fun w0 w => w = w0 ∧ I w ∧
      w.ledger.hasOrderForDecision c.intent.decisionId = false) ?_ fun w0 => ?_
    · exact Proc.Triple.get fun w hw => ⟨rfl, hw⟩
    dsimp only
    split
    · exact Proc.Triple.raise fun w hw => hw.2.1
    · rename_i l hl
      obtain ⟨rfl, hold⟩ := ExecutionLedger.registerOrder_ok hl
      refine Proc.Triple.bind (Q := fun _ => Held I (PaperFillSimulator.plannedOrder plan now)) ?_
        fun _ => Proc.Triple.pure fun w hw => ⟨hw, hid, hplanned.decisionId, rfl, .inl rfl⟩
      refine Proc.Triple.modify fun w hw => ?_
      obtain ⟨rfl, hinv, hunknown⟩ := hw
      refine held_put ?_
      rcases hold with hnone | hsame
      · exact h.register w plan now hinv hid hnone (hplanned.decisionId ▸ hunknown)
      · exact h.amend w _ _ hinv hsame (.refl _) rfl (.inl rfl)

theorem held_proceed (h : SubmitInvariant s env c I J) (resumed : Option ExecutionOrder)
    (hresumed : ∀ o ∈ resumed,
      o.decisionId = c.intent.decisionId ∧ o.state = .submissionUncertain) :
    Proc.Triple (HeldOpt I c.intent.decisionId resumed) (s.proceed env c resumed) (fun _ => I)
      (Still I) I := by
  unfold proceed
  split
  · exact Proc.Triple.bind (held_rejectResumed h) fun _ => Proc.Triple.pure fun w hw => hw
  rename_i plan hplan
  split
  · exact Proc.Triple.bind (held_rejectResumed h) fun _ => Proc.Triple.pure fun w hw => hw
  refine Proc.Triple.bind (held_orderToSend h hplan hresumed) fun o => ?_
  refine Proc.Triple.of_fact (fun w hw => hw.2) fun hwait => ?_
  refine Proc.Triple.bind ((held_persist h (o := o)).mono (fun w hw => hw.1) fun _ w hw => hw)
    fun _ => ?_
  exact held_submitWithRetries h ⟨resumed, hplan⟩ _ o hwait

/-- **A call keeps every invariant of submission**, also when it raises and at
every point where it can crash. -/
theorem triple_submit_of_invariant (h : SubmitInvariant s env c I J) :
    Proc.Triple I (s.submit env c) (fun _ => I) (Still I) I := by
  unfold submit
  refine Proc.Triple.bind (Q := fun w0 w => w = w0 ∧ I w) ?_ fun w0 => ?_
  · exact Proc.Triple.get fun w hw => ⟨rfl, hw⟩
  cases hresumed : resumableOrder w0.ledger c.intent.decisionId with
  | none =>
    dsimp only
    split
    · exact Proc.Triple.pure fun w hw => hw.2
    · rename_i hunknown
      have hnone : ∀ o ∈ (none : Option ExecutionOrder),
          o.decisionId = c.intent.decisionId ∧ o.state = .submissionUncertain := by simp
      refine (held_proceed h none hnone).mono (fun w hw => ?_) fun _ w hw => hw
      obtain ⟨rfl, hinv⟩ := hw
      exact ⟨hinv, Bool.eq_false_iff.mpr hunknown⟩
  | some o =>
    obtain ⟨hmem, hdecision⟩ := ExecutionLedger.mem_ordersForDecision.mp
      (List.mem_of_find?_eq_some hresumed)
    have huncertain : o.state = .submissionUncertain := by
      simpa using List.find?_some hresumed
    refine Proc.Triple.bind ((held_gateRetry h none huncertain).mono
      (S := fun w => w = w0 ∧ I w) (fun w hw => ?_) fun _ w hw => hw) fun out => ?_
    · obtain ⟨rfl, hinv⟩ := hw
      exact ⟨hinv, hmem⟩
    · cases out with
      | some outcome => exact Proc.Triple.pure fun w hw => hw
      | none =>
        have hsome : ∀ o' ∈ some o,
            o'.decisionId = c.intent.decisionId ∧ o'.state = .submissionUncertain := by
          intro o' ho'
          rw [← Option.some.inj ho']
          exact ⟨hdecision, huncertain⟩
        exact held_proceed h (some o) hsome

end IdempotentSubmitter

/-! ## The create calls of a call -/

/-- Since the venue had received the calls, it received some more, all with
`G`. -/
def Sent (calls : List HummingbotOrderRequest) (G : HummingbotOrderRequest → Prop) (w : World) :
    Prop :=
  ∃ sent, w.venue.calls = calls ++ sent ∧ ∀ req ∈ sent, G req

section Sent

variable {calls : List HummingbotOrderRequest} {G : HummingbotOrderRequest → Prop}

theorem sent_refl (w : World) : Sent w.venue.calls G w := ⟨[], by simp⟩

theorem Sent.create {w : World} (h : Sent calls G w) (env : VenueEnv)
    {req : HummingbotOrderRequest} (hreq : G req) :
    Sent calls G { w with venue := (w.venue.create env req).2 } := by
  obtain ⟨sent, hcalls, hG⟩ := h
  refine ⟨sent ++ [req], ?_, ?_⟩
  · show w.venue.calls ++ [req] = calls ++ (sent ++ [req])
    rw [hcalls, List.append_assoc]
  · intro r hr
    rcases List.mem_append.mp hr with hr | hr
    · exact hG r hr
    · rw [List.mem_singleton.mp hr]
      exact hreq

/-- **The submitter** sends only requests of its call. -/
theorem sent_submitInvariant {s : IdempotentSubmitter} {c : SubmitCall}
    (hG : ∀ req, s.Requests c req → G req) (env : VenueEnv) :
    SubmitInvariant s env c (Sent calls G) (fun _ _ => Sent calls G) where
  save := fun _ h => h
  amend := fun _ _ _ h _ _ _ _ => h
  register := fun _ _ _ h _ _ _ => h
  send := fun _ _ _ h _ _ hreq _ => ⟨h.create env (hG _ hreq), fun _ _ => h.create env (hG _ hreq)⟩
  receive := fun _ _ _ _ h _ _ => h
  search := fun _ h => h
  adopt := fun _ _ _ _ _ h _ _ _ _ _ => h

end Sent

end TraderStack
