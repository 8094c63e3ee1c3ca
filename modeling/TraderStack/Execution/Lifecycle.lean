import TraderStack.Execution.SubmitEffects

/-!
# The life of an order

Four entry points write to the orders of a ledger: `register_order`,
`record_fill`, `update_order_state` and the submitter's steps. They mutate the
stored objects statement by statement, so here they are written that way
(`InPlace`), and `recordFill_eq` shows that raising stops `record_fill` before
its first write.

* `isLegalTransition_iff`: the transition table is the order of the lifecycle
* `Sound`: what a ledger owes to the fills it recorded
* `Logged.lifecycle`: it holds after any calls, no order ever moves back, and a
  call that raises changes nothing
* `triple_submit_reaches`: a submission is a sequence of such calls
-/

namespace TraderStack

open Lib

/-! ## The order of the lifecycle -/

namespace OrderLifecycleState

/-- How far along the lifecycle a state is. -/
def rank : OrderLifecycleState → ℕ
  | planned => 0
  | submitted | submissionUncertain => 1
  | acknowledged => 2
  | «open» => 3
  | partiallyFilled => 4
  | filled | cancelled | rejected | expired => 5

/-- Submitted, whether or not the venue answered. -/
def atSubmission : OrderLifecycleState → Bool
  | submitted | submissionUncertain => true
  | _ => false

/-- Not backwards: the state stays, gets closer to a terminal one, or switches
between SUBMITTED and SUBMISSION_UNCERTAIN. -/
def Forward (s t : OrderLifecycleState) : Prop :=
  s = t ∨ s.rank < t.rank ∨ (s.atSubmission = true ∧ t.atSubmission = true)

/-- **The transition table** is the order of the lifecycle. -/
theorem isLegalTransition_iff {s t : OrderLifecycleState} :
    s.isLegalTransition t = true ↔ s.Forward t := by
  unfold Forward
  cases s <;> cases t <;> decide

theorem Forward.refl (s : OrderLifecycleState) : s.Forward s := .inl rfl

theorem rank_of_atSubmission {s : OrderLifecycleState} (h : s.atSubmission = true) :
    s.rank = 1 := by
  revert h
  cases s <;> decide

theorem Forward.trans {s t u : OrderLifecycleState} (h : s.Forward t) (h' : t.Forward u) :
    s.Forward u := by
  rcases h with rfl | h | ⟨hs, ht⟩
  · exact h'
  · rcases h' with rfl | h' | ⟨ht, hu⟩
    · exact .inr (.inl h)
    · exact .inr (.inl (h.trans h'))
    · rw [rank_of_atSubmission ht, ← rank_of_atSubmission hu] at h
      exact .inr (.inl h)
  · rcases h' with rfl | h' | ⟨-, hu⟩
    · exact .inr (.inr ⟨hs, ht⟩)
    · rw [rank_of_atSubmission ht, ← rank_of_atSubmission hs] at h'
      exact .inr (.inl h')
    · exact .inr (.inr ⟨hs, hu⟩)

/-- Nothing lies beyond a terminal state. -/
theorem Forward.eq_of_terminal {s t : OrderLifecycleState} (h : s.Forward t)
    (hs : s.terminal = true) : t = s :=
  (eq_of_legal_of_terminal hs (isLegalTransition_iff.mpr h)).symm

/-- Once an order can hold fills, it can only hold fills or be closed. -/
theorem Forward.closing {s t : OrderLifecycleState} (h : s.Forward t)
    (hs : s = .partiallyFilled ∨ s.terminal = true) :
    t = .partiallyFilled ∨ t.terminal = true := by
  rcases hs with rfl | hs
  · revert h
    unfold Forward
    cases t <;> decide
  · exact .inr (by rw [h.eq_of_terminal hs, hs])

end OrderLifecycleState

/-! ## The writes, one by one -/

namespace ExecutionOrder

/-- `filled_quantity` and `average_fill_price_usd` after a fill (ledger.py:256–260). -/
def withQuantity (o : ExecutionOrder) (fill : ExecutionFill) : ExecutionOrder :=
  { o with
    filledQuantity := o.filledQuantity + fill.quantity
    averageFillPriceUsd := some
      ((o.filledNotional + fill.priceUsd * fill.quantity) / (o.filledQuantity + fill.quantity))
    filled_nonneg := (o.withFill fill 0).filled_nonneg
    averageFill_pos := (o.withFill fill 0).averageFill_pos }

/-- `fees_paid_usd` and `fee_source` after a fill (ledger.py:262–266). -/
def withFees (o : ExecutionOrder) (fill : ExecutionFill) : ExecutionOrder :=
  { o with
    feesPaidUsd := o.feesPaidUsd + fill.feeUsd
    feeSource := some (o.feeSourceAfter fill.feeSource)
    feesPaid_nonneg := (o.withFill fill 0).feesPaid_nonneg }

/-- Nothing was filled of it: what every caller of `register_order` registers
(service.py:286–294, submitter.py:333–345, paper_fill.py:238–251,
paper_perp.py:239–249, reconcile.py:250–267). -/
structure Unfilled (o : ExecutionOrder) : Prop where
  filledQuantity : o.filledQuantity = 0
  averageFillPriceUsd : o.averageFillPriceUsd = none
  feesPaidUsd : o.feesPaidUsd = 0

end ExecutionOrder

namespace InPlace

/-- Write to an order the ledger holds. -/
def store (o : ExecutionOrder) : Proc ExecutionLedger LedgerError PUnit :=
  Proc.modify fun l => l.put o

/-- `_transition` (ledger.py:271–276). -/
def transition (o : ExecutionOrder) (state : OrderLifecycleState) (now : Time) :
    Proc ExecutionLedger LedgerError ExecutionOrder :=
  if o.state.isLegalTransition state then do
    let o := { o with state := state }
    store o
    let o := { o with lastUpdatedAt := now }
    store o
    return o
  else Proc.raise (.illegalTransition o.orderId o.state state)

/-- `register_order` (ledger.py:208–212). -/
def registerOrder (o : ExecutionOrder) : Proc ExecutionLedger LedgerError PUnit := do
  let l ← Proc.get
  match l.orders.get? o.orderId with
  | some existing => if existing ≠ o then Proc.raise (.conflictingOrder o.orderId) else store o
  | none => store o

/-- `update_order_state` (ledger.py:231–235). -/
def updateOrderState (identifier : String) (state : OrderLifecycleState) (now : Time) :
    Proc ExecutionLedger LedgerError PUnit := do
  let l ← Proc.get
  match l.findOrder identifier with
  | none => Proc.raise (.unknownOrder identifier)
  | some o => do
    let _ ← transition o state now
    return

/-- The writes of an accepted fill (ledger.py:256–269). -/
def writeFill (o : ExecutionOrder) (fill : ExecutionFill) (now : Time) :
    Proc ExecutionLedger LedgerError Bool := do
  let o := o.withQuantity fill
  store o
  let o := o.withFees fill
  store o
  store { o with lastUpdatedAt := now }
  Proc.modify fun l => l.markProcessed fill.fillId
  return true

/-- `record_fill` (ledger.py:237–269). -/
def recordFill (fill : ExecutionFill) (now : Time) : Proc ExecutionLedger LedgerError Bool := do
  let l ← Proc.get
  if fill.fillId ∈ l.processedFillIds then return false
  else
    match l.findOrder fill.orderId with
    | none => Proc.raise (.orphanFill fill.fillId fill.orderId)
    | some o =>
      if Text.upper fill.asset ≠ Text.upper o.asset ∨ fill.side ≠ o.side then
        Proc.raise (.mismatchedFill fill.fillId fill.orderId)
      else if o.requestedQuantity + fillTolerance < o.filledQuantity + fill.quantity then
        Proc.raise (.overfill fill.fillId fill.orderId)
      else do
        let o ← transition o (o.stateAfterFill fill.quantity) now
        writeFill o fill now

end InPlace

/-- How a call that raises, or returns a value and a new ledger, runs. -/
def settle {α : Type} (l : ExecutionLedger) :
    Except LedgerError (α × ExecutionLedger) → Ran ExecutionLedger LedgerError α
  | .error e => ⟨.error e, l, []⟩
  | .ok (a, l') => ⟨.ok a, l', []⟩

namespace InPlace

variable {l : ExecutionLedger} {o : ExecutionOrder} {fill : ExecutionFill} {now : Time}
  {state : OrderLifecycleState}

/-- Of two writes to one order the second one stays. -/
theorem put_put (l : ExecutionLedger) {o o' : ExecutionOrder} (h : o'.orderId = o.orderId) :
    (l.put o).put o' = l.put o' := by
  have horders : ((l.put o).put o').orders = (l.put o').orders := by
    rw [ExecutionLedger.orders_put, ExecutionLedger.orders_put, ExecutionLedger.orders_put, h,
      Dict.set_set]
  unfold ExecutionLedger.put at horders ⊢
  congr

/-- A transition writes the order in its new state, or raises before it writes. -/
theorem transition_eq (o : ExecutionOrder) (state : OrderLifecycleState) (now : Time)
    (l : ExecutionLedger) :
    transition o state now l
      = settle l ((o.transition state now).map fun o' => (o', l.put o')) := by
  unfold transition ExecutionOrder.transition
  by_cases hlegal : o.state.isLegalTransition state = true
  · rw [if_pos hlegal, if_pos hlegal]
    have hwrites := @put_put l { o with state := state }
      { o with state := state, lastUpdatedAt := now } rfl
    exact congrArg (fun l' => Ran.mk (.ok _) l' []) hwrites
  · rw [if_neg hlegal, if_neg hlegal]
    rfl

theorem writeFill_eq (o : ExecutionOrder) (fill : ExecutionFill) (now : Time)
    (l : ExecutionLedger) :
    writeFill o fill now l = ⟨.ok true, (l.put { (o.withQuantity fill).withFees fill with
      lastUpdatedAt := now }).markProcessed fill.fillId, []⟩ := by
  have hwrites := @put_put l (o.withQuantity fill) ((o.withQuantity fill).withFees fill) rfl
  have hclock := @put_put l ((o.withQuantity fill).withFees fill)
    { (o.withQuantity fill).withFees fill with lastUpdatedAt := now } rfl
  rw [← hwrites] at hclock
  exact congrArg (fun l' => Ran.mk (.ok true) (l'.markProcessed fill.fillId) []) hclock

theorem registerOrder_eq (o : ExecutionOrder) (l : ExecutionLedger) :
    registerOrder o l = settle l ((l.registerOrder o).map fun l' => (⟨⟩, l')) := by
  unfold registerOrder ExecutionLedger.registerOrder
  rw [Proc.get_bind_apply]
  cases l.orders.get? o.orderId with
  | none => rfl
  | some existing =>
    by_cases hsame : existing = o
    · simp only [hsame, ne_eq, not_true_eq_false, if_false]
      rfl
    · simp only [hsame, ne_eq, not_false_eq_true, if_true]
      rfl

theorem updateOrderState_eq (identifier : String) (state : OrderLifecycleState) (now : Time)
    (l : ExecutionLedger) :
    updateOrderState identifier state now l
      = settle l ((l.updateOrderState identifier state now).map fun l' => (⟨⟩, l')) := by
  unfold updateOrderState ExecutionLedger.updateOrderState
  rw [Proc.get_bind_apply]
  cases l.findOrder identifier with
  | none => rfl
  | some o =>
    have htransition := transition_eq o state now l
    dsimp only
    cases hto : o.transition state now with
    | error e =>
      rw [hto] at htransition
      exact Proc.bind_of_raised htransition
    | ok o' =>
      rw [hto] at htransition
      exact Proc.bind_of_returned htransition

/-- **`record_fill` statement by statement** is `record_fill`: it raises before
its first write, and its writes add up to the order with the fill. -/
theorem recordFill_eq (fill : ExecutionFill) (now : Time) (l : ExecutionLedger) :
    recordFill fill now l = settle l (l.recordFill fill now) := by
  unfold recordFill ExecutionLedger.recordFill
  rw [Proc.get_bind_apply]
  by_cases hmem : fill.fillId ∈ l.processedFillIds
  · rw [if_pos hmem, if_pos hmem]
    rfl
  rw [if_neg hmem, if_neg hmem]
  cases l.findOrder fill.orderId with
  | none => rfl
  | some o =>
    dsimp only
    by_cases hmatch : Text.upper fill.asset ≠ Text.upper o.asset ∨ fill.side ≠ o.side
    · rw [if_pos hmatch, if_pos hmatch]
      rfl
    rw [if_neg hmatch, if_neg hmatch]
    by_cases hover : o.requestedQuantity + fillTolerance < o.filledQuantity + fill.quantity
    · rw [if_pos hover, if_pos hover]
      rfl
    rw [if_neg hover, if_neg hover]
    have htransition := transition_eq o (o.stateAfterFill fill.quantity) now l
    unfold ExecutionOrder.transition at htransition
    by_cases hlegal : o.state.isLegalTransition (o.stateAfterFill fill.quantity) = true
    · rw [if_pos hlegal] at htransition ⊢
      refine (Proc.bind_of_returned htransition).trans ?_
      rw [writeFill_eq]
      have hput := @put_put l
        { o with state := o.stateAfterFill fill.quantity, lastUpdatedAt := now }
        (o.withFill fill now) rfl
      exact congrArg (fun l' => Ran.mk (.ok true) (l'.markProcessed fill.fillId) []) hput
    · rw [if_neg hlegal] at htransition ⊢
      exact Proc.bind_of_raised htransition

end InPlace

/-! ## Calls -/

/-- The calls that write to a ledger's orders. The last four are the submitter's:
its `_transition`, and its writes to the attempts, the venue id and the quantity
of an order it holds. -/
inductive LedgerCall where
  | registerOrder (order : {o : ExecutionOrder // o.Unfilled})
  | recordFill (fill : ExecutionFill)
  | updateOrderState (identifier : String) (state : OrderLifecycleState)
  | transition (orderId : String) (state : OrderLifecycleState) (reason : Option Reason)
  | attempt (orderId : String)
  | receive (orderId venueOrderId : String)
  | replan (orderId : String) (quantity : { q : ℚ // 0 < q })

namespace LedgerCall

/-- A write to the order under a key, if there is one. -/
def onOrder (orderId : String) (f : ExecutionOrder → ExecutionOrder) :
    Proc ExecutionLedger LedgerError PUnit := do
  let l ← Proc.get
  match l.orders.get? orderId with
  | none => return
  | some o => InPlace.store (f o)

theorem replanned_pos (quantity : { q : ℚ // 0 < q }) : 0 < quantity.val := quantity.property

/-- What a call does, and whether it recorded a fill. Only an order
`_resumable_order` found, hence an uncertain one, is re-planned
(submitter.py:181–187). -/
def perform (call : LedgerCall) (now : Time) : Proc ExecutionLedger LedgerError Bool :=
  match call with
  | registerOrder order => do
    InPlace.registerOrder order.val
    return false
  | recordFill fill => InPlace.recordFill fill now
  | updateOrderState identifier state => do
    InPlace.updateOrderState identifier state now
    return false
  | transition orderId state reason => do
    InPlace.updateOrderState orderId state now
    onOrder orderId fun o => { o with reason := reason }
    return false
  | attempt orderId => do
    onOrder orderId fun o => { o with submissionAttempts := o.submissionAttempts + 1 }
    return false
  | receive orderId venueOrderId => do
    onOrder orderId fun o => { o with venueOrderId := some venueOrderId }
    return false
  | replan orderId quantity => do
    onOrder orderId fun o =>
      if o.state = .submissionUncertain then
        { o with requestedQuantity := quantity.val, requested_pos := replanned_pos quantity }
      else o
    return false

end LedgerCall

/-- A fill the ledger recorded: on the order under which key, and the state it
left that order in. -/
structure Recorded where
  key : String
  fill : ExecutionFill
  left : Option OrderLifecycleState

/-- A ledger with the fills recorded on it so far. -/
structure Logged where
  ledger : ExecutionLedger
  fills : List Recorded

namespace Logged

/-- A ledger without orders, on which nothing was recorded. -/
def start : Logged := ⟨.empty, []⟩

/-- The fill a call recorded, given how it ran. -/
def recordedBy (call : LedgerCall) (l : ExecutionLedger)
    (ran : Ran ExecutionLedger LedgerError Bool) : Option Recorded :=
  match call, ran.exit with
  | .recordFill fill, .ok true => (l.findOrder fill.orderId).map fun o =>
    ⟨o.orderId, fill, (ran.world.orders.get? o.orderId).map fun o => o.state⟩
  | _, _ => none

/-- The ledger and its fills after a call that ran so. -/
def after (t : Logged) (call : LedgerCall) (ran : Ran ExecutionLedger LedgerError Bool) :
    Logged where
  ledger := ran.world
  fills := t.fills ++ (recordedBy call t.ledger ran).toList

/-- A call at its time. -/
def step (t : Logged) (call : LedgerCall × Time) : Logged :=
  t.after call.1 (call.1.perform call.2 t.ledger)

/-- What the fills recorded on an order add up to. -/
def total (t : Logged) (key : String) (amount : ExecutionFill → ℚ) : ℚ :=
  ((t.fills.filter fun e => e.key = key).map fun e => amount e.fill).sum

end Logged

/-! ## What a call does -/

/-- A change of an order that leaves its fills alone. -/
structure Touches (o o' : ExecutionOrder) : Prop where
  orderId : o'.orderId = o.orderId
  filledQuantity : o'.filledQuantity = o.filledQuantity
  averageFillPriceUsd : o'.averageFillPriceUsd = o.averageFillPriceUsd
  feesPaidUsd : o'.feesPaidUsd = o.feesPaidUsd
  forward : o.state.Forward o'.state
  requestedQuantity : o'.requestedQuantity = o.requestedQuantity ∨ o.state = .submissionUncertain

/-- A change of an order that leaves its state and its stamp alone, too. -/
structure Keeps (o o' : ExecutionOrder) : Prop extends Touches o o' where
  state : o'.state = o.state
  lastUpdatedAt : o'.lastUpdatedAt = o.lastUpdatedAt

/-- A ledger some of whose orders were rewritten, each as `R` allows. -/
inductive Rewritten (R : ExecutionOrder → ExecutionOrder → Prop) (l : ExecutionLedger) :
    ExecutionLedger → Prop
  | refl : Rewritten R l l
  | put {l' : ExecutionLedger} (o o' : ExecutionOrder) :
      Rewritten R l l' → l'.orders.get? o.orderId = some o → o'.orderId = o.orderId → R o o' →
        Rewritten R l (l'.put o')

namespace LedgerCall

variable {l l' : ExecutionLedger} {now : Time} {call : LedgerCall}

/-- The order a call moves to a state, and that state. -/
def moves : LedgerCall → Option (String × OrderLifecycleState)
  | updateOrderState identifier state => some (identifier, state)
  | transition orderId state _ => some (orderId, state)
  | _ => none

/-- How a call can go, when the orders it does not fill are rewritten as `R`
allows. -/
inductive Effect (R : ExecutionOrder → ExecutionOrder → Prop) (l : ExecutionLedger) (now : Time) :
    LedgerCall → Ran ExecutionLedger LedgerError Bool → Prop
  | raised (call : LedgerCall) (e : LedgerError) : Effect R l now call ⟨.error e, l, []⟩
  | rewritten (call : LedgerCall) (l' : ExecutionLedger) (h : Rewritten R l l') :
      Effect R l now call ⟨.ok false, l', []⟩
  | registered (o : {o : ExecutionOrder // o.Unfilled}) (h : l.orders.get? o.val.orderId = none) :
      Effect R l now (.registerOrder o) ⟨.ok false, l.put o.val, []⟩
  | recorded (fill : ExecutionFill) (o : ExecutionOrder) (h : ExecutionLedger.Accepts l fill o) :
      Effect R l now (.recordFill fill)
        ⟨.ok true, (l.put (o.withFill fill now)).markProcessed fill.fillId, []⟩

/-- `R` allows what a call does to the orders it does not fill. -/
structure Allows (R : ExecutionOrder → ExecutionOrder → Prop) (l : ExecutionLedger) (now : Time)
    (call : LedgerCall) : Prop where
  keeps : ∀ o o', Keeps o o' → R o o'
  moves : ∀ identifier state, call.moves = some (identifier, state) →
    ∀ o, l.findOrder identifier = some o → o.state.isLegalTransition state = true →
      R o { o with state := state, lastUpdatedAt := now }

variable {R : ExecutionOrder → ExecutionOrder → Prop}

theorem Effect.of_rewritten (hran : call.perform now l = ⟨.ok false, l', []⟩)
    (h : Rewritten R l l') : Effect R l now call (call.perform now l) := by
  rw [hran]
  exact .rewritten call l' h

theorem Effect.of_raised {e : LedgerError} (hran : call.perform now l = ⟨.error e, l, []⟩) :
    Effect R l now call (call.perform now l) := by
  rw [hran]
  exact .raised call e

/-- A write to an order that keeps its state. -/
theorem rewritten_onOrder {orderId : String} {f : ExecutionOrder → ExecutionOrder}
    (hkeeps : ∀ o o', Keeps o o' → R o o') (hf : ∀ o, Keeps o (f o)) (h : Rewritten R l l') :
    ∃ l'', onOrder orderId f l' = ⟨.ok ⟨⟩, l'', []⟩ ∧ Rewritten R l l'' := by
  unfold onOrder
  rw [Proc.get_bind_apply]
  cases hget : l'.orders.get? orderId with
  | none => exact ⟨l', rfl, h⟩
  | some o =>
    have hid := l'.keyed _ _ hget
    exact ⟨l'.put (f o), rfl,
      h.put o (f o) (by rw [hid]; exact hget) (hf o).orderId (hkeeps o (f o) (hf o))⟩

theorem updateOrderState_cases {identifier : String} {state : OrderLifecycleState}
    (hmoves : ∀ o, l.findOrder identifier = some o → o.state.isLegalTransition state = true →
      R o { o with state := state, lastUpdatedAt := now }) :
    (∃ e, InPlace.updateOrderState identifier state now l = ⟨.error e, l, []⟩) ∨
      ∃ l', InPlace.updateOrderState identifier state now l = ⟨.ok ⟨⟩, l', []⟩ ∧
        Rewritten R l l' := by
  rw [InPlace.updateOrderState_eq]
  unfold ExecutionLedger.updateOrderState
  cases hfind : l.findOrder identifier with
  | none => exact .inl ⟨_, rfl⟩
  | some o =>
    dsimp only
    rcases ExecutionLedger.transition_cases (Eq.refl (o.transition state now)) with
      ⟨hlegal, hto⟩ | ⟨-, hto⟩
    · rw [hto]
      exact .inr ⟨_, rfl, Rewritten.refl.put o _ (ExecutionLedger.get?_of_findOrder hfind) rfl
        (hmoves o hfind hlegal)⟩
    · rw [hto]
      exact .inl ⟨_, rfl⟩

/-- **What a call does**, one case for each way it can go. -/
theorem perform_effect (h : Allows R l now call) :
    Effect R l now call (call.perform now l) := by
  have hsame : ∀ o o' : ExecutionOrder, o'.orderId = o.orderId →
      o'.requestedQuantity = o.requestedQuantity → o'.state = o.state →
      o'.filledQuantity = o.filledQuantity → o'.averageFillPriceUsd = o.averageFillPriceUsd →
      o'.feesPaidUsd = o.feesPaidUsd → o'.lastUpdatedAt = o.lastUpdatedAt → Keeps o o' :=
    fun o o' hid hq hs hf ha hp hl =>
      ⟨⟨hid, hf, ha, hp, by rw [hs]; exact .refl _, .inl hq⟩, hs, hl⟩
  cases call with
  | registerOrder order =>
    have heq := InPlace.registerOrder_eq order.val l
    cases hreg : l.registerOrder order.val with
    | error e =>
      rw [hreg] at heq
      exact .of_raised (Proc.bind_of_raised heq)
    | ok l' =>
      rw [hreg] at heq
      have hran : perform (.registerOrder order) now l = ⟨.ok false, l', []⟩ :=
        Proc.bind_of_returned heq
      obtain ⟨rfl, hnone | hstored⟩ := ExecutionLedger.registerOrder_ok hreg
      · rw [hran]
        exact .registered order hnone
      · exact .of_rewritten hran (Rewritten.refl.put _ _ hstored rfl
          (h.keeps _ _ (hsame _ _ rfl rfl rfl rfl rfl rfl rfl)))
  | recordFill fill =>
    have hran : perform (.recordFill fill) now l = settle l (l.recordFill fill now) :=
      InPlace.recordFill_eq fill now l
    rcases ExecutionLedger.recordFill_cases (Eq.refl (l.recordFill fill now)) with
      ⟨-, hrec⟩ | ⟨e, hrec, -⟩ | ⟨o, hacc, hrec⟩
    · rw [hrec] at hran
      exact .of_rewritten hran .refl
    · rw [hrec] at hran
      exact .of_raised hran
    · rw [hrec] at hran
      rw [hran]
      exact .recorded fill o hacc
  | updateOrderState identifier state =>
    rcases updateOrderState_cases (h.moves identifier state rfl) with ⟨e, heq⟩ | ⟨l', heq, hto⟩
    · exact .of_raised (Proc.bind_of_raised heq)
    · exact .of_rewritten (Proc.bind_of_returned heq) hto
  | transition orderId state reason =>
    rcases updateOrderState_cases (h.moves orderId state rfl) with ⟨e, heq⟩ | ⟨l', heq, hto⟩
    · exact .of_raised (Proc.bind_of_raised heq)
    · obtain ⟨l'', hwrite, hto'⟩ := @rewritten_onOrder l l' R orderId
        (fun o => { o with reason := reason }) h.keeps
        (fun o => hsame _ _ rfl rfl rfl rfl rfl rfl rfl) hto
      exact .of_rewritten ((Proc.bind_of_returned heq).trans (Proc.bind_of_returned hwrite)) hto'
  | attempt orderId =>
    obtain ⟨l', hwrite, hto⟩ := @rewritten_onOrder l l R orderId
      (fun o => { o with submissionAttempts := o.submissionAttempts + 1 }) h.keeps
      (fun o => hsame _ _ rfl rfl rfl rfl rfl rfl rfl) .refl
    exact .of_rewritten (Proc.bind_of_returned hwrite) hto
  | receive orderId venueOrderId =>
    obtain ⟨l', hwrite, hto⟩ := @rewritten_onOrder l l R orderId
      (fun o => { o with venueOrderId := some venueOrderId }) h.keeps
      (fun o => hsame _ _ rfl rfl rfl rfl rfl rfl rfl) .refl
    exact .of_rewritten (Proc.bind_of_returned hwrite) hto
  | replan orderId quantity =>
    obtain ⟨l', hwrite, hto⟩ := @rewritten_onOrder l l R orderId
      (fun o => if o.state = .submissionUncertain then
        { o with requestedQuantity := quantity.val, requested_pos := replanned_pos quantity } else o)
      h.keeps
      (fun o => by
        split
        · rename_i huncertain
          exact ⟨⟨rfl, rfl, rfl, rfl, .refl _, .inr huncertain⟩, rfl, rfl⟩
        · exact hsame _ _ rfl rfl rfl rfl rfl rfl rfl) .refl
    exact .of_rewritten (Proc.bind_of_returned hwrite) hto

/-- Every call touches the orders it does not fill, at most. -/
theorem allows_touches (l : ExecutionLedger) (now : Time) (call : LedgerCall) :
    Allows Touches l now call where
  keeps := fun _ _ h => h.toTouches
  moves := fun _ _ _ _ _ hlegal =>
    ⟨rfl, rfl, rfl, rfl, OrderLifecycleState.isLegalTransition_iff.mp hlegal, .inl rfl⟩

end LedgerCall

/-! ## What a ledger owes to its fills -/

/-- The books of a ledger agree with the fills it recorded. -/
structure Sound (t : Logged) : Prop where
  /-- An order is filled at most up to its requested quantity. -/
  bounds : ∀ k o, t.ledger.orders.get? k = some o →
    0 ≤ o.filledQuantity ∧ o.filledQuantity ≤ o.requestedQuantity + fillTolerance
  quantity : ∀ k o, t.ledger.orders.get? k = some o →
    o.filledQuantity = t.total k fun fill => fill.quantity
  notional : ∀ k o, t.ledger.orders.get? k = some o →
    o.filledNotional = t.total k fun fill => fill.priceUsd * fill.quantity
  fees : ∀ k o, t.ledger.orders.get? k = some o →
    o.feesPaidUsd = t.total k fun fill => fill.feeUsd
  /-- Each fill id counts once, and is a processed one. -/
  once : (t.fills.map fun e => e.fill.fillId).Nodup
  processed : ∀ id, id ∈ t.ledger.processedFillIds ↔ ∃ e ∈ t.fills, e.fill.fillId = id
  stored : ∀ e ∈ t.fills, t.ledger.orders.get? e.key ≠ none
  /-- An order with a fill is partially filled or closed. -/
  closing : ∀ k o, t.ledger.orders.get? k = some o → o.filledQuantity ≠ 0 →
    o.state = .partiallyFilled ∨ o.state.terminal = true
  /-- A fill that left its order FILLED left it full, and so it stays. -/
  complete : ∀ e ∈ t.fills, e.left = some .filled → ∀ o, t.ledger.orders.get? e.key = some o →
    o.state = .filled ∧ |o.filledQuantity - o.requestedQuantity| ≤ fillTolerance

/-- Every order is still there, and has not moved back. -/
def Onward (l l' : ExecutionLedger) : Prop :=
  ∀ k o, l.orders.get? k = some o →
    ∃ o', l'.orders.get? k = some o' ∧ o.state.Forward o'.state

theorem Onward.refl (l : ExecutionLedger) : Onward l l :=
  fun _ o h => ⟨o, h, .refl _⟩

theorem Onward.trans {l l' l'' : ExecutionLedger} (h : Onward l l') (h' : Onward l' l'') :
    Onward l l'' := by
  intro k o hk
  obtain ⟨o', hk', hforward⟩ := h k o hk
  obtain ⟨o'', hk'', hforward'⟩ := h' k o' hk'
  exact ⟨o'', hk'', hforward.trans hforward'⟩

/-- Storing a new order, or the same one further along. -/
theorem onward_put {l : ExecutionLedger} {o' : ExecutionOrder}
    (h : ∀ o, l.orders.get? o'.orderId = some o → o.state.Forward o'.state) :
    Onward l (l.put o') := by
  intro k o hk
  rw [ExecutionLedger.get?_put]
  split
  · rename_i heq
    subst heq
    exact ⟨o', rfl, h o hk⟩
  · exact ⟨o, hk, .refl _⟩

theorem onward_rewritten {l l' : ExecutionLedger} (h : Rewritten Touches l l') : Onward l l' := by
  induction h with
  | refl => exact .refl l
  | put o o' _ hget _ ht ih =>
    refine ih.trans (onward_put fun x hx => ?_)
    rw [ht.orderId, hget] at hx
    cases hx
    exact ht.forward

namespace LedgerCall

variable {call : LedgerCall} {t : Logged} {l : ExecutionLedger} {now : Time}
  {ran : Ran ExecutionLedger LedgerError Bool}

/-- A call moves no order back. -/
theorem Effect.onward (h : Effect Touches l now call ran) : Onward l ran.world := by
  cases h with
  | raised e => exact .refl l
  | rewritten _ _ h => exact onward_rewritten h
  | registered o h =>
    refine onward_put fun x hx => ?_
    rw [h] at hx
    cases hx
  | recorded fill o h =>
    refine onward_put fun x hx => ?_
    have hget := ExecutionLedger.get?_of_findOrder h.found
    rw [ExecutionOrder.withFill_orderId, hget] at hx
    cases hx
    exact OrderLifecycleState.isLegalTransition_iff.mp h.legal

end LedgerCall

/-- What a call that recorded a fill recorded. -/
theorem Logged.recordedBy_recorded {l : ExecutionLedger} {fill : ExecutionFill}
    {o : ExecutionOrder} (hacc : ExecutionLedger.Accepts l fill o) (now : Time) :
    Logged.recordedBy (.recordFill fill) l
        ⟨.ok true, (l.put (o.withFill fill now)).markProcessed fill.fillId, []⟩
      = some ⟨o.orderId, fill, some (o.stateAfterFill fill.quantity)⟩ := by
  unfold Logged.recordedBy
  dsimp only
  rw [hacc.found, Option.map_some, ExecutionLedger.orders_markProcessed,
    ExecutionLedger.get?_put, ExecutionOrder.withFill_orderId, if_pos rfl]
  rfl

namespace Sound

variable {t : Logged} {l : ExecutionLedger} {o o' : ExecutionOrder} {fill : ExecutionFill}
  {now : Time}

theorem start : Sound Logged.start := by
  have hnone : ∀ {k o}, Logged.start.ledger.orders.get? k = some o → False := by
    intro k o h
    simp [Logged.start, ExecutionLedger.empty] at h
  refine ⟨fun k o h => (hnone h).elim, fun k o h => (hnone h).elim, fun k o h => (hnone h).elim,
    fun k o h => (hnone h).elim, List.nodup_nil, ?_, ?_, fun k o h => (hnone h).elim, ?_⟩
  · intro id
    simp [Logged.start, ExecutionLedger.empty]
  · intro e he
    simp [Logged.start] at he
  · intro e he
    simp [Logged.start] at he

/-- Touching an order leaves the books in agreement. Only an uncertain order is
re-sized, and nothing is filled of it yet. -/
theorem put (h : Sound t) (hget : t.ledger.orders.get? o.orderId = some o) (ht : Touches o o') :
    Sound { t with ledger := t.ledger.put o' } where
  bounds := by
    intro k x hx
    rcases ExecutionLedger.get?_put_cases hx with ⟨rfl, rfl⟩ | ⟨-, hx⟩
    · refine ⟨x.filled_nonneg, ?_⟩
      obtain ⟨-, hle⟩ := h.bounds _ _ hget
      rcases ht.requestedQuantity with hsame | huncertain
      · rw [hsame, ht.filledQuantity]
        exact hle
      · have hzero : o.filledQuantity = 0 := by
          by_contra hne
          have hstate := h.closing _ _ hget hne
          rw [huncertain] at hstate
          rcases hstate with hstate | hstate <;> cases hstate
        rw [ht.filledQuantity, hzero]
        exact add_nonneg x.requested_pos.le (by norm_num [fillTolerance])
    · exact h.bounds k x hx
  quantity := by
    intro k x hx
    rcases ExecutionLedger.get?_put_cases hx with ⟨rfl, rfl⟩ | ⟨-, hx⟩
    · rw [ht.orderId, ht.filledQuantity]
      exact h.quantity _ _ hget
    · exact h.quantity k x hx
  notional := by
    intro k x hx
    rcases ExecutionLedger.get?_put_cases hx with ⟨rfl, rfl⟩ | ⟨-, hx⟩
    · have hsame : x.filledNotional = o.filledNotional := by
        unfold ExecutionOrder.filledNotional
        rw [ht.averageFillPriceUsd, ht.filledQuantity]
      rw [ht.orderId, hsame]
      exact h.notional _ _ hget
    · exact h.notional k x hx
  fees := by
    intro k x hx
    rcases ExecutionLedger.get?_put_cases hx with ⟨rfl, rfl⟩ | ⟨-, hx⟩
    · rw [ht.orderId, ht.feesPaidUsd]
      exact h.fees _ _ hget
    · exact h.fees k x hx
  once := h.once
  processed := h.processed
  stored := fun e he => ExecutionLedger.get?_put_ne_none (h.stored e he)
  closing := by
    intro k x hx hne
    rcases ExecutionLedger.get?_put_cases hx with ⟨rfl, rfl⟩ | ⟨-, hx⟩
    · rw [ht.filledQuantity] at hne
      exact ht.forward.closing (h.closing _ _ hget hne)
    · exact h.closing k x hx hne
  complete := by
    intro e he hleft x hx
    rcases ExecutionLedger.get?_put_cases hx with ⟨hk, rfl⟩ | ⟨-, hx⟩
    · rw [ht.orderId] at hk
      obtain ⟨hfilled, hfull⟩ := h.complete e he hleft o (by rw [hk]; exact hget)
      refine ⟨?_, ?_⟩
      · rw [ht.forward.eq_of_terminal (by rw [hfilled]; rfl), hfilled]
      · rcases ht.requestedQuantity with hsame | huncertain
        · rw [hsame, ht.filledQuantity]
          exact hfull
        · rw [huncertain] at hfilled
          cases hfilled
    · exact h.complete e he hleft x hx

theorem rewritten (h : Sound t) {l' : ExecutionLedger} (hto : Rewritten Touches t.ledger l') :
    Sound { t with ledger := l' } := by
  induction hto with
  | refl => exact h
  | put o o' _ hget _ ht ih => exact ih.put hget ht

/-- Nothing was recorded on an order that is not there. -/
theorem total_of_absent (h : Sound t) {k : String} (hk : t.ledger.orders.get? k = none)
    (amount : ExecutionFill → ℚ) : t.total k amount = 0 := by
  have hnone : (t.fills.filter fun e => e.key = k) = [] := by
    rw [List.filter_eq_nil_iff]
    intro e he heq
    have hkey : e.key = k := by simpa using heq
    exact h.stored e he (by rw [hkey]; exact hk)
  unfold Logged.total
  rw [hnone]
  rfl

/-- A new order has no fills. -/
theorem register (h : Sound t) (ho : o.Unfilled) (hnone : t.ledger.orders.get? o.orderId = none) :
    Sound { t with ledger := t.ledger.put o } where
  bounds := by
    intro k x hx
    rcases ExecutionLedger.get?_put_cases hx with ⟨rfl, rfl⟩ | ⟨-, hx⟩
    · refine ⟨x.filled_nonneg, ?_⟩
      rw [ho.filledQuantity]
      exact add_nonneg x.requested_pos.le (by norm_num [fillTolerance])
    · exact h.bounds k x hx
  quantity := by
    intro k x hx
    rcases ExecutionLedger.get?_put_cases hx with ⟨rfl, rfl⟩ | ⟨-, hx⟩
    · exact ho.filledQuantity.trans (h.total_of_absent hnone _).symm
    · exact h.quantity k x hx
  notional := by
    intro k x hx
    rcases ExecutionLedger.get?_put_cases hx with ⟨rfl, rfl⟩ | ⟨-, hx⟩
    · have hzero : x.filledNotional = 0 := by
        unfold ExecutionOrder.filledNotional
        rw [ho.filledQuantity, mul_zero]
      rw [hzero]
      exact (h.total_of_absent hnone fun fill => fill.priceUsd * fill.quantity).symm
    · exact h.notional k x hx
  fees := by
    intro k x hx
    rcases ExecutionLedger.get?_put_cases hx with ⟨rfl, rfl⟩ | ⟨-, hx⟩
    · exact ho.feesPaidUsd.trans (h.total_of_absent hnone _).symm
    · exact h.fees k x hx
  once := h.once
  processed := h.processed
  stored := fun e he => ExecutionLedger.get?_put_ne_none (h.stored e he)
  closing := by
    intro k x hx hne
    rcases ExecutionLedger.get?_put_cases hx with ⟨rfl, rfl⟩ | ⟨-, hx⟩
    · exact absurd ho.filledQuantity hne
    · exact h.closing k x hx hne
  complete := by
    intro e he hleft x hx
    rcases ExecutionLedger.get?_put_cases hx with ⟨hk, rfl⟩ | ⟨-, hx⟩
    · exact absurd hnone (by rw [← hk]; exact h.stored e he)
    · exact h.complete e he hleft x hx

/-- What the fills add up to, with one more. -/
theorem total_append (t : Logged) (l : ExecutionLedger) (e : Recorded) (k : String)
    (amount : ExecutionFill → ℚ) :
    Logged.total ⟨l, t.fills ++ [e]⟩ k amount
      = t.total k amount + if e.key = k then amount e.fill else 0 := by
  unfold Logged.total
  rw [List.filter_append, List.map_append, List.sum_append]
  by_cases hk : e.key = k
  · simp [hk]
  · simp [hk]

theorem filledNotional_withFill (o : ExecutionOrder) (fill : ExecutionFill) (now : Time) :
    (o.withFill fill now).filledNotional = o.filledNotional + fill.priceUsd * fill.quantity := by
  have hpos : 0 < o.filledQuantity + fill.quantity :=
    add_pos_of_nonneg_of_pos o.filled_nonneg fill.quantity_pos
  show (o.filledNotional + fill.priceUsd * fill.quantity) / (o.filledQuantity + fill.quantity)
    * (o.filledQuantity + fill.quantity) = _
  exact div_mul_cancel₀ _ hpos.ne'

/-- **A recorded fill** is counted once, on its order. -/
theorem record (h : Sound t) (hacc : ExecutionLedger.Accepts t.ledger fill o) :
    Sound ⟨(t.ledger.put (o.withFill fill now)).markProcessed fill.fillId,
      t.fills ++ [⟨o.orderId, fill, some (o.stateAfterFill fill.quantity)⟩]⟩ := by
  have hget := ExecutionLedger.get?_of_findOrder hacc.found
  have hforward : o.state.Forward (o.stateAfterFill fill.quantity) :=
    OrderLifecycleState.isLegalTransition_iff.mp hacc.legal
  have hother : ∀ {k}, k ≠ o.orderId → ∀ amount, Logged.total
      ⟨(t.ledger.put (o.withFill fill now)).markProcessed fill.fillId,
        t.fills ++ [⟨o.orderId, fill, some (o.stateAfterFill fill.quantity)⟩]⟩ k amount
      = t.total k amount := by
    intro k hk amount
    rw [total_append, if_neg (Ne.symm hk), add_zero]
  have hthis : ∀ amount, Logged.total
      ⟨(t.ledger.put (o.withFill fill now)).markProcessed fill.fillId,
        t.fills ++ [⟨o.orderId, fill, some (o.stateAfterFill fill.quantity)⟩]⟩ o.orderId amount
      = t.total o.orderId amount + amount fill := by
    intro amount
    rw [total_append, if_pos rfl]
  refine ⟨?_, ?_, ?_, ?_, ?_, ?_, ?_, ?_, ?_⟩
  · intro k x hx
    rcases ExecutionLedger.get?_recorded hx with ⟨hx, -⟩ | ⟨rfl, rfl⟩
    · exact h.bounds k x hx
    · exact ⟨(o.withFill fill now).filled_nonneg, hacc.fits⟩
  · intro k x hx
    rcases ExecutionLedger.get?_recorded hx with ⟨hx, hk⟩ | ⟨rfl, rfl⟩
    · rw [hother hk]
      exact h.quantity k x hx
    · rw [hthis, ← h.quantity _ _ hget]
      rfl
  · intro k x hx
    rcases ExecutionLedger.get?_recorded hx with ⟨hx, hk⟩ | ⟨rfl, rfl⟩
    · rw [hother hk]
      exact h.notional k x hx
    · rw [hthis, ← h.notional _ _ hget]
      exact filledNotional_withFill o fill now
  · intro k x hx
    rcases ExecutionLedger.get?_recorded hx with ⟨hx, hk⟩ | ⟨rfl, rfl⟩
    · rw [hother hk]
      exact h.fees k x hx
    · rw [hthis, ← h.fees _ _ hget]
      rfl
  · -- its id is fresh
    rw [List.map_append, List.nodup_append]
    refine ⟨h.once, List.nodup_singleton _, ?_⟩
    intro id hid id' hid' heq
    obtain ⟨e, he, rfl⟩ := List.mem_map.mp hid
    have hsame : id' = fill.fillId := by simpa using hid'
    rw [hsame] at heq
    exact hacc.fresh ((h.processed _).mpr ⟨e, he, heq⟩)
  · intro id
    rw [ExecutionLedger.mem_processed_markProcessed, ExecutionLedger.processed_put, h.processed]
    constructor
    · rintro (rfl | ⟨e, he, hid⟩)
      · exact ⟨_, List.mem_append_right _ (List.mem_singleton_self _), rfl⟩
      · exact ⟨e, List.mem_append_left _ he, hid⟩
    · rintro ⟨e, he, hid⟩
      rcases List.mem_append.mp he with he | he
      · exact .inr ⟨e, he, hid⟩
      · cases List.mem_singleton.mp he
        exact .inl hid.symm
  · intro e he
    rw [ExecutionLedger.orders_markProcessed]
    refine ExecutionLedger.get?_put_ne_none ?_
    rcases List.mem_append.mp he with he | he
    · exact h.stored e he
    · cases List.mem_singleton.mp he
      rw [hget]
      exact nofun
  · intro k x hx hne
    rcases ExecutionLedger.get?_recorded hx with ⟨hx, -⟩ | ⟨rfl, rfl⟩
    · exact h.closing k x hx hne
    · show o.stateAfterFill fill.quantity = _ ∨ (o.stateAfterFill fill.quantity).terminal = true
      unfold ExecutionOrder.stateAfterFill
      split
      · exact .inr rfl
      · exact .inl rfl
  · intro e he hleft x hx
    -- whether the fill that completed the order is this one or an earlier one,
    -- the order ends FILLED, and FILLED by a fill is full
    have hfull : (o.withFill fill now).state = .filled →
        |(o.withFill fill now).filledQuantity - (o.withFill fill now).requestedQuantity|
          ≤ fillTolerance := by
      intro hfilled
      change o.stateAfterFill fill.quantity = .filled at hfilled
      unfold ExecutionOrder.stateAfterFill at hfilled
      split at hfilled
      · assumption
      · cases hfilled
    rcases ExecutionLedger.get?_recorded hx with ⟨hx, hk⟩ | ⟨hk, rfl⟩
    · rcases List.mem_append.mp he with he | he
      · exact h.complete e he hleft x hx
      · cases List.mem_singleton.mp he
        exact absurd rfl hk
    · rcases List.mem_append.mp he with he | he
      · obtain ⟨hfilled, -⟩ := h.complete e he hleft o (by rw [hk]; exact hget)
        have hstays : (o.withFill fill now).state = .filled := by
          refine Eq.trans ?_ hfilled
          exact hforward.eq_of_terminal (by rw [hfilled]; rfl)
        exact ⟨hstays, hfull hstays⟩
      · cases List.mem_singleton.mp he
        have hstays : (o.withFill fill now).state = .filled := Option.some.inj hleft
        exact ⟨hstays, hfull hstays⟩

/-- A call keeps the books in agreement with the fills. -/
theorem effect (h : Sound t) {call : LedgerCall} {ran : Ran ExecutionLedger LedgerError Bool}
    (he : LedgerCall.Effect Touches t.ledger now call ran) : Sound (t.after call ran) := by
  cases he with
  | raised _ e =>
    have hnone : t.after call ⟨.error e, t.ledger, []⟩ = t := by
      cases call <;> simp [Logged.after, Logged.recordedBy]
    rw [hnone]
    exact h
  | rewritten _ l' hto =>
    have hnone : t.after call ⟨.ok false, l', []⟩ = { t with ledger := l' } := by
      cases call <;> simp [Logged.after, Logged.recordedBy]
    rw [hnone]
    exact h.rewritten hto
  | registered o hnone =>
    have hsame : t.after (.registerOrder o) ⟨.ok false, t.ledger.put o.val, []⟩
        = { t with ledger := t.ledger.put o.val } := by
      simp [Logged.after, Logged.recordedBy]
    rw [hsame]
    exact h.register o.property hnone
  | recorded fill o hacc =>
    unfold Logged.after
    rw [Logged.recordedBy_recorded hacc]
    exact h.record hacc

end Sound

namespace Logged

/-- What a run of calls preserves of the books. -/
theorem sound_run (t : Logged) (calls : List (LedgerCall × Time)) (h : Sound t) :
    Sound (run step t calls) := by
  refine run_invariant (I := Sound) ?_ t calls h
  intro t call ht
  exact ht.effect (LedgerCall.perform_effect (LedgerCall.allows_touches t.ledger call.2 call.1))

/-- No run of calls moves an order back. -/
theorem onward_run (t : Logged) (calls : List (LedgerCall × Time)) :
    Onward t.ledger (run step t calls).ledger := by
  induction calls generalizing t with
  | nil => exact .refl t.ledger
  | cons call calls ih =>
    have hstep :=
      (LedgerCall.perform_effect (LedgerCall.allows_touches t.ledger call.2 call.1)).onward
    exact hstep.trans (ih (t.step call))

/-- **The life of an order**, after any calls on a ledger that starts empty: its
books agree with the fills it recorded; whatever is called next, no order moves
back and a terminal one stays as it is; and a call that raises changes nothing. -/
theorem lifecycle (pre post : List (LedgerCall × Time)) :
    Sound (run step start pre) ∧
      (∀ k o, (run step start pre).ledger.orders.get? k = some o →
        ∃ o', (run step start (pre ++ post)).ledger.orders.get? k = some o' ∧
          o.state.Forward o'.state ∧ (o.state.terminal = true → o'.state = o.state)) ∧
      ∀ (call : LedgerCall) (now : Time) (e : LedgerError),
        (call.perform now (run step start pre).ledger).exit = .error e →
          (call.perform now (run step start pre).ledger).world = (run step start pre).ledger := by
  refine ⟨sound_run start pre .start, ?_, ?_⟩
  · intro k o hk
    rw [run_append]
    obtain ⟨o', hk', hforward⟩ := onward_run (run step start pre) post k o hk
    exact ⟨o', hk', hforward, hforward.eq_of_terminal⟩
  · intro call now e he
    have heffect := LedgerCall.perform_effect
      (LedgerCall.allows_touches (run step start pre).ledger now call)
    generalize call.perform now (run step start pre).ledger = ran at heffect he ⊢
    cases heffect with
    | raised _ _ => rfl
    | rewritten _ _ _ => cases he
    | registered _ _ => cases he
    | recorded _ _ _ => cases he

end Logged

/-! ## A submission is a sequence of calls -/

/-- The ledger after a call. -/
def called (l : ExecutionLedger) (call : LedgerCall × Time) : ExecutionLedger :=
  (call.1.perform call.2 l).world

/-- Some calls lead from one ledger to the other. -/
def Reaches (l l' : ExecutionLedger) : Prop := ∃ calls, run called l calls = l'

theorem ledger_run (t : Logged) (calls : List (LedgerCall × Time)) :
    (run Logged.step t calls).ledger = run called t.ledger calls := by
  induction calls generalizing t with
  | nil => rfl
  | cons call calls ih => exact ih (t.step call)

theorem Reaches.step {l l' : ExecutionLedger} (h : Reaches l l') (call : LedgerCall) (now : Time) :
    Reaches l (call.perform now l').world := by
  obtain ⟨calls, rfl⟩ := h
  exact ⟨calls ++ [(call, now)], run_append _ _ _⟩

namespace LedgerCall

variable {l : ExecutionLedger} {o : ExecutionOrder} {now : Time}

/-- A write to a stored order. -/
theorem onOrder_eq {f : ExecutionOrder → ExecutionOrder}
    (hget : l.orders.get? o.orderId = some o) :
    onOrder o.orderId f l = ⟨.ok ⟨⟩, l.put (f o), []⟩ := by
  unfold onOrder
  rw [Proc.get_bind_apply, hget]
  rfl

theorem perform_attempt (now : Time) (hget : l.orders.get? o.orderId = some o) :
    (perform (.attempt o.orderId) now l).world
      = l.put { o with submissionAttempts := o.submissionAttempts + 1 } :=
  congrArg Ran.world (Proc.bind_of_returned (onOrder_eq hget))

theorem perform_receive (now : Time) (hget : l.orders.get? o.orderId = some o) (id : String) :
    (perform (.receive o.orderId id) now l).world = l.put { o with venueOrderId := some id } :=
  congrArg Ran.world (Proc.bind_of_returned (onOrder_eq hget))

theorem perform_replan (now : Time) (hget : l.orders.get? o.orderId = some o) (q : ℚ) (hq : 0 < q) :
    (perform (.replan o.orderId ⟨q, hq⟩) now l).world
      = l.put (if o.state = .submissionUncertain then
          { o with requestedQuantity := q, requested_pos := hq } else o) :=
  congrArg Ran.world (Proc.bind_of_returned (onOrder_eq hget))

theorem perform_transition (hget : l.orders.get? o.orderId = some o)
    {state : OrderLifecycleState} (hlegal : o.state.isLegalTransition state = true)
    (reason : Option Reason) :
    (perform (.transition o.orderId state reason) now l).world
      = l.put { o with state := state, lastUpdatedAt := now, reason := reason } := by
  have hfind : l.findOrder o.orderId = some o := by
    unfold ExecutionLedger.findOrder
    rw [hget]
  have hupdate : InPlace.updateOrderState o.orderId state now l
      = ⟨.ok ⟨⟩, l.put { o with state := state, lastUpdatedAt := now }, []⟩ := by
    rw [InPlace.updateOrderState_eq]
    unfold ExecutionLedger.updateOrderState ExecutionOrder.transition
    rw [hfind]
    dsimp only
    rw [if_pos hlegal]
    rfl
  have hstored : (l.put { o with state := state, lastUpdatedAt := now }).orders.get? o.orderId
      = some { o with state := state, lastUpdatedAt := now } := by
    rw [ExecutionLedger.get?_put, if_pos rfl]
  have hwrite := @onOrder_eq (l.put { o with state := state, lastUpdatedAt := now })
    { o with state := state, lastUpdatedAt := now } (fun o => { o with reason := reason }) hstored
  have hput := @InPlace.put_put l { o with state := state, lastUpdatedAt := now }
    { o with state := state, lastUpdatedAt := now, reason := reason } rfl
  rw [← hput]
  have hran : perform (.transition o.orderId state reason) now l = ⟨.ok false, _, []⟩ :=
    (Proc.bind_of_returned hupdate).trans (Proc.bind_of_returned hwrite)
  exact congrArg Ran.world hran

end LedgerCall

variable {l₀ l : ExecutionLedger} {o o' : ExecutionOrder}

/-- A ledger that calls lead to from the empty one is one a logged run ends in. -/
theorem Reaches.logged (h : Reaches .empty l) :
    ∃ calls, (run Logged.step .start calls).ledger = l := by
  obtain ⟨calls, rfl⟩ := h
  exact ⟨calls, ledger_run .start calls⟩

/-- Every write of a submission to an order it holds is a call, or two. -/
theorem Reaches.amended (h : Reaches l₀ l) (hget : l.orders.get? o.orderId = some o)
    (ha : Amendment o o') : Reaches l₀ (l.put o') := by
  cases ha with
  | same =>
    -- re-planning at the planned quantity writes the order as it is
    have hwrite := LedgerCall.perform_replan 0 hget o.requestedQuantity o.requested_pos
    have hsame : (if o.state = .submissionUncertain then
        { o with requestedQuantity := o.requestedQuantity, requested_pos := o.requested_pos }
        else o) = o := by
      split <;> rfl
    rw [hsame] at hwrite
    rw [← hwrite]
    exact h.step _ 0
  | attempted =>
    rw [← LedgerCall.perform_attempt 0 hget]
    exact h.step _ 0
  | settled state now reason hlegal =>
    rw [← LedgerCall.perform_transition hget hlegal reason]
    exact h.step _ now
  | replanned q hq huncertain =>
    have hwrite := LedgerCall.perform_replan 0 hget q hq
    rw [if_pos huncertain] at hwrite
    rw [← hwrite]
    exact h.step _ 0
  | received id now hwaiting =>
    have hreceived := h.step (.receive o.orderId id) 0
    rw [LedgerCall.perform_receive 0 hget] at hreceived
    have hstored : (l.put { o with venueOrderId := some id }).orders.get? o.orderId
        = some { o with venueOrderId := some id } := by
      rw [ExecutionLedger.get?_put, if_pos rfl]
    have hlegal : o.state.isLegalTransition .submitted = true := by
      rcases hwaiting with hw | hw <;> rw [hw] <;> rfl
    have hwrite := @LedgerCall.perform_transition (l.put { o with venueOrderId := some id })
      { o with venueOrderId := some id } now hstored .submitted hlegal none
    have hput := @InPlace.put_put l { o with venueOrderId := some id }
      { o with
        venueOrderId := some id, state := .submitted, lastUpdatedAt := now, reason := none } rfl
    rw [← hput, ← hwrite]
    exact hreceived.step _ now

/-- Registering a planned order is a call. -/
theorem Reaches.registered (h : Reaches l₀ l) (plan : ExecutionPlan) (now : Time)
    (hnone : l.orders.get? plan.clientOrderId = none) :
    Reaches l₀ (l.put (PaperFillSimulator.plannedOrder plan now)) := by
  have hreg : l.registerOrder (PaperFillSimulator.plannedOrder plan now)
      = .ok (l.put (PaperFillSimulator.plannedOrder plan now)) := by
    unfold ExecutionLedger.registerOrder
    have hkey : l.orders.get? (PaperFillSimulator.plannedOrder plan now).orderId = none := hnone
    rw [hkey]
  have hran := InPlace.registerOrder_eq (PaperFillSimulator.plannedOrder plan now) l
  rw [hreg] at hran
  have hcall : LedgerCall.perform
      (.registerOrder ⟨PaperFillSimulator.plannedOrder plan now, ⟨rfl, rfl, rfl⟩⟩) 0 l
      = ⟨.ok false, l.put (PaperFillSimulator.plannedOrder plan now), []⟩ :=
    Proc.bind_of_returned hran
  have hstep := h.step
    (.registerOrder ⟨PaperFillSimulator.plannedOrder plan now, ⟨rfl, rfl, rfl⟩⟩) 0
  rw [hcall] at hstep
  exact hstep

/-- **A submission is a sequence of ledger calls**: where it ends, where it
raises and wherever it can crash, calls lead from the ledger it started from to
the one it left. -/
theorem triple_submit_reaches (s : IdempotentSubmitter) (env : VenueEnv) (c : SubmitCall) :
    Proc.Triple (fun w => Reaches l₀ w.ledger) (s.submit env c) (fun _ w => Reaches l₀ w.ledger)
      (fun _ w => Reaches l₀ w.ledger) fun w => Reaches l₀ w.ledger := by
  refine IdempotentSubmitter.triple_submit_of_invariant
    (J := fun _ _ w => Reaches l₀ w.ledger) ⟨?_, ?_, ?_, ?_, ?_, ?_, ?_⟩
  · exact fun w h => h
  · exact fun w o o' h hget ha _ _ => h.amended hget ha.how
  · exact fun w plan now h _ hnone _ => h.registered plan now hnone
  · exact fun w o req h _ _ _ _ => ⟨h, fun _ _ => h⟩
  · exact fun w o id now h hget hwaiting => h.amended hget (.received id now hwaiting)
  · exact fun w h => h
  · exact fun w o now rows row h hget huncertain _ _ _ =>
      h.amended hget (amends_adopted huncertain now).how

end TraderStack
