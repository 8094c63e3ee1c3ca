import TraderStack.Execution.Planner

/-!
# The execution ledger (ledger.py)

Orders with their lifecycle, and the set of fill ids already processed. The
ledger is the idempotency record of the system: a fill id in the set is never
booked again.

Orders are stored under their own id; `keyed` carries that, and every mutation
goes through `put`, so an order mutated in place keeps its key. A raising
operation leaves the ledger as it was: `record_fill` rejects a fill before it
mutates anything.
-/

namespace TraderStack

open Lib

/-- Where a fill's fee came from (ledger.py:12–23). -/
inductive FeeSource where
  | venue
  | modelled
  | mixed
deriving DecidableEq, Repr

/-- `OrderLifecycleState` (ledger.py:26–45). -/
inductive OrderLifecycleState where
  | planned
  | submitted
  | submissionUncertain
  | acknowledged
  | «open»
  | partiallyFilled
  | filled
  | cancelled
  | rejected
  | expired
deriving DecidableEq, Repr

namespace OrderLifecycleState

/-- `TERMINAL_ORDER_STATES` (ledger.py:48–55). -/
def terminal : OrderLifecycleState → Bool
  | filled | cancelled | rejected | expired => true
  | _ => false

/-- `_CLOSING_STATES` (ledger.py:57–65). -/
def closingStates : List OrderLifecycleState :=
  [partiallyFilled, filled, cancelled, rejected, expired]

/-- `_ALLOWED_TRANSITIONS` (ledger.py:71–113). -/
def allowedTransitions : OrderLifecycleState → List OrderLifecycleState
  | planned => [submitted, submissionUncertain, acknowledged, «open»] ++ closingStates
  | submitted => [submissionUncertain, acknowledged, «open»] ++ closingStates
  | submissionUncertain => [submitted, acknowledged, «open»] ++ closingStates
  | acknowledged => [«open»] ++ closingStates
  | «open» => closingStates
  | partiallyFilled => [filled, cancelled, rejected, expired]
  | filled => []
  | cancelled => []
  | rejected => []
  | expired => []

/-- `is_legal_transition` (ledger.py:133–136). -/
def isLegalTransition (current requested : OrderLifecycleState) : Bool :=
  current = requested || (allowedTransitions current).contains requested

/-- A terminal state has no way out but itself. -/
theorem eq_of_legal_of_terminal {s t : OrderLifecycleState} (hs : s.terminal = true)
    (h : isLegalTransition s t = true) : s = t := by
  revert hs h
  cases s <;> cases t <;> decide

end OrderLifecycleState

/-- Why a venue request was refused by a hard safety boundary
(hummingbot.py, `ExecutionSafetyError`). -/
inductive SafetyError where
  | outsidePaperMode
  | notPaperConnector
  | nonPositivePrice
  | venueMismatch
  | nonPositiveQuantity
  | malformedResponse
deriving DecidableEq, Repr

/-- The reason stored with an order or an outcome, with the values its text
quotes. -/
inductive Reason where
  | planRejected (r : PlanRejection)
  | safety (e : SafetyError)
  | http (statusCode : ℕ)
  | timedOut (timeoutSeconds : ℚ)
  | transport
  | unknown
  | duplicateDecision (decisionId : String)
  | noReconciler (base : Reason)
  | reconciliationFailed (base : Reason)
  | venueConfirmed
  | venueKnows
  | exhausted (base : Reason) (attempts : ℕ)
  | nonPositiveMid
  | alreadyTerminal (decisionId : String) (state : OrderLifecycleState)
  | alreadyFilled (decisionId : String)
  | alreadyBooked (fillId : String)
  | shortSale (quantity : ℚ) (asset : String) (available : ℚ)
deriving DecidableEq

/-- A fill (ledger.py:139–156). -/
@[ext]
structure ExecutionFill where
  fillId : String
  orderId : String
  asset : String
  side : Side
  quantity : ℚ
  priceUsd : ℚ
  feeUsd : ℚ
  feeSource : FeeSource
  quantity_pos : 0 < quantity
  price_pos : 0 < priceUsd
  fee_nonneg : 0 ≤ feeUsd

/-- Fills compare field by field. -/
instance : DecidableEq ExecutionFill := fun _ _ => decidable_of_iff' _ ExecutionFill.ext_iff

/-- An order of the ledger (ledger.py:159–185). -/
@[ext]
structure ExecutionOrder where
  orderId : String
  decisionId : String
  asset : String
  side : Side
  requestedQuantity : ℚ
  state : OrderLifecycleState
  filledQuantity : ℚ
  averageFillPriceUsd : Option ℚ
  lastUpdatedAt : Time
  clientOrderId : Option String
  venueOrderId : Option String
  submissionAttempts : ℕ
  reason : Option Reason
  feesPaidUsd : ℚ
  feeSource : Option FeeSource
  requested_pos : 0 < requestedQuantity
  filled_nonneg : 0 ≤ filledQuantity
  averageFill_pos : ∀ x ∈ averageFillPriceUsd, 0 < x
  feesPaid_nonneg : 0 ≤ feesPaidUsd

/-- Orders compare field by field. -/
instance : DecidableEq ExecutionOrder := fun _ _ => decidable_of_iff' _ ExecutionOrder.ext_iff

/-- Why a ledger operation raised. -/
inductive LedgerError where
  | illegalTransition (orderId : String) (current requested : OrderLifecycleState)
  | orphanFill (fillId orderId : String)
  | mismatchedFill (fillId orderId : String)
  | overfill (fillId orderId : String)
  | unknownOrder (orderId : String)
  | conflictingOrder (orderId : String)
deriving DecidableEq, Repr

/-- The tolerance of the quantity checks, `1e-12`. -/
def fillTolerance : ℚ := 1 / 10 ^ 12

theorem fillTolerance_nonneg : 0 ≤ fillTolerance := by norm_num [fillTolerance]

namespace ExecutionOrder

/-- `_transition` (ledger.py:271–276). -/
def transition (o : ExecutionOrder) (state : OrderLifecycleState) (now : Time) :
    Except LedgerError ExecutionOrder :=
  if o.state.isLegalTransition state then .ok { o with state := state, lastUpdatedAt := now }
  else .error (.illegalTransition o.orderId o.state state)

/-- Does the identifier name this order as venue or client order id? -/
def answersTo (identifier : String) (o : ExecutionOrder) : Bool :=
  o.venueOrderId = some identifier || o.clientOrderId = some identifier

/-- `average_fill_price_usd or 0.0`, times the filled quantity. -/
def filledNotional (o : ExecutionOrder) : ℚ :=
  o.averageFillPriceUsd.getD 0 * o.filledQuantity

/-- The state a fill moves the order to (ledger.py:248–252). -/
def stateAfterFill (o : ExecutionOrder) (quantity : ℚ) : OrderLifecycleState :=
  if |o.filledQuantity + quantity - o.requestedQuantity| ≤ fillTolerance then .filled
  else .partiallyFilled

/-- The order-level fee source after a fill (ledger.py:263–266). -/
def feeSourceAfter (o : ExecutionOrder) (source : FeeSource) : FeeSource :=
  match o.feeSource with
  | none => source
  | some old => if old = source then old else .mixed

theorem filledNotional_nonneg (o : ExecutionOrder) : 0 ≤ o.filledNotional := by
  refine mul_nonneg ?_ o.filled_nonneg
  cases h : o.averageFillPriceUsd with
  | none => exact le_rfl
  | some x => exact (o.averageFill_pos x h).le

/-- The order after a fill it accepts (ledger.py:254–267). -/
def withFill (o : ExecutionOrder) (fill : ExecutionFill) (now : Time) : ExecutionOrder :=
  { o with
    state := o.stateAfterFill fill.quantity
    filledQuantity := o.filledQuantity + fill.quantity
    averageFillPriceUsd := some
      ((o.filledNotional + fill.priceUsd * fill.quantity) / (o.filledQuantity + fill.quantity))
    feesPaidUsd := o.feesPaidUsd + fill.feeUsd
    feeSource := some (o.feeSourceAfter fill.feeSource)
    lastUpdatedAt := now
    filled_nonneg := add_nonneg o.filled_nonneg fill.quantity_pos.le
    averageFill_pos := by
      rintro x ⟨⟩
      have hnum := add_pos_of_nonneg_of_pos o.filledNotional_nonneg
        (mul_pos fill.price_pos fill.quantity_pos)
      exact div_pos hnum (add_pos_of_nonneg_of_pos o.filled_nonneg fill.quantity_pos)
    feesPaid_nonneg := add_nonneg o.feesPaid_nonneg fill.fee_nonneg }

@[simp] theorem withFill_orderId (o : ExecutionOrder) (fill : ExecutionFill) (now : Time) :
    (o.withFill fill now).orderId = o.orderId := rfl

end ExecutionOrder

/-- `ExecutionLedger` (ledger.py:195–212). Its persisted form is the same data:
`from_state` of `state` is the ledger again. -/
structure ExecutionLedger where
  orders : Dict String ExecutionOrder
  processedFillIds : Finset String
  keyed : ∀ k o, orders.get? k = some o → o.orderId = k

namespace ExecutionLedger

/-- `ExecutionLedger()`. -/
def empty : ExecutionLedger where
  orders := Dict.empty
  processedFillIds := ∅
  keyed := by
    intro k o h
    simp at h

/-- Store an order under its own id: registration, and every mutation in place. -/
def put (l : ExecutionLedger) (o : ExecutionOrder) : ExecutionLedger where
  orders := l.orders.set o.orderId o
  processedFillIds := l.processedFillIds
  keyed := by
    intro k o' h
    rw [Dict.get?_set] at h
    split at h
    · rename_i hk
      cases h
      exact hk.symm
    · exact l.keyed k o' h

/-- `processed_fill_ids.add`. -/
def markProcessed (l : ExecutionLedger) (fillId : String) : ExecutionLedger :=
  { l with processedFillIds := insert fillId l.processedFillIds }

/-- `register_order` (ledger.py:208–212). -/
def registerOrder (l : ExecutionLedger) (o : ExecutionOrder) : Except LedgerError ExecutionLedger :=
  match l.orders.get? o.orderId with
  | some existing =>
    if existing ≠ o then .error (.conflictingOrder o.orderId) else .ok (l.put o)
  | none => .ok (l.put o)

/-- `find_order` (ledger.py:214–223): by key, else the first order, in insertion
order, with this venue or client order id. -/
def findOrder (l : ExecutionLedger) (identifier : String) : Option ExecutionOrder :=
  match l.orders.get? identifier with
  | some o => some o
  | none => (l.orders.find? (ExecutionOrder.answersTo identifier)).map Prod.snd

/-- `orders_for_decision` (ledger.py:225–226). -/
def ordersForDecision (l : ExecutionLedger) (decisionId : String) : List ExecutionOrder :=
  l.orders.values.filter fun o => o.decisionId = decisionId

/-- `has_order_for_decision` (ledger.py:228–229). -/
def hasOrderForDecision (l : ExecutionLedger) (decisionId : String) : Bool :=
  l.orders.values.any fun o => o.decisionId = decisionId

/-- `update_order_state` (ledger.py:231–235). -/
def updateOrderState (l : ExecutionLedger) (orderId : String) (state : OrderLifecycleState)
    (now : Time) : Except LedgerError ExecutionLedger :=
  match l.findOrder orderId with
  | none => .error (.unknownOrder orderId)
  | some o => (o.transition state now).map l.put

/-- `record_fill` (ledger.py:243–269): whether the fill was new, and the ledger. -/
def recordFill (l : ExecutionLedger) (fill : ExecutionFill) (now : Time) :
    Except LedgerError (Bool × ExecutionLedger) :=
  if fill.fillId ∈ l.processedFillIds then .ok (false, l)
  else
    match l.findOrder fill.orderId with
    | none => .error (.orphanFill fill.fillId fill.orderId)
    | some o =>
      if Text.upper fill.asset ≠ Text.upper o.asset ∨ fill.side ≠ o.side then
        .error (.mismatchedFill fill.fillId fill.orderId)
      else if o.requestedQuantity + fillTolerance < o.filledQuantity + fill.quantity then
        .error (.overfill fill.fillId fill.orderId)
      else if o.state.isLegalTransition (o.stateAfterFill fill.quantity) then
        .ok (true, (l.put (o.withFill fill now)).markProcessed fill.fillId)
      else .error (.illegalTransition o.orderId o.state (o.stateAfterFill fill.quantity))

variable {l l' : ExecutionLedger} {fill : ExecutionFill} {now : Time}

/-! ## Lookup -/

theorem orders_put (o : ExecutionOrder) : (l.put o).orders = l.orders.set o.orderId o := rfl

@[simp] theorem processed_put (o : ExecutionOrder) :
    (l.put o).processedFillIds = l.processedFillIds := rfl

@[simp] theorem orders_markProcessed (id : String) : (l.markProcessed id).orders = l.orders := rfl

theorem get?_put (o : ExecutionOrder) (k : String) :
    (l.put o).orders.get? k = if k = o.orderId then some o else l.orders.get? k :=
  Dict.get?_set _ _ _ _

/-- What the ledger holds after storing an order. -/
theorem get?_put_cases {o x : ExecutionOrder} {k : String}
    (h : (l.put o).orders.get? k = some x) :
    (k = o.orderId ∧ x = o) ∨ (k ≠ o.orderId ∧ l.orders.get? k = some x) := by
  rw [get?_put] at h
  split at h
  · rename_i hk
    exact .inl ⟨hk, (Option.some.inj h).symm⟩
  · rename_i hk
    exact .inr ⟨hk, h⟩

/-- Storing an order as it is stored. -/
theorem put_of_get? {o : ExecutionOrder} (h : l.orders.get? o.orderId = some o) :
    l.put o = l := by
  have horders := Dict.set_of_get? h
  unfold put
  congr

theorem get?_put_ne_none {o : ExecutionOrder} {k : String} (h : l.orders.get? k ≠ none) :
    (l.put o).orders.get? k ≠ none := by
  rw [get?_put]
  split
  · exact nofun
  · exact h

theorem mem_processed_markProcessed {id x : String} :
    x ∈ (l.markProcessed id).processedFillIds ↔ x = id ∨ x ∈ l.processedFillIds :=
  Finset.mem_insert

/-- What a recorded fill leaves under each key. -/
theorem get?_recorded {o x : ExecutionOrder} {k : String}
    (h : ((l.put (o.withFill fill now)).markProcessed fill.fillId).orders.get? k = some x) :
    l.orders.get? k = some x ∧ k ≠ o.orderId ∨ (k = o.orderId ∧ x = o.withFill fill now) := by
  rw [orders_markProcessed] at h
  rcases get?_put_cases h with ⟨hk, hx⟩ | ⟨hk, hx⟩
  · exact .inr ⟨hk, hx⟩
  · exact .inl ⟨hx, hk⟩

/-- What a lookup finds is stored under its own id. -/
theorem get?_of_findOrder {identifier : String} {o : ExecutionOrder}
    (h : l.findOrder identifier = some o) : l.orders.get? o.orderId = some o := by
  unfold findOrder at h
  split at h
  · rename_i o' hget
    cases h
    rw [l.keyed _ _ hget, hget]
  · rw [Option.map_eq_some_iff] at h
    obtain ⟨⟨k, o'⟩, hfind, rfl⟩ := h
    have hget := (Dict.get?_of_find? hfind).1
    show l.orders.get? o'.orderId = some o'
    rw [l.keyed _ _ hget, hget]

/-- A lookup finds an order whose id, venue id or client id is the identifier. -/
theorem names_of_findOrder {identifier : String} {o : ExecutionOrder}
    (h : l.findOrder identifier = some o) :
    o.orderId = identifier ∨ o.answersTo identifier = true := by
  unfold findOrder at h
  split at h
  · rename_i o' hget
    cases h
    exact .inl (l.keyed _ _ hget)
  · rw [Option.map_eq_some_iff] at h
    obtain ⟨⟨k, o'⟩, hfind, rfl⟩ := h
    exact .inr (Dict.get?_of_find? hfind).2

theorem findOrder_eq_none_iff {identifier : String} :
    l.findOrder identifier = none ↔
      ∀ k o, l.orders.get? k = some o → k ≠ identifier ∧ o.answersTo identifier = false := by
  unfold findOrder
  constructor
  · intro h
    split at h
    · cases h
    · rename_i hget
      rw [Option.map_eq_none_iff, Dict.find?_eq_none_iff] at h
      intro k o hk
      refine ⟨?_, h k o hk⟩
      rintro rfl
      rw [hget] at hk
      cases hk
  · intro h
    cases hget : l.orders.get? identifier with
    | some o => exact absurd rfl (h identifier o hget).1
    | none =>
      rw [Option.map_eq_none_iff, Dict.find?_eq_none_iff]
      exact fun k o hk => (h k o hk).2

/-- Storing an order again under the same names moves no lookup but its own. -/
theorem findOrder_put {o o' : ExecutionOrder} (hget : l.orders.get? o.orderId = some o)
    (hid : o'.orderId = o.orderId)
    (hnames : ∀ identifier, o'.answersTo identifier = o.answersTo identifier)
    (identifier : String) :
    (l.put o').findOrder identifier
      = (l.findOrder identifier).map fun x => if x.orderId = o.orderId then o' else x := by
  unfold findOrder
  rw [get?_put, hid]
  by_cases hkey : identifier = o.orderId
  · subst hkey
    rw [if_pos rfl, hget]
    simp
  rw [if_neg hkey]
  cases hother : l.orders.get? identifier with
  | some x =>
    have hx : x.orderId ≠ o.orderId := by
      rw [l.keyed _ _ hother]
      exact hkey
    simp [hx]
  | none =>
    dsimp only
    rw [orders_put, hid, Dict.find?_set hget (hnames identifier), Option.map_map, Option.map_map]
    cases hfind : l.orders.find? (ExecutionOrder.answersTo identifier) with
    | none => rfl
    | some e =>
      have he : e.2.orderId = e.1 := l.keyed _ _ (Dict.get?_of_find? hfind).1
      simp only [Option.map_some, Function.comp_apply, he]
      split <;> rfl

theorem mem_ordersForDecision {decisionId : String} {o : ExecutionOrder} :
    o ∈ l.ordersForDecision decisionId ↔
      l.orders.get? o.orderId = some o ∧ o.decisionId = decisionId := by
  rw [ordersForDecision, List.mem_filter, Dict.mem_values_iff, decide_eq_true_eq]
  constructor
  · rintro ⟨⟨k, hk⟩, hd⟩
    refine ⟨?_, hd⟩
    rw [l.keyed _ _ hk, hk]
  · rintro ⟨hk, hd⟩
    exact ⟨⟨_, hk⟩, hd⟩

theorem hasOrderForDecision_iff {decisionId : String} :
    l.hasOrderForDecision decisionId = true ↔
      ∃ k o, l.orders.get? k = some o ∧ o.decisionId = decisionId := by
  rw [hasOrderForDecision, List.any_eq_true]
  constructor
  · rintro ⟨o, ho, hd⟩
    obtain ⟨k, hk⟩ := Dict.mem_values_iff.mp ho
    exact ⟨k, o, hk, by simpa using hd⟩
  · rintro ⟨k, o, hk, hd⟩
    exact ⟨o, Dict.mem_values_iff.mpr ⟨k, hk⟩, by simpa using hd⟩

/-! ## What the operations do -/

theorem transition_cases {o : ExecutionOrder} {state : OrderLifecycleState}
    {r : Except LedgerError ExecutionOrder} (h : o.transition state now = r) :
    (o.state.isLegalTransition state = true ∧
      r = .ok { o with state := state, lastUpdatedAt := now }) ∨
    (o.state.isLegalTransition state = false ∧
      r = .error (.illegalTransition o.orderId o.state state)) := by
  unfold ExecutionOrder.transition at h
  split at h
  · rename_i hlegal
    exact .inl ⟨hlegal, h.symm⟩
  · rename_i hlegal
    exact .inr ⟨by simpa using hlegal, h.symm⟩

/-- The order a fill is recorded on, and what had to hold for it. -/
structure Accepts (l : ExecutionLedger) (fill : ExecutionFill) (o : ExecutionOrder) : Prop where
  found : l.findOrder fill.orderId = some o
  fresh : fill.fillId ∉ l.processedFillIds
  asset : Text.upper fill.asset = Text.upper o.asset
  side : fill.side = o.side
  fits : o.filledQuantity + fill.quantity ≤ o.requestedQuantity + fillTolerance
  legal : o.state.isLegalTransition (o.stateAfterFill fill.quantity) = true

/-- **What `record_fill` does**: a known id is a no-op; otherwise the fill is
refused, or the order it names takes it and its id is processed. -/
theorem recordFill_cases {r : Except LedgerError (Bool × ExecutionLedger)}
    (h : l.recordFill fill now = r) :
    (fill.fillId ∈ l.processedFillIds ∧ r = .ok (false, l)) ∨
    (∃ e, r = .error e ∧ fill.fillId ∉ l.processedFillIds) ∨
    (∃ o, Accepts l fill o ∧
      r = .ok (true, (l.put (o.withFill fill now)).markProcessed fill.fillId)) := by
  unfold recordFill at h
  split at h
  · rename_i hmem
    exact .inl ⟨hmem, h.symm⟩
  rename_i hfresh
  split at h
  · exact .inr (.inl ⟨_, h.symm, hfresh⟩)
  rename_i o hfound
  split at h
  · exact .inr (.inl ⟨_, h.symm, hfresh⟩)
  rename_i hmatch
  rw [not_or, not_not, not_not] at hmatch
  split at h
  · exact .inr (.inl ⟨_, h.symm, hfresh⟩)
  rename_i hfits
  split at h
  · rename_i hlegal
    exact .inr (.inr ⟨o, ⟨hfound, hfresh, hmatch.1, hmatch.2, not_lt.mp hfits, hlegal⟩, h.symm⟩)
  · exact .inr (.inl ⟨_, h.symm, hfresh⟩)

/-- An accepted fill is recorded. -/
theorem recordFill_of_accepts {o : ExecutionOrder} (h : Accepts l fill o) :
    l.recordFill fill now
      = .ok (true, (l.put (o.withFill fill now)).markProcessed fill.fillId) := by
  have hmatch : ¬(Text.upper fill.asset ≠ Text.upper o.asset ∨ fill.side ≠ o.side) := by
    rw [not_or, not_not, not_not]
    exact ⟨h.asset, h.side⟩
  unfold recordFill
  rw [if_neg h.fresh, h.found]
  simp only
  rw [if_neg hmatch, if_neg (not_lt.mpr h.fits), if_pos h.legal]

/-- Whether some order accepts a fill is decided by recording it. -/
theorem exists_accepts_iff (now : Time) :
    (∃ o, Accepts l fill o) ↔ (l.recordFill fill now).toOption.any (·.1) = true := by
  have hrecord := recordFill_cases (Eq.refl (l.recordFill fill now))
  rcases hrecord with ⟨hmem, hr⟩ | ⟨e, hr, -⟩ | ⟨o, hacc, hr⟩
  · rw [hr]
    exact ⟨fun ⟨o, ho⟩ => absurd hmem ho.fresh, nofun⟩
  · rw [hr]
    refine ⟨fun ⟨o, ho⟩ => ?_, nofun⟩
    cases hr.symm.trans (recordFill_of_accepts ho)
  · rw [hr]
    exact ⟨fun _ => rfl, fun _ => ⟨o, hacc⟩⟩

instance (l : ExecutionLedger) (fill : ExecutionFill) : Decidable (∃ o, Accepts l fill o) :=
  decidable_of_iff _ (exists_accepts_iff 0).symm

end ExecutionLedger

end TraderStack
