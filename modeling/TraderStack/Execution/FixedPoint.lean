import TraderStack.Execution.Lifecycle
import TraderStack.Execution.Passes

/-!
# Reconciling twice

A pass that completes leaves each of its rows with nothing more to do: a trade
row's fill id is processed, or its order is a local paper fill; an order row's
status is where the order is, or out of its reach. Later rows of the pass keep
it so (`PassedOn`), because a pass only moves orders forward and never to
SUBMISSION_UNCERTAIN. What is left to do for a row with nothing to do is to
stamp its order with the time again.

* `Reconciler.idempotent`: a second pass applies no fill and changes nothing but
  these stamps
-/

namespace TraderStack

open Lib

/-! ## Moving on within a pass -/

namespace OrderLifecycleState

/-- What a pass can make of a state. -/
def Passes (s t : OrderLifecycleState) : Prop :=
  s = t ∨ (s.Forward t ∧ t ≠ .submissionUncertain)

theorem Passes.refl (s : OrderLifecycleState) : s.Passes s := .inl rfl

theorem Passes.forward {s t : OrderLifecycleState} (h : s.Passes t) : s.Forward t := by
  rcases h with rfl | ⟨h, -⟩
  · exact .refl s
  · exact h

theorem Passes.trans {s t u : OrderLifecycleState} (h : s.Passes t) (h' : t.Passes u) :
    s.Passes u := by
  rcases h' with rfl | ⟨h', hu⟩
  · exact h
  · exact .inr ⟨h.forward.trans h', hu⟩

/-- Two different states with a way forward both ways are the two of submission. -/
theorem Forward.antisymm {s t : OrderLifecycleState} (h : s.Forward t) (h' : t.Forward s)
    (hs : s ≠ .submissionUncertain) (ht : t ≠ .submissionUncertain) : s = t := by
  revert h h' hs ht
  unfold Forward
  cases s <;> cases t <;> decide

/-- A pass cannot come back to where it left. -/
theorem Passes.antisymm {s t : OrderLifecycleState} (h : s.Passes t) (h' : t.Passes s) : s = t := by
  rcases h with rfl | ⟨h, ht⟩
  · rfl
  · rcases h' with rfl | ⟨h', hs⟩
    · rfl
    · exact h.antisymm h' hs ht

end OrderLifecycleState

/-- The ledger after some rows of a pass: every lookup finds the order it found,
not moved back, and what was a local paper fill still is. -/
structure PassedOn (l l' : ExecutionLedger) : Prop where
  found : ∀ identifier o, l.findOrder identifier = some o →
    ∃ o', l'.findOrder identifier = some o' ∧ o.state.Passes o'.state ∧
      (isLocalPaperFill o = true → isLocalPaperFill o' = true)
  absent : ∀ identifier, l.findOrder identifier = none → l'.findOrder identifier = none
  processed : l.processedFillIds ⊆ l'.processedFillIds

namespace PassedOn

variable {l l' l'' : ExecutionLedger} {o o' : ExecutionOrder}

theorem refl (l : ExecutionLedger) : PassedOn l l where
  found := fun _ o h => ⟨o, h, .refl _, id⟩
  absent := fun _ h => h
  processed := Finset.Subset.refl _

theorem trans (h : PassedOn l l') (h' : PassedOn l' l'') : PassedOn l l'' where
  found := by
    intro identifier o hfind
    obtain ⟨o', hfind', hpass, hlocal⟩ := h.found identifier o hfind
    obtain ⟨o'', hfind'', hpass', hlocal'⟩ := h'.found identifier o' hfind'
    exact ⟨o'', hfind'', hpass.trans hpass', hlocal' ∘ hlocal⟩
  absent := fun identifier hfind => h'.absent identifier (h.absent identifier hfind)
  processed := h.processed.trans h'.processed

/-- A change of an order that keeps its names, moves it on, and leaves a local
paper fill one. -/
theorem put (hget : l.orders.get? o.orderId = some o) (hid : o'.orderId = o.orderId)
    (hnames : ∀ identifier, o'.answersTo identifier = o.answersTo identifier)
    (hpass : o.state.Passes o'.state)
    (hlocal : isLocalPaperFill o = true → isLocalPaperFill o' = true) :
    PassedOn l (l.put o') where
  found := by
    intro identifier x hfind
    have hput := ExecutionLedger.findOrder_put hget hid hnames identifier
    rw [hfind, Option.map_some] at hput
    by_cases hx : x.orderId = o.orderId
    · have hsame : x = o := by
        have hstored := ExecutionLedger.get?_of_findOrder hfind
        rw [hx, hget] at hstored
        exact (Option.some.inj hstored).symm
      rw [if_pos hx] at hput
      subst hsame
      exact ⟨o', hput, hpass, hlocal⟩
    · rw [if_neg hx] at hput
      exact ⟨x, hput, .refl _, id⟩
  absent := by
    intro identifier hfind
    rw [ExecutionLedger.findOrder_put hget hid hnames, hfind, Option.map_none]
  processed := Finset.Subset.refl _

theorem markProcessed (h : PassedOn l l') (fillId : String) :
    PassedOn l (l'.markProcessed fillId) where
  found := h.found
  absent := h.absent
  processed := h.processed.trans (Finset.subset_insert _ _)

end PassedOn

/-! ## Rows with nothing more to do -/

/-- A trade row whose fill is processed, or that is left alone. -/
def TradeDone (c : Reconciler) (l : ExecutionLedger) (row : Row) : Prop :=
  ∃ r, c.readTrade l row = .ok r ∧ ∀ fill ∈ r, fill.fillId ∈ l.processedFillIds

/-- An order row whose status is where its order is, or out of its reach, or that
is left alone. -/
def OrderDone (l : ExecutionLedger) (row : Row) : Prop :=
  ∃ identifier, row.requiredText ["order_id", "id"] = .ok identifier ∧
    ∀ o, l.findOrder identifier = some o → isLocalPaperFill o = true ∨
      ∀ state, mapState (Text.lower (row.text ["status"])) = some state →
        o.state.isLegalTransition state = true → state = o.state

namespace PassedOn

variable {c : Reconciler} {l l' : ExecutionLedger} {row : Row}

/-- Later rows leave a trade row with nothing to do. -/
theorem tradeDone (h : PassedOn l l') (hdone : TradeDone c l row) : TradeDone c l' row := by
  obtain ⟨r, hread, hprocessed⟩ := hdone
  unfold Reconciler.readTrade at hread
  unfold TradeDone Reconciler.readTrade
  cases hid : row.requiredText ["order_id"] with
  | error e =>
    rw [hid] at hread
    cases hread
  | ok orderId =>
    rw [hid] at hread
    dsimp only at hread ⊢
    -- a fill that was read before is read again, unless its order has become local
    have hagain : ∀ fill, c.tradeFill row orderId = .ok fill → r = some fill →
        ∃ r', (if (l'.findOrder orderId).any isLocalPaperFill then .ok none
          else (c.tradeFill row orderId).map some) = .ok r' ∧
            ∀ fill ∈ r', fill.fillId ∈ l'.processedFillIds := by
      intro fill hfill hr
      by_cases hlocal' : (l'.findOrder orderId).any isLocalPaperFill = true
      · exact ⟨none, if_pos hlocal', nofun⟩
      · refine ⟨some fill, by rw [if_neg hlocal', hfill]; rfl, fun x hx => ?_⟩
        rw [hr] at hprocessed
        exact h.processed (hprocessed x hx)
    by_cases hlocal : (l.findOrder orderId).any isLocalPaperFill = true
    · have hlocal' : (l'.findOrder orderId).any isLocalPaperFill = true := by
        cases hfind : l.findOrder orderId with
        | none =>
          rw [hfind] at hlocal
          cases hlocal
        | some o =>
          obtain ⟨o', hfind', -, hkeeps⟩ := h.found orderId o hfind
          rw [hfind] at hlocal
          rw [hfind']
          exact hkeeps hlocal
      exact ⟨none, if_pos hlocal', nofun⟩
    · rw [if_neg hlocal] at hread
      cases hfill : c.tradeFill row orderId with
      | error e =>
        rw [hfill] at hread
        cases hread
      | ok fill =>
        rw [hfill] at hread
        rw [← hfill]
        exact hagain fill hfill (Except.ok.inj hread).symm

/-- Later rows leave an order row with nothing to do. -/
theorem orderDone (h : PassedOn l l') (hdone : OrderDone l row) : OrderDone l' row := by
  obtain ⟨identifier, hid, hdone⟩ := hdone
  refine ⟨identifier, hid, fun o' hfind' => ?_⟩
  cases hfind : l.findOrder identifier with
  | none =>
    rw [h.absent identifier hfind] at hfind'
    cases hfind'
  | some o =>
    obtain ⟨x, hfind'', hpass, hlocal⟩ := h.found identifier o hfind
    have hsame : x = o' := Option.some.inj (hfind''.symm.trans hfind')
    subst hsame
    rcases hdone o hfind with hdone | hdone
    · exact .inl (hlocal hdone)
    · right
      intro state hstate hlegal
      -- what is within reach now was within reach before, so the order was there
      -- already, and there is no way back
      have hreach : x.state.Passes state :=
        .inr ⟨OrderLifecycleState.isLegalTransition_iff.mp hlegal, (mapState_ne hstate).2⟩
      have hbefore := hdone state hstate
        (OrderLifecycleState.isLegalTransition_iff.mpr (hpass.trans hreach).forward)
      rw [hbefore] at hreach ⊢
      exact hpass.antisymm hreach

end PassedOn

/-! ## One row -/

namespace Reconciler

variable {c : Reconciler} {row : Row} {now : Time} {a a' : Accounts} {l l' : ExecutionLedger}

/-- A trade row that was handled has nothing more to do. -/
theorem tradeRow_settles {booked : Bool} (h : c.tradeRow row now a = (.ok booked, a')) :
    PassedOn a.ledger a'.ledger ∧ TradeDone c a'.ledger row := by
  rcases tradeRow_cases h with ⟨rfl, hnone, hnot⟩ | ⟨fill, o, hread, hrec, -, -⟩
  · refine ⟨.refl _, ?_⟩
    cases hread : c.readTrade a'.ledger row with
    | error e =>
      unfold tradeRow at h
      rw [hread] at h
      cases h
    | ok r =>
      refine ⟨r, hread, fun fill hr => ?_⟩
      -- nothing was recorded and nothing raised, so its id was known
      have hr' : r = some fill := hr
      subst hr'
      unfold tradeRow at h
      rw [hread] at h
      dsimp only at h
      rcases hbook : bookFill a' fill now with ⟨booking, a₁⟩
      rcases bookFill_cases hbook with ⟨-, ⟨-, hmem⟩ | ⟨e, rfl, -⟩⟩ | ⟨o, hacc, -, -, hend⟩
      · exact hmem
      · rw [hbook] at h
        cases h
      · unfold recorded at hnone
        rw [hread] at hnone
        dsimp only at hnone
        rw [ExecutionLedger.recordFill_of_accepts hacc] at hnone
        dsimp only at hnone
        rw [hacc.found] at hnone
        cases hnone
  · have hget := ExecutionLedger.get?_of_findOrder hrec.accepts.found
    have hread' := readTrade_some hread
    have hpass : o.state.Passes (o.withFill fill now).state := by
      refine .inr ⟨OrderLifecycleState.isLegalTransition_iff.mp hrec.accepts.legal, ?_⟩
      show o.stateAfterFill fill.quantity ≠ _
      unfold ExecutionOrder.stateAfterFill
      split <;> exact nofun
    have hput : PassedOn a.ledger (a.ledger.put (o.withFill fill now)) := by
      refine PassedOn.put hget (o.withFill_orderId fill now) (fun _ => rfl) hpass fun hlocal => ?_
      rw [hread'.2.2 o hrec.accepts.found] at hlocal
      cases hlocal
    have hon : PassedOn a.ledger a'.ledger := by
      rw [hrec.ledger]
      exact hput.markProcessed fill.fillId
    refine ⟨hon, ?_⟩
    have hprocessed : fill.fillId ∈ a'.ledger.processedFillIds := by
      rw [hrec.ledger]
      exact Finset.mem_insert_self _ _
    -- reading the row again finds the same fill, or a local order
    unfold TradeDone readTrade
    rw [hread'.1]
    dsimp only
    split
    · exact ⟨none, rfl, nofun⟩
    · rw [hread'.2.1]
      refine ⟨some fill, rfl, fun x hx => ?_⟩
      rw [← Option.some.inj hx]
      exact hprocessed

/-- A trade row with nothing to do does nothing. -/
theorem tradeRow_of_done (h : TradeDone c a.ledger row) (now : Time) :
    c.tradeRow row now a = (.ok false, a) := by
  obtain ⟨r, hread, hprocessed⟩ := h
  unfold tradeRow
  rw [hread]
  cases r with
  | none => rfl
  | some fill =>
    dsimp only
    unfold bookFill ExecutionLedger.recordFill
    rw [if_pos (hprocessed fill rfl)]

/-- An order row that was handled has nothing more to do. -/
theorem orderRow_settles {conflict : Option (String × OrderLifecycleState × String)}
    (h : orderRow row now l = (.ok conflict, l')) : PassedOn l l' ∧ OrderDone l' row := by
  rcases orderRow_cases h with rfl | ⟨identifier, o, state, hid, hfind, hlocal, hstate, hlegal, rfl⟩
  · refine ⟨.refl _, ?_⟩
    unfold orderRow at h
    split at h
    · cases h
    rename_i identifier hid
    refine ⟨identifier, hid, fun o hfind => ?_⟩
    rw [hfind] at h
    dsimp only at h
    by_cases hlocal : isLocalPaperFill o = true
    · exact .inl hlocal
    right
    intro state hstate hlegal
    rw [if_neg hlocal, hstate] at h
    dsimp only at h
    rw [if_pos hlegal] at h
    have hget := ExecutionLedger.get?_of_findOrder hfind
    have hself : l'.findOrder o.orderId = some o := by
      unfold ExecutionLedger.findOrder
      rw [hget]
    unfold ExecutionLedger.updateOrderState ExecutionOrder.transition at h
    rw [hself] at h
    dsimp only at h
    rw [if_pos hlegal] at h
    -- the order was stored in the reported state, and the ledger is the same
    have hsame : l'.put { o with state := state, lastUpdatedAt := now } = l' :=
      congrArg Prod.snd h
    have hput := @ExecutionLedger.get?_put l'
      { o with state := state, lastUpdatedAt := now } o.orderId
    rw [hsame, if_pos rfl, hget] at hput
    exact congrArg ExecutionOrder.state (Option.some.inj hput).symm
  · have hget := ExecutionLedger.get?_of_findOrder hfind
    have hpass : o.state.Passes state :=
      .inr ⟨OrderLifecycleState.isLegalTransition_iff.mp hlegal, (mapState_ne hstate).2⟩
    have hon : PassedOn l (l.put { o with state := state, lastUpdatedAt := now }) := by
      refine PassedOn.put hget rfl (fun _ => rfl) hpass fun hlocal' => ?_
      rw [hlocal] at hlocal'
      cases hlocal'
    refine ⟨hon, identifier, hid, fun x hx => .inr fun state' hstate' _ => ?_⟩
    rw [hstate] at hstate'
    cases hstate'
    have hput := @ExecutionLedger.findOrder_put l o { o with
      state := state, lastUpdatedAt := now } hget rfl (fun _ => rfl) identifier
    rw [hx, hfind, Option.map_some, if_pos rfl] at hput
    rw [Option.some.inj hput]

/-- An order row raises only if it names no order. -/
theorem orderRow_ok {identifier : String}
    (hid : row.requiredText ["order_id", "id"] = .ok identifier) (now : Time)
    (l : ExecutionLedger) : ∃ conflict l', orderRow row now l = (.ok conflict, l') := by
  unfold orderRow
  rw [hid]
  dsimp only
  cases hfind : l.findOrder identifier with
  | none => exact ⟨_, _, rfl⟩
  | some o =>
    dsimp only
    split
    · exact ⟨_, _, rfl⟩
    split
    · exact ⟨_, _, rfl⟩
    split
    · rename_i state _ hlegal
      have hself : l.findOrder o.orderId = some o := by
        unfold ExecutionLedger.findOrder
        rw [ExecutionLedger.get?_of_findOrder hfind]
      unfold ExecutionLedger.updateOrderState ExecutionOrder.transition
      rw [hself]
      dsimp only
      rw [if_pos hlegal]
      exact ⟨_, _, rfl⟩
    · split <;> exact ⟨_, _, rfl⟩

end Reconciler

/-! ## Stamps -/

/-- The order, whenever it was last updated. -/
def ExecutionOrder.unstamped (o : ExecutionOrder) : ExecutionOrder := { o with lastUpdatedAt := 0 }

/-- The same ledger, whenever its orders were last updated. -/
structure Restamped (l l' : ExecutionLedger) : Prop where
  processed : l'.processedFillIds = l.processedFillIds
  orders : ∀ k, (l'.orders.get? k).map ExecutionOrder.unstamped
    = (l.orders.get? k).map ExecutionOrder.unstamped

theorem Restamped.refl (l : ExecutionLedger) : Restamped l l := ⟨rfl, fun _ => rfl⟩

theorem Restamped.trans {l l' l'' : ExecutionLedger} (h : Restamped l l')
    (h' : Restamped l' l'') : Restamped l l'' :=
  ⟨h'.processed.trans h.processed, fun k => (h'.orders k).trans (h.orders k)⟩

/-- Stamping a stored order. -/
theorem restamped_put {l : ExecutionLedger} {o : ExecutionOrder}
    (hget : l.orders.get? o.orderId = some o) (now : Time) :
    Restamped l (l.put { o with lastUpdatedAt := now }) where
  processed := rfl
  orders := by
    intro k
    rw [ExecutionLedger.get?_put]
    split
    · rename_i hk
      rw [hk]
      show _ = (l.orders.get? o.orderId).map ExecutionOrder.unstamped
      rw [hget]
      rfl
    · rfl

namespace Reconciler

variable {c : Reconciler} {row : Row} {now : Time} {a a' : Accounts} {l l' : ExecutionLedger}

/-- An order row with nothing to do does no more than stamp its order. -/
theorem orderRow_of_done (h : OrderDone l row) (now : Time) :
    ∃ conflict l', orderRow row now l = (.ok conflict, l') ∧ Restamped l l' := by
  obtain ⟨identifier, hid, hdone⟩ := h
  obtain ⟨conflict, l', hrow⟩ := orderRow_ok hid now l
  refine ⟨conflict, l', hrow, ?_⟩
  rcases orderRow_cases hrow with rfl | ⟨id, o, state, hid', hfind, hlocal, hstate, hlegal, rfl⟩
  · exact .refl l'
  · have hsame : id = identifier := Except.ok.inj (hid'.symm.trans hid)
    subst hsame
    rcases hdone o hfind with hdone | hdone
    · rw [hlocal] at hdone
      cases hdone
    · rw [hdone state hstate hlegal]
      exact restamped_put (ExecutionLedger.get?_of_findOrder hfind) now

/-! ## The rows of a pass -/

/-- The trade rows of a pass that completes are left with nothing to do. -/
theorem reconcileTrades_settles (rows : List Row) :
    ∀ {a a' : Accounts} {applied : ℕ}, c.reconcileTrades now rows a = (.ok applied, a') →
      PassedOn a.ledger a'.ledger ∧ ∀ row ∈ rows, TradeDone c a'.ledger row := by
  induction rows with
  | nil =>
    intro a a' applied h
    cases h
    exact ⟨.refl _, nofun⟩
  | cons row rows ih =>
    intro a a' applied h
    unfold reconcileTrades at h
    rcases hrow : c.tradeRow row now a with ⟨_ | booked, a₁⟩
    · rw [hrow] at h
      cases h
    rw [hrow] at h
    dsimp only at h
    rcases hrest : c.reconcileTrades now rows a₁ with ⟨_ | n, a₂⟩
    · rw [hrest] at h
      cases h
    rw [hrest] at h
    cases h
    obtain ⟨hon, hdone⟩ := tradeRow_settles hrow
    obtain ⟨hon', hdone'⟩ := ih hrest
    refine ⟨hon.trans hon', fun x hx => ?_⟩
    rcases List.mem_cons.mp hx with rfl | hx
    · exact hon'.tradeDone hdone
    · exact hdone' x hx

/-- So are its order rows. -/
theorem reconcileOrders_settles (rows : List Row) :
    ∀ {l l' : ExecutionLedger} {conflicts : List (String × OrderLifecycleState × String)},
      reconcileOrders now rows l = (.ok conflicts, l') →
      PassedOn l l' ∧ ∀ row ∈ rows, OrderDone l' row := by
  induction rows with
  | nil =>
    intro l l' conflicts h
    cases h
    exact ⟨.refl _, nofun⟩
  | cons row rows ih =>
    intro l l' conflicts h
    unfold reconcileOrders at h
    rcases hrow : orderRow row now l with ⟨_ | conflict, l₁⟩
    · rw [hrow] at h
      cases h
    rw [hrow] at h
    dsimp only at h
    rcases hrest : reconcileOrders now rows l₁ with ⟨_ | cs, l₂⟩
    · rw [hrest] at h
      cases h
    rw [hrest] at h
    cases h
    obtain ⟨hon, hdone⟩ := orderRow_settles hrow
    obtain ⟨hon', hdone'⟩ := ih hrest
    refine ⟨hon.trans hon', fun x hx => ?_⟩
    rcases List.mem_cons.mp hx with rfl | hx
    · exact hon'.orderDone hdone
    · exact hdone' x hx

/-- Trade rows with nothing to do do nothing. -/
theorem reconcileTrades_of_done (now : Time) (rows : List Row)
    (h : ∀ row ∈ rows, TradeDone c a.ledger row) : c.reconcileTrades now rows a = (.ok 0, a) := by
  induction rows with
  | nil => rfl
  | cons row rows ih =>
    unfold reconcileTrades
    rw [tradeRow_of_done (h row List.mem_cons_self) now]
    dsimp only
    rw [ih fun x hx => h x (List.mem_cons_of_mem _ hx)]
    rfl

/-- Order rows with nothing to do only stamp. -/
theorem reconcileOrders_of_done (now : Time) (rows : List Row) :
    ∀ l, (∀ row ∈ rows, OrderDone l row) →
      ∃ conflicts l', reconcileOrders now rows l = (.ok conflicts, l') ∧ Restamped l l' := by
  induction rows with
  | nil => exact fun l _ => ⟨[], l, rfl, .refl l⟩
  | cons row rows ih =>
    intro l h
    obtain ⟨conflict, l₁, hrow, hstamp⟩ := orderRow_of_done (h row List.mem_cons_self) now
    obtain ⟨hon, -⟩ := orderRow_settles hrow
    obtain ⟨conflicts, l₂, hrest, hstamp'⟩ := ih l₁ fun x hx =>
      hon.orderDone (h x (List.mem_cons_of_mem _ hx))
    refine ⟨conflict.toList ++ conflicts, l₂, ?_, hstamp.trans hstamp'⟩
    unfold reconcileOrders
    rw [hrow]
    dsimp only
    rw [hrest]
    rfl

/-- A pass every row of which has nothing to do. -/
structure PassDone (c : Reconciler) (ordersPayload tradesPayload : Payload)
    (l : ExecutionLedger) : Prop where
  rows : ∃ rows, payloadRows ordersPayload = .ok rows ∧ ∀ row ∈ rows, OrderDone l row
  trades : ∃ trades, payloadRows tradesPayload = .ok trades ∧ ∀ row ∈ trades, TradeDone c l row

/-- A pass that completes is left with nothing to do. -/
theorem reconcileState_settles {ordersPayload tradesPayload : Payload}
    {result : ReconciliationResult}
    (h : c.reconcileState ordersPayload tradesPayload now a = (.ok result, a')) :
    PassDone c ordersPayload tradesPayload a'.ledger := by
  unfold reconcileState at h
  cases hrows : payloadRows ordersPayload with
  | error e =>
    rw [hrows] at h
    cases h
  | ok rows =>
    cases htrades : payloadRows tradesPayload with
    | error e =>
      rw [hrows, htrades] at h
      cases h
    | ok trades =>
      rw [hrows, htrades] at h
      dsimp only at h
      rcases hrec : c.reconcileTrades now trades a with ⟨_ | applied, a₁⟩
      · rw [hrec] at h
        cases h
      rw [hrec] at h
      dsimp only at h
      rcases hord : reconcileOrders now rows a₁.ledger with ⟨_ | conflicts, l⟩
      · rw [hord] at h
        cases h
      rw [hord] at h
      cases h
      obtain ⟨-, htrade⟩ := reconcileTrades_settles trades hrec
      obtain ⟨hon, horder⟩ := reconcileOrders_settles rows hord
      exact ⟨⟨rows, hrows, horder⟩,
        ⟨trades, htrades, fun row hr => hon.tradeDone (htrade row hr)⟩⟩

/-- A pass with nothing to do applies no fill, and only stamps orders. -/
theorem reconcileState_of_done {ordersPayload tradesPayload : Payload}
    (h : PassDone c ordersPayload tradesPayload a.ledger) (now : Time) :
    ∃ result l, c.reconcileState ordersPayload tradesPayload now a
        = (.ok result, { a with ledger := l }) ∧
      result.appliedFills = 0 ∧ Restamped a.ledger l := by
  obtain ⟨⟨rows, hrows, horder⟩, trades, htrades, htrade⟩ := h
  obtain ⟨conflicts, l, hord, hstamp⟩ := reconcileOrders_of_done now rows a.ledger horder
  refine ⟨⟨0, rows.length, conflicts⟩, l, ?_, rfl, hstamp⟩
  unfold reconcileState
  rw [hrows, htrades]
  dsimp only
  rw [reconcileTrades_of_done now trades htrade]
  dsimp only
  rw [hord]

/-- **Reconciliation is idempotent**: if a pass completes, the same payload
reconciled again, at whatever time, completes with no fill applied, and leaves
every order as it was but for its stamp, the processed fill ids, and the whole
book. -/
theorem idempotent (c : Reconciler) (ordersPayload tradesPayload : Payload) (now now' : Time)
    (a a' : Accounts) (result : ReconciliationResult)
    (h : c.reconcileState ordersPayload tradesPayload now a = (.ok result, a')) :
    ∃ result' a'', c.reconcileState ordersPayload tradesPayload now' a' = (.ok result', a'') ∧
      result'.appliedFills = 0 ∧
      (∀ k, (a''.ledger.orders.get? k).map ExecutionOrder.unstamped
        = (a'.ledger.orders.get? k).map ExecutionOrder.unstamped) ∧
      a''.ledger.processedFillIds = a'.ledger.processedFillIds ∧ a''.book = a'.book := by
  have hdone := reconcileState_settles h
  obtain ⟨result', l, hagain, hzero, hstamp⟩ := reconcileState_of_done hdone now'
  exact ⟨result', _, hagain, hzero, hstamp.orders, hstamp.processed, rfl⟩

end Reconciler

/-! ### A partial fill seen twice -/

namespace Twice

/-- A fee policy of 10 bps. -/
def reconciler : Reconciler := ⟨10, Oversold.ten_nonneg⟩

/-- A submitted BUY of 1 BTC. -/
def order (key venueOrderId : String) : ExecutionOrder where
  orderId := key
  decisionId := "d1"
  asset := "BTC"
  side := .buy
  requestedQuantity := 1
  state := .submitted
  filledQuantity := 0
  averageFillPriceUsd := none
  lastUpdatedAt := 0
  clientOrderId := some key
  venueOrderId := some venueOrderId
  submissionAttempts := 1
  reason := none
  feesPaidUsd := 0
  feeSource := none
  requested_pos := one_pos
  filled_nonneg := zero_nonneg
  averageFill_pos := pos_of_mem_none
  feesPaid_nonneg := zero_nonneg

/-- The order's row at the venue, in a status. -/
def row (venueOrderId status : String) : Option Row :=
  some (Dict.ofList [("order_id", .str venueOrderId), ("status", .str status)])

/-- A trade of the order. -/
def trade (venueOrderId tradeId : String) (quantity : ℚ) : Option Row :=
  some (Dict.ofList [("order_id", .str venueOrderId), ("trade_id", .str tradeId),
    ("trading_pair", .str "BTC-USD"), ("trade_type", .str "BUY"), ("amount", .num quantity),
    ("price", .num 100), ("fee", .num 1)])

/-- One submitted order, over a book that holds nothing. -/
def accounts : Accounts where
  ledger := ExecutionLedger.empty.put (order "ts-d1" "v1")
  book := PortfolioBook.fresh 1000 Oversold.thousand_pos

/-- Two rows for the order, of which the first one lags behind its trade. -/
def orders : Payload := .list [row "v1" "open", row "v1" "partially_filled"]

/-- A trade of 0.4 BTC. -/
def trades : Payload := .list [trade "v1" "t1" (2 / 5)]

end Twice

namespace Reconciler

theorem idempotent_twice :
    ∃ result' a'', Twice.reconciler.reconcileState Twice.orders Twice.trades 2
        (Twice.reconciler.reconcileState Twice.orders Twice.trades 1 Twice.accounts).2
          = (.ok result', a'') ∧
      result'.appliedFills = 0 ∧
      (∀ k, (a''.ledger.orders.get? k).map ExecutionOrder.unstamped
        = ((Twice.reconciler.reconcileState Twice.orders Twice.trades 1
            Twice.accounts).2.ledger.orders.get? k).map ExecutionOrder.unstamped) ∧
      a''.ledger.processedFillIds = (Twice.reconciler.reconcileState Twice.orders Twice.trades 1
        Twice.accounts).2.ledger.processedFillIds ∧
      a''.book = (Twice.reconciler.reconcileState Twice.orders Twice.trades 1
        Twice.accounts).2.book :=
  idempotent Twice.reconciler Twice.orders Twice.trades 1 2 Twice.accounts _ ⟨1, 2, []⟩
    (Prod.ext (by decide +kernel) rfl)

end Reconciler

end TraderStack
