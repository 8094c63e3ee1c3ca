import TraderStack.Execution.Passes
import TraderStack.Lib.Copies

/-!
# What the ledger's fills add up to

The net quantity of an asset over the ledger's orders, and how every step moves
it: a recorded fill by its own signed quantity, anything else not at all. The
book's holding moves by the same amount when it covers the fill, so the two stay
equal (`Tallies`) through every covered booking.
-/

namespace TraderStack

open Lib

/-- Bought counts up, sold counts down. -/
def Side.signed : Side → ℚ → ℚ
  | .buy, quantity => quantity
  | .sell, quantity => -quantity

/-- What an order contributes to an asset. -/
def ExecutionOrder.contribution (asset : String) (o : ExecutionOrder) : ℚ :=
  if Text.upper o.asset = asset then o.side.signed o.filledQuantity else 0

/-- Total BUY filled quantity less total SELL filled quantity of an asset. -/
def ExecutionLedger.net (l : ExecutionLedger) (asset : String) : ℚ :=
  l.orders.sum fun _ o => o.contribution asset

/-- The book holds what the ledger's fills add up to, in every asset. -/
def Accounts.Tallies (a : Accounts) : Prop :=
  ∀ asset, a.book.heldQuantity asset = a.ledger.net asset

/-- The ledger, as a record that grows by fill ids and carries the net
quantities. -/
abbrev LaterLedger : ExecutionLedger → ExecutionLedger → Prop :=
  Later ExecutionLedger.processedFillIds ExecutionLedger.net

/-- The quantity a fill moves an asset by. -/
def ExecutionFill.moves (fill : ExecutionFill) (asset : String) : ℚ :=
  if Text.upper fill.asset = asset then fill.side.signed fill.quantity else 0

namespace ExecutionLedger

variable {l l' : ExecutionLedger} {o : ExecutionOrder} {fill : ExecutionFill} {now : Time}

theorem net_put (l : ExecutionLedger) (o : ExecutionOrder) (asset : String) :
    (l.put o).net asset =
      l.net asset - (l.orders.get? o.orderId).elim 0 (ExecutionOrder.contribution asset)
        + o.contribution asset :=
  Dict.sum_set _ _ _ _

/-- Amending an order moves nothing. -/
theorem net_put_of_stored (o' : ExecutionOrder) (hget : l.orders.get? o'.orderId = some o)
    (hasset : o'.asset = o.asset) (hside : o'.side = o.side)
    (hfilled : o'.filledQuantity = o.filledQuantity) (asset : String) :
    (l.put o').net asset = l.net asset := by
  have hsame : o'.contribution asset = o.contribution asset := by
    unfold ExecutionOrder.contribution
    rw [hasset, hside, hfilled]
  rw [net_put, hget, Option.elim_some, hsame]
  exact sub_add_cancel _ _

/-- Nor does registering an order without fills. -/
theorem net_put_of_new (hget : l.orders.get? o.orderId = none) (hfilled : o.filledQuantity = 0)
    (asset : String) : (l.put o).net asset = l.net asset := by
  have hzero : o.contribution asset = 0 := by
    unfold ExecutionOrder.contribution Side.signed
    rw [hfilled]
    split
    · cases o.side <;> simp
    · rfl
  rw [net_put, hget, Option.elim_none, hzero]
  ring

theorem net_registerOrder (h : l.registerOrder o = .ok l') (hfilled : o.filledQuantity = 0)
    (asset : String) : l'.net asset = l.net asset := by
  obtain ⟨rfl, hget | hget⟩ := registerOrder_ok h
  · exact net_put_of_new hget hfilled asset
  · exact net_put_of_stored _ hget rfl rfl rfl asset

/-- **A recorded fill** moves its own asset by its signed quantity. -/
theorem net_recorded (h : Accepts l fill o) (asset : String) :
    ((l.put (o.withFill fill now)).markProcessed fill.fillId).net asset
      = l.net asset + fill.moves asset := by
  have hget : l.orders.get? (o.withFill fill now).orderId = some o := get?_of_findOrder h.found
  have hnet : ((l.put (o.withFill fill now)).markProcessed fill.fillId).net asset
      = (l.put (o.withFill fill now)).net asset := rfl
  have hmoved : (o.withFill fill now).contribution asset
      = o.contribution asset + fill.moves asset := by
    unfold ExecutionOrder.contribution ExecutionFill.moves
    rw [h.asset, h.side]
    show (if Text.upper o.asset = asset then o.side.signed (o.filledQuantity + fill.quantity) else 0)
      = _
    split
    · cases o.side
      · rfl
      · exact neg_add _ _
    · exact (add_zero 0).symm
  rw [hnet, net_put, hget, Option.elim_some, hmoved]
  ring

/-- Recording a fill is progress. -/
theorem laterLedger_recorded (h : Accepts l fill o) :
    LaterLedger l ((l.put (o.withFill fill now)).markProcessed fill.fillId) :=
  Later.of_lt (Finset.ssubset_insert h.fresh)

end ExecutionLedger

/-! ## The book -/

/-- A covered fill moves the holding by the same amount. -/
theorem heldQuantity_applyFill {b : PortfolioBook} {fill : ExecutionFill} (h : b.Covers fill)
    (now : Time) (asset : String) :
    (b.applyFill fill.asset fill.side fill.quantity fill.priceUsd fill.feeUsd now none).2.heldQuantity
        asset = b.heldQuantity asset + fill.moves asset := by
  have hok := (covers_iff_applyFill_ok b fill now).mp h
  rcases happly : b.applyFill fill.asset fill.side fill.quantity fill.priceUsd fill.feeUsd now none
    with ⟨r, b'⟩
  rw [happly] at hok
  unfold ExecutionFill.moves
  rcases PortfolioBook.applyFill_cases happly with
    ⟨e, rfl, -⟩ | ⟨hq, hp, hf, -, hside, hfilled⟩ | ⟨hs, hf, -, -, -, hside, hfilled⟩
  · cases hok
  · rw [PortfolioBook.heldQuantity_of_filled hfilled, hside]
    by_cases hasset : asset = Text.upper fill.asset
    · rw [if_pos hasset, if_pos hasset.symm, hasset]
      rfl
    · rw [if_neg hasset, if_neg fun h => hasset h.symm, add_zero]
  · rw [PortfolioBook.heldQuantity_of_filled hfilled, hside]
    by_cases hasset : asset = Text.upper fill.asset
    · rw [if_pos hasset, if_pos hasset.symm, hasset]
      exact sub_eq_add_neg (b.heldQuantity (Text.upper fill.asset)) fill.quantity
    · rw [if_neg hasset, if_neg fun h => hasset h.symm, add_zero]

/-! ## Bookings -/

/-- The records are in order: the book's keys are normalised, it holds what the
ledger adds up to, and the ledger is a later one than the given. -/
structure InOrder (l : ExecutionLedger) (a : Accounts) : Prop where
  keyed : a.book.UpperKeyed
  tallies : a.Tallies
  later : LaterLedger l a.ledger

namespace InOrder

variable {l : ExecutionLedger} {a a' : Accounts} {fill : ExecutionFill} {o : ExecutionOrder}
  {now : Time}

/-- A new ledger with the same fills. -/
theorem relabel (h : InOrder l a) {l' : ExecutionLedger}
    (hprocessed : l'.processedFillIds = a.ledger.processedFillIds)
    (hnet : ∀ asset, l'.net asset = a.ledger.net asset) : InOrder l { a with ledger := l' } where
  keyed := h.keyed
  tallies := fun asset => (h.tallies asset).trans (hnet asset).symm
  later := h.later.trans (.of_eq hprocessed (funext hnet))

/-- **A covered fill** keeps the records in order. -/
theorem recorded (h : InOrder l a) (hr : Reconciler.Recorded a a' fill o now)
    (hcov : a.book.Covers fill) : InOrder l a' where
  keyed := by
    rw [hr.book]
    exact PortfolioBook.upperKeyed_step a.book
      (.fill fill.asset fill.side fill.quantity fill.priceUsd fill.feeUsd now none) h.keyed
  tallies := by
    intro asset
    rw [hr.book, hr.ledger, heldQuantity_applyFill hcov,
      ExecutionLedger.net_recorded hr.accepts, h.tallies asset]
  later := by
    rw [hr.ledger]
    exact h.later.trans (ExecutionLedger.laterLedger_recorded hr.accepts)

theorem bookFill (h : InOrder l a) {r : Except BookingError Bool}
    (hbook : TraderStack.bookFill a fill now = (r, a'))
    (hcov : (∃ o, ExecutionLedger.Accepts a.ledger fill o) → a.book.Covers fill) :
    InOrder l a' := by
  rcases bookFill_cases hbook with ⟨rfl, -⟩ | ⟨o, hacc, hledger, happly, -⟩
  · exact h
  · exact h.recorded ⟨hacc, hledger, by rw [happly]⟩ (hcov ⟨o, hacc⟩)

/-- **The simulator**, when the book covers its fill. -/
theorem apply (h : InOrder l a) {sim : PaperFillSimulator} {intent : PaperOrderIntent}
    {midUsd : ℚ} (hcov : sim.FillCovered intent midUsd now a) :
    InOrder l (sim.apply intent midUsd now a).2 := by
  unfold PaperFillSimulator.FillCovered at hcov
  rcases happ : sim.apply intent midUsd now a with ⟨r, a'⟩
  obtain ⟨p, l', hprep, hcase⟩ := PaperFillSimulator.apply_cases happ
  rw [hprep] at hcov
  have hprepared : InOrder l { a with ledger := l' } := by
    rcases PaperFillSimulator.prepare_ledger hprep with rfl | ⟨plan, -, -, hreg⟩
    · exact h
    · refine h.relabel ?_ (ExecutionLedger.net_registerOrder hreg rfl)
      rw [(ExecutionLedger.registerOrder_ok hreg).1, ExecutionLedger.processed_put]
  rcases hcase with ⟨out, -, -, rfl⟩ | ⟨e, -, -, rfl⟩ | ⟨fill, plan, booking, rfl, hbook, -⟩
  · exact hprepared
  · exact hprepared
  · exact hprepared.bookFill hbook (hcov fill plan rfl)

/-- **A pass**, when the book covers every fill its rows report. -/
theorem reconcileState (h : InOrder l a) {c : Reconciler} {orders trades : Payload}
    (hcov : c.AlongPass now (fun a row => c.RowCovered row a) (fun _ _ => True) orders trades a) :
    InOrder l (c.reconcileState orders trades now a).2 := by
  refine Reconciler.reconcileState_invariant (I := fun a _ => InOrder l a) ?_ ?_ hcov h (j := [])
  · intro a j row hcovered h
    rcases hrow : c.tradeRow row now a with ⟨r, a'⟩
    rcases Reconciler.tradeRow_cases hrow with ⟨rfl, -⟩ | ⟨fill, o, hread, hrec, -⟩
    · exact h
    · exact h.recorded hrec (hcovered fill hread ⟨o, hrec.accepts⟩)
  · intro a j row _ h
    rcases hrow : Reconciler.orderRow row now a.ledger with ⟨r, l'⟩
    rcases Reconciler.orderRow_cases hrow with rfl | ⟨_, o, state, -, hfind, -, -, -, rfl⟩
    · exact h
    · have hget := ExecutionLedger.get?_of_findOrder hfind
      exact h.relabel rfl (ExecutionLedger.net_put_of_stored
        { o with state := state, lastUpdatedAt := now } hget rfl rfl rfl)

end InOrder

end TraderStack
