import TraderStack.Execution.Reconcile

/-!
# Ledger and book move together

Both writers of fills, the paper simulator and the venue reconciler, book
through `bookFill`. Each booking is all or nothing exactly when the book covers
the sale the ledger accepts; the ledger itself never looks at the holding.

- `prepare_fill`: what is known of the fill the simulator is about to book;
- `applyAtomic_iff`, `rowsAtomic_iff`: the exact conditions for the simulator
  and for a whole list of trade rows, also when the pass raises part-way;
- `covers_of_reduceOnly`: a reduce-only exit always meets its condition, since
  its size is capped to the holding; a plain SELL is checked only up to the
  tolerance of 1e-12, and can miss it.
-/

namespace TraderStack

open Lib

namespace ExecutionLedger

variable {l l' : ExecutionLedger} {o : ExecutionOrder}

theorem registerOrder_ok (h : l.registerOrder o = .ok l') :
    l' = l.put o ∧ (l.orders.get? o.orderId = none ∨ l.orders.get? o.orderId = some o) := by
  unfold registerOrder at h
  split at h
  · rename_i existing hget
    split at h
    · cases h
    · rename_i heq
      cases h
      rw [not_not] at heq
      exact ⟨rfl, .inr (heq ▸ hget)⟩
  · rename_i hget
    cases h
    exact ⟨rfl, .inl hget⟩

end ExecutionLedger

namespace PaperFillSimulator

variable {sim : PaperFillSimulator} {intent : PaperOrderIntent} {midUsd : ℚ} {now : Time}
  {a : Accounts} {fill : ExecutionFill} {plan : ExecutionPlan}

/-- The idempotency key of a new order is its client order id. -/
theorem idempotencyKey_plannedOrder (plan : ExecutionPlan) (now : Time) :
    (plannedOrder plan now).idempotencyKey = plan.clientOrderId := by
  unfold ExecutionOrder.idempotencyKey plannedOrder
  dsimp only
  split <;> rfl

theorem existingQuantity_plannedOrder (plan : ExecutionPlan) (now : Time) (cap : Option ℚ) :
    existingQuantity (plannedOrder plan now) plan cap = plan.quantity := by
  cases cap with
  | none => rfl
  | some c => exact min_self _

theorem existingQuantity_le (o : ExecutionOrder) (plan : ExecutionPlan) (cap : Option ℚ) :
    existingQuantity o plan cap ≤ o.requestedQuantity := by
  cases cap with
  | none => exact le_rfl
  | some c => exact min_le_left _ _

theorem checkFill_eq_fill {o : ExecutionOrder} {key : String} {quantity price : ℚ}
    {hq : 0 < quantity} {hp : 0 < price} {plan' : ExecutionPlan}
    (h : sim.checkFill intent plan a o key quantity price hq hp = .fill fill plan') :
    paperFillId key ∉ a.ledger.processedFillIds ∧
      shortSaleReason a.book intent quantity = none ∧
      fill = sim.fillOf intent o key quantity price hq hp ∧ plan' = plan := by
  unfold checkFill at h
  split at h
  · cases h
  · rename_i hfresh
    split at h
    · cases h
    · rename_i hshort
      cases h
      exact ⟨hfresh, hshort, rfl, rfl⟩

/-- **The fill about to be booked** belongs to the decision's order, existing
or just registered, and carries that order's own paper-fill id. -/
structure PreparedFill (sim : PaperFillSimulator) (intent : PaperOrderIntent) (midUsd : ℚ)
    (now : Time) (a : Accounts) (fill : ExecutionFill) (plan : ExecutionPlan)
    (l' : ExecutionLedger) (o : ExecutionOrder) : Prop where
  mode : sim.tradingMode = .paper
  planned : sim.planner.plan intent (adverseFillPriceUsd intent.side midUsd sim.paperSlippageBps)
    midUsd (reduceOnlyCap a.book intent) = .ok plan
  order : (existingOrder a.ledger intent.decisionId = some o ∧
      refusal o a.ledger intent = none ∧ l' = a.ledger) ∨
    (existingOrder a.ledger intent.decisionId = none ∧ o = plannedOrder plan now ∧
      a.ledger.registerOrder o = .ok l')
  fresh : fill.fillId ∉ a.ledger.processedFillIds
  notShort : shortSaleReason a.book intent
    (existingQuantity o plan (reduceOnlyCap a.book intent)) = none
  fillId : fill.fillId = paperFillId o.idempotencyKey
  orderId : fill.orderId = o.orderId
  asset : fill.asset = Text.upper intent.asset
  side : fill.side = intent.side
  quantity : fill.quantity = existingQuantity o plan (reduceOnlyCap a.book intent)
  feeSource : fill.feeSource = .modelled
  price : fill.priceUsd = adverseFillPriceUsd intent.side midUsd sim.paperSlippageBps
  fee : fill.feeUsd = fill.quantity * fill.priceUsd * sim.paperFeeBps / 10000

theorem prepare_fill {l' : ExecutionLedger}
    (h : sim.prepare intent midUsd now a = (.fill fill plan, l')) :
    ∃ o, PreparedFill sim intent midUsd now a fill plan l' o := by
  unfold prepare at h
  split at h
  · cases h
  rename_i hmode
  rw [not_not] at hmode
  split at h
  · cases h
  dsimp only at h
  split at h
  · cases h
  rename_i hrefuse
  split at h
  · cases h
  rename_i plan' hplan
  split at h
  · -- the decision has an order already
    rename_i o hex
    rw [Prod.mk.injEq] at h
    obtain ⟨hcheck, rfl⟩ := h
    obtain ⟨hfresh, hshort, rfl, rfl⟩ := checkFill_eq_fill hcheck
    rw [hex] at hrefuse
    exact ⟨o, hmode, hplan, .inl ⟨hex, hrefuse, rfl⟩, hfresh, hshort, rfl, rfl, rfl, rfl, rfl, rfl,
      rfl, rfl⟩
  · -- the order is registered here
    rename_i hex
    split at h
    · cases h
    rename_i ledger hreg
    rw [Prod.mk.injEq] at h
    obtain ⟨hcheck, rfl⟩ := h
    obtain ⟨hfresh, hshort, rfl, rfl⟩ := checkFill_eq_fill hcheck
    have hput := (ExecutionLedger.registerOrder_ok hreg).1
    have hkey := idempotencyKey_plannedOrder plan now
    have hqty := existingQuantity_plannedOrder plan now (reduceOnlyCap a.book intent)
    refine ⟨plannedOrder plan now, hmode, hplan, .inr ⟨hex, rfl, hreg⟩, ?_, ?_, ?_, rfl, rfl, rfl,
      ?_, rfl, rfl, rfl⟩
    · rw [hput] at hfresh
      exact hfresh
    · rw [hqty]
      exact hshort
    · rw [hkey]
      rfl
    · rw [hqty]
      rfl

/-- Before the booking the simulator at most registers an empty order. -/
theorem prepare_ledger {p : Prepared} {l' : ExecutionLedger}
    (h : sim.prepare intent midUsd now a = (p, l')) :
    l' = a.ledger ∨
      ∃ plan, existingOrder a.ledger intent.decisionId = none ∧
        sim.planner.plan intent (adverseFillPriceUsd intent.side midUsd sim.paperSlippageBps)
          midUsd (reduceOnlyCap a.book intent) = .ok plan ∧
        a.ledger.registerOrder (plannedOrder plan now) = .ok l' := by
  unfold prepare at h
  split at h
  · cases h
    exact .inl rfl
  split at h
  · cases h
    exact .inl rfl
  dsimp only at h
  split at h
  · cases h
    exact .inl rfl
  split at h
  · cases h
    exact .inl rfl
  rename_i plan' hplan
  split at h
  · cases h
    exact .inl rfl
  rename_i hex
  split at h
  · cases h
    exact .inl rfl
  · rename_i ledger hreg
    cases h
    exact .inr ⟨plan', hex, hplan, hreg⟩

/-- It registers one only for a decision that has none. -/
theorem prepare_registers {p : Prepared} {l' : ExecutionLedger}
    (h : sim.prepare intent midUsd now a = (p, l')) :
    l' = a.ledger ∨
      ∃ plan : ExecutionPlan, plan.decisionId = intent.decisionId ∧
        a.ledger.hasOrderForDecision plan.decisionId = false ∧
        a.ledger.orders.get? plan.clientOrderId = none ∧
        l' = a.ledger.put (plannedOrder plan now) := by
  refine (prepare_ledger h).imp_right fun ⟨plan, hexisting, hplan, hreg⟩ => ?_
  have hdecision := (ExecutionPlanner.planned_of_ok hplan).decisionId
  have hnone : ∀ o, o ∉ a.ledger.ordersForDecision intent.decisionId := by
    intro o ho
    rw [List.head?_eq_none_iff.mp hexisting] at ho
    cases ho
  obtain ⟨rfl, hget⟩ := ExecutionLedger.registerOrder_ok hreg
  refine ⟨plan, hdecision, ?_, hget.resolve_right fun hsame => ?_, rfl⟩
  · rw [hdecision, Bool.eq_false_iff]
    intro hsome
    obtain ⟨k, o, hk, hd⟩ := ExecutionLedger.hasOrderForDecision_iff.mp hsome
    refine hnone o (ExecutionLedger.mem_ordersForDecision.mpr ⟨?_, hd⟩)
    rw [a.ledger.keyed _ _ hk, hk]
  · exact hnone _ (ExecutionLedger.mem_ordersForDecision.mpr ⟨hsame, hdecision⟩)

/-- Registering the decision's order changes no fill id and no filled quantity. -/
theorem untouched_prepare {p : Prepared} {l' : ExecutionLedger}
    (h : sim.prepare intent midUsd now a = (p, l')) : Untouched a { a with ledger := l' } := by
  rcases prepare_ledger h with rfl | ⟨plan, -, -, hreg⟩
  · exact .refl a
  · obtain ⟨rfl, hget⟩ := ExecutionLedger.registerOrder_ok hreg
    refine ⟨rfl, fun k => ?_, rfl⟩
    rw [filledOf_put]
    split
    · rename_i hk
      subst hk
      unfold ExecutionLedger.filledOf
      rcases hget with hget | hget <;> rw [hget] <;> rfl
    · rfl

/-- **What `apply` does**: it ends as `prepare` decided, or hands the prepared
fill to the booking and reports what that did. -/
theorem apply_cases {r : Except PaperFillError PaperFillOutcome} {a' : Accounts}
    (h : sim.apply intent midUsd now a = (r, a')) :
    ∃ p l', sim.prepare intent midUsd now a = (p, l') ∧
      ((∃ out, p = .outcome out ∧ r = .ok out ∧ a' = { a with ledger := l' }) ∨
        (∃ e, p = .raised e ∧ r = .error e ∧ a' = { a with ledger := l' }) ∨
        ∃ fill plan booking, p = .fill fill plan ∧
          bookFill { a with ledger := l' } fill now = (booking, a') ∧
          r = (match booking with
            | .error e => .error (.booking e)
            | .ok false => .ok (.refused .duplicate (.alreadyBooked fill.fillId) (some plan))
            | .ok true => .ok ⟨.filled, none, some fill, some plan, fill.feeUsd⟩)) := by
  unfold apply at h
  rcases hprep : sim.prepare intent midUsd now a with ⟨p, l'⟩
  rw [hprep] at h
  refine ⟨p, l', rfl, ?_⟩
  cases p with
  | outcome out =>
    cases h
    exact .inl ⟨out, rfl, rfl, rfl⟩
  | raised e =>
    cases h
    exact .inr (.inl ⟨e, rfl, rfl, rfl⟩)
  | fill fill plan =>
    dsimp only at h
    rcases hbook : bookFill { a with ledger := l' } fill now with ⟨booking, a₁⟩
    rw [hbook] at h
    refine .inr (.inr ⟨fill, plan, booking, rfl, ?_⟩)
    cases booking with
    | error e =>
      cases h
      exact ⟨hbook, rfl⟩
    | ok booked =>
      cases booked <;> (cases h; exact ⟨hbook, rfl⟩)

/-! ## The simulator -/

/-- `apply` either fills, with one new fill id and the book changed by exactly
that fill, or leaves fill ids, filled quantities and the book alone. -/
def ApplyAtomic (sim : PaperFillSimulator) (intent : PaperOrderIntent) (midUsd : ℚ) (now : Time)
    (a : Accounts) : Prop :=
  (∃ out fill, (sim.apply intent midUsd now a).1 = .ok out ∧ out.status = .filled ∧
      out.fill = some fill ∧ Booked a (sim.apply intent midUsd now a).2 fill now) ∨
  ((∀ out, (sim.apply intent midUsd now a).1 = .ok out → out.status ≠ .filled) ∧
      Untouched a (sim.apply intent midUsd now a).2)

/-- The book covers the fill the simulator sizes, if the ledger accepts it. -/
def FillCovered (sim : PaperFillSimulator) (intent : PaperOrderIntent) (midUsd : ℚ) (now : Time)
    (a : Accounts) : Prop :=
  ∀ fill plan, (sim.prepare intent midUsd now a).1 = .fill fill plan →
    (∃ o, ExecutionLedger.Accepts (sim.prepare intent midUsd now a).2 fill o) →
      a.book.Covers fill

instance (intent : PaperOrderIntent) (midUsd : ℚ) (now : Time) (a : Accounts) :
    Decidable (sim.FillCovered intent midUsd now a) :=
  match h : (sim.prepare intent midUsd now a).1 with
  | .fill fill _ =>
    decidable_of_iff ((∃ o, ExecutionLedger.Accepts (sim.prepare intent midUsd now a).2 fill o) →
        a.book.Covers fill)
      ⟨fun hcov fill' plan hfill => by cases hfill.symm.trans h; exact hcov,
        fun hcov => hcov fill _ h⟩
  | .outcome _ => isTrue fun fill plan hfill => by cases hfill.symm.trans h
  | .raised _ => isTrue fun fill plan hfill => by cases hfill.symm.trans h

/-- The outcomes `prepare` ends with are never FILLED. -/
theorem prepare_outcome {out : PaperFillOutcome} {l' : ExecutionLedger}
    (h : sim.prepare intent midUsd now a = (.outcome out, l')) : out.status ≠ .filled := by
  have hcheck : ∀ {plan a o key quantity price hq hp},
      sim.checkFill intent plan a o key quantity price hq hp = .outcome out →
        out.status ≠ .filled := by
    intro plan a o key quantity price hq hp h
    unfold checkFill at h
    split at h
    · cases h
      exact nofun
    · split at h
      · cases h
        exact nofun
      · cases h
  unfold prepare at h
  split at h
  · cases h
  split at h
  · cases h
    exact nofun
  dsimp only at h
  split at h
  · rename_i out' hrefuse
    cases h
    obtain ⟨o, -, hout⟩ := Option.bind_eq_some_iff.mp hrefuse
    unfold refusal at hout
    split at hout
    · cases hout
      exact nofun
    · split at hout
      · cases hout
        exact nofun
      · cases hout
  split at h
  · cases h
    show (if _ then _ else _) ≠ PaperFillStatus.filled
    split <;> exact nofun
  split at h
  · rw [Prod.mk.injEq] at h
    exact hcheck h.1
  split at h
  · cases h
  · rw [Prod.mk.injEq] at h
    exact hcheck h.1

/-- **What FILLED means**: the prepared fill was applied to the book. -/
theorem filled_spec {out : PaperFillOutcome} {a' : Accounts}
    (h : sim.apply intent midUsd now a = (.ok out, a')) (hstatus : out.status = .filled) :
    ∃ fill plan l' o, out.fill = some fill ∧ PreparedFill sim intent midUsd now a fill plan l' o ∧
      a.book.applyFill fill.asset fill.side fill.quantity fill.priceUsd fill.feeUsd now none
        = (.ok (), a'.book) := by
  obtain ⟨p, l', hprep, ⟨out', rfl, hout, -⟩ | ⟨e, -, herror, -⟩ |
    ⟨fill, plan, booking, rfl, hbook, hout⟩⟩ := apply_cases h
  · cases hout
    exact absurd hstatus (prepare_outcome hprep)
  · cases herror
  obtain ⟨o, hprepared⟩ := prepare_fill hprep
  split at hout
  · cases hout
  · cases hout
    cases hstatus
  · cases hout
    refine ⟨fill, plan, l', o, rfl, hprepared, ?_⟩
    rcases bookFill_cases hbook with ⟨-, ⟨hfalse, -⟩ | ⟨e, herror, -⟩⟩ | ⟨-, -, -, happlied, -⟩
    · cases hfalse
    · cases herror
    · exact happlied

/-- The stored order a prepared fill goes to. -/
theorem prepared_stored {fill : ExecutionFill} {plan : ExecutionPlan} {l' : ExecutionLedger}
    {o : ExecutionOrder} (hp : PreparedFill sim intent midUsd now a fill plan l' o) :
    l'.orders.get? o.orderId = some o := by
  rcases hp.order with ⟨hex, -, rfl⟩ | ⟨-, -, hreg⟩
  · exact (ExecutionLedger.mem_ordersForDecision.mp (List.mem_of_mem_head? hex)).1
  · rw [(ExecutionLedger.registerOrder_ok hreg).1, ExecutionLedger.get?_put, if_pos rfl]

/-- It is an order of the decision. -/
theorem decisionId_of_prepared {l' : ExecutionLedger} {o : ExecutionOrder}
    (h : PreparedFill sim intent midUsd now a fill plan l' o) :
    o.decisionId = intent.decisionId := by
  rcases h.order with ⟨hexisting, -, -⟩ | ⟨-, rfl, -⟩
  · exact (ExecutionLedger.mem_ordersForDecision.mp (List.mem_of_mem_head? hexisting)).2
  · exact (ExecutionPlanner.planned_of_ok h.planned).decisionId

/-- What `apply` leaves: the ledger as `prepare` left it, and nothing FILLED; or the
prepared fill recorded on the decision's order, and FILLED if the book covers it. -/
inductive Applied (sim : PaperFillSimulator) (intent : PaperOrderIntent) (midUsd : ℚ) (now : Time)
    (a : Accounts) : Except PaperFillError PaperFillOutcome → Accounts → Prop
  | unrecorded {r : Except PaperFillError PaperFillOutcome} {p : Prepared} {l' : ExecutionLedger}
      (hprepare : sim.prepare intent midUsd now a = (p, l'))
      (hunfilled : ∀ out, r = .ok out → out.status ≠ .filled) :
      Applied sim intent midUsd now a r { a with ledger := l' }
  | recorded {r : Except PaperFillError PaperFillOutcome} {fill : ExecutionFill}
      {plan : ExecutionPlan} {l' : ExecutionLedger} {o : ExecutionOrder}
      (hprepare : sim.prepare intent midUsd now a = (.fill fill plan, l'))
      (hprepared : PreparedFill sim intent midUsd now a fill plan l' o)
      (houtcome : (r = .ok ⟨.filled, none, some fill, some plan, fill.feeUsd⟩ ∧
          a.book.Covers fill) ∨
        ∃ e, r = .error (.booking (.book e)) ∧ ¬a.book.Covers fill) :
      Applied sim intent midUsd now a r
        { ledger := (l'.put (o.withFill fill now)).markProcessed fill.fillId
          book := (a.book.applyFill fill.asset fill.side fill.quantity fill.priceUsd fill.feeUsd
            now none).2 }

theorem applied_of_apply {r : Except PaperFillError PaperFillOutcome} {a' : Accounts}
    (h : sim.apply intent midUsd now a = (r, a')) : Applied sim intent midUsd now a r a' := by
  obtain ⟨p, l', hprep, ⟨out, rfl, rfl, rfl⟩ | ⟨e, rfl, rfl, rfl⟩ |
    ⟨fill, plan, booking, rfl, hbook, rfl⟩⟩ := apply_cases h
  · refine .unrecorded hprep fun out' hout' => ?_
    cases hout'
    exact prepare_outcome hprep
  · exact .unrecorded hprep fun out' hout' => by cases hout'
  obtain ⟨o, hprepared⟩ := prepare_fill hprep
  rcases bookFill_cases hbook with ⟨rfl, ⟨rfl, -⟩ | ⟨e, rfl, -⟩⟩ | ⟨o', hacc, hl, happly, hend⟩
  · refine .unrecorded hprep fun out hout => ?_
    cases hout
    exact nofun
  · exact .unrecorded hprep fun out hout => by cases hout
  · -- the fill names the order by its key
    have hsame : o' = o := by
      have hfound := hacc.found
      unfold ExecutionLedger.findOrder at hfound
      rw [hprepared.orderId, prepared_stored hprepared] at hfound
      exact (Option.some.inj hfound).symm
    subst hsame
    have hleft : a' = ⟨(l'.put (o'.withFill fill now)).markProcessed fill.fillId,
        (a.book.applyFill fill.asset fill.side fill.quantity fill.priceUsd fill.feeUsd now
          none).2⟩ := by
      rw [happly, ← hl]
    rw [hleft]
    refine .recorded hprep hprepared ?_
    rcases hend with ⟨rfl, hcov⟩ | ⟨e, rfl, hcov⟩
    · exact .inl ⟨rfl, hcov⟩
    · exact .inr ⟨e, rfl, hcov⟩

theorem applyAtomic_iff (sim : PaperFillSimulator) (intent : PaperOrderIntent) (midUsd : ℚ)
    (now : Time) (a : Accounts) :
    ApplyAtomic sim intent midUsd now a ↔ FillCovered sim intent midUsd now a := by
  unfold ApplyAtomic FillCovered
  rcases happ : sim.apply intent midUsd now a with ⟨r, a'⟩
  obtain ⟨p, l', hprep, hcase⟩ := apply_cases happ
  have huntouched := untouched_prepare hprep
  rw [hprep]
  rcases hcase with ⟨out, rfl, rfl, rfl⟩ | ⟨e, rfl, rfl, rfl⟩ |
    ⟨fill, plan, booking, rfl, hbook, hr⟩
  · -- ended before the booking
    refine ⟨fun _ fill plan h => (nomatch h), fun _ => .inr ⟨?_, huntouched⟩⟩
    rintro _ ⟨⟩
    exact prepare_outcome hprep
  · refine ⟨fun _ fill plan h => (nomatch h), fun _ => .inr ⟨?_, huntouched⟩⟩
    intro out h
    cases h
  have hiff := bookFill_atomic_iff hbook
  constructor
  · intro hatomic fill' plan' hfill hacc
    cases hfill
    refine hiff.mp ?_ hacc
    rcases hatomic with ⟨out, fill', hout, hstatus, hsome, hbooked⟩ | ⟨hnot, hun⟩
    · -- FILLED comes only from a booking that succeeded
      have hok : booking = .ok true ∧ fill' = fill := by
        rw [hr] at hout
        split at hout
        · cases hout
        · cases hout
          cases hstatus
        · cases hout
          cases hsome
          exact ⟨rfl, rfl⟩
      obtain ⟨rfl, rfl⟩ := hok
      exact .inl ⟨rfl, (booked_iff_of_untouched huntouched).mp hbooked⟩
    · have hne : booking ≠ .ok true := by
        rintro rfl
        exact hnot _ hr rfl
      exact .inr ⟨hne, hun.processed.trans huntouched.processed.symm,
        fun k => (hun.filled k).trans (huntouched.filled k).symm, hun.book⟩
  · intro hcov
    rcases hiff.mpr (hcov fill plan rfl) with ⟨rfl, hbooked⟩ | ⟨hne, hun⟩
    · exact .inl ⟨_, fill, hr, rfl, rfl, (booked_iff_of_untouched huntouched).mpr hbooked⟩
    · refine .inr ⟨fun out hout => ?_, huntouched.trans hun⟩
      rw [hr] at hout
      split at hout
      · cases hout
      · cases hout
        exact nofun
      · exact absurd rfl hne

/-- A prepared sale exceeds the holding by at most the tolerance. -/
theorem quantity_le_of_prepared {l' : ExecutionLedger} {o : ExecutionOrder}
    (h : PreparedFill sim intent midUsd now a fill plan l' o) (hs : intent.side = .sell) :
    fill.quantity ≤ a.book.heldQuantity (Text.upper intent.asset) + fillTolerance := by
  have hshort := h.notShort
  rw [← h.quantity] at hshort
  unfold shortSaleReason at hshort
  rw [if_neg (not_not.mpr hs)] at hshort
  dsimp only at hshort
  split at hshort
  · cases hshort
  · exact not_lt.mp ‹_›

end PaperFillSimulator

/-! ## The reconciler -/

namespace Reconciler

variable {c : Reconciler} {row : Row} {now : Time} {a : Accounts}

/-- A trade row is recorded in the ledger and applied to the book, or neither. -/
def RowAtomic (c : Reconciler) (row : Row) (now : Time) (a : Accounts) : Prop :=
  ((c.tradeRow row now a).1 = .ok true ∧
      ∃ fill, c.readTrade a.ledger row = .ok (some fill) ∧
        Booked a (c.tradeRow row now a).2 fill now) ∨
    ((c.tradeRow row now a).1 ≠ .ok true ∧ Untouched a (c.tradeRow row now a).2)

/-- The book covers the row's fill, if the ledger accepts it. -/
def RowCovered (c : Reconciler) (row : Row) (a : Accounts) : Prop :=
  ∀ fill, c.readTrade a.ledger row = .ok (some fill) →
    (∃ o, ExecutionLedger.Accepts a.ledger fill o) → a.book.Covers fill

instance (c : Reconciler) (row : Row) (a : Accounts) : Decidable (c.RowCovered row a) :=
  match h : c.readTrade a.ledger row with
  | .ok (some fill) =>
    decidable_of_iff ((∃ o, ExecutionLedger.Accepts a.ledger fill o) → a.book.Covers fill)
      ⟨fun hcov fill' hfill => by cases hfill.symm.trans h; exact hcov, fun hcov => hcov fill h⟩
  | .ok none => isTrue fun fill hfill => by cases hfill.symm.trans h
  | .error _ => isTrue fun fill hfill => by cases hfill.symm.trans h

theorem rowAtomic_iff (c : Reconciler) (row : Row) (now : Time) (a : Accounts) :
    RowAtomic c row now a ↔ RowCovered c row a := by
  unfold RowAtomic RowCovered tradeRow
  rcases hread : c.readTrade a.ledger row with e | fill
  · exact ⟨fun _ => nofun, fun _ => .inr ⟨nofun, .refl a⟩⟩
  rcases fill with _ | fill
  · exact ⟨fun _ => nofun, fun _ => .inr ⟨nofun, .refl a⟩⟩
  rcases hbook : bookFill a fill now with ⟨r, a'⟩
  have hiff := bookFill_atomic_iff hbook
  dsimp only
  rw [hbook]
  constructor
  · rintro hatomic _ ⟨⟩
    refine hiff.mp ?_
    cases r with
    | error e =>
      rcases hatomic with ⟨hok, -⟩ | ⟨-, hun⟩
      · cases hok
      · exact .inr ⟨nofun, hun⟩
    | ok booked =>
      rcases hatomic with ⟨hok, fill', hfill, hbooked⟩ | ⟨hne, hun⟩
      · cases hok
        cases hfill
        exact .inl ⟨rfl, hbooked⟩
      · exact .inr ⟨fun h => hne (by rw [Except.ok.inj h]), hun⟩
  · intro hcov
    rcases hiff.mpr (hcov fill rfl) with ⟨rfl, hbooked⟩ | ⟨hne, hun⟩
    · exact .inl ⟨rfl, fill, rfl, hbooked⟩
    · right
      cases r with
      | error e => exact ⟨nofun, hun⟩
      | ok booked => exact ⟨fun h => hne (by rw [Except.ok.inj h]), hun⟩

/-- Every row the pass handles is atomic; a raising row is the last one handled. -/
def RowsAtomic (c : Reconciler) (now : Time) : List Row → Accounts → Prop
  | [], _ => True
  | row :: rows, a =>
    RowAtomic c row now a ∧
      ((c.tradeRow row now a).1.toOption.isSome → c.RowsAtomic now rows (c.tradeRow row now a).2)

/-- The book covers every fill the ledger accepts, row by row. -/
def RowsCovered (c : Reconciler) (now : Time) : List Row → Accounts → Prop
  | [], _ => True
  | row :: rows, a =>
    RowCovered c row a ∧
      ((c.tradeRow row now a).1.toOption.isSome → c.RowsCovered now rows (c.tradeRow row now a).2)

theorem rowsAtomic_iff (c : Reconciler) (now : Time) (rows : List Row) :
    ∀ a, RowsAtomic c now rows a ↔ RowsCovered c now rows a := by
  induction rows with
  | nil => exact fun _ => Iff.rfl
  | cons row rows ih =>
    intro a
    unfold RowsAtomic RowsCovered
    rw [rowAtomic_iff, ih]

end Reconciler

/-- **Ledger and book move together exactly when** every sale the ledger accepts
is covered by the holding: for one simulated fill, and for every row of a pass. -/
theorem bookings_atomic_iff (sim : PaperFillSimulator) (intent : PaperOrderIntent) (midUsd : ℚ)
    (c : Reconciler) (rows : List Row) (now : Time) (a : Accounts) :
    (sim.ApplyAtomic intent midUsd now a ↔ sim.FillCovered intent midUsd now a) ∧
      (c.RowsAtomic now rows a ↔ c.RowsCovered now rows a) :=
  ⟨sim.applyAtomic_iff intent midUsd now a, c.rowsAtomic_iff now rows a⟩

/-! ### A sale within the tolerance -/

namespace Oversold

theorem one_pos : (0 : ℚ) < 1 := by norm_num

theorem ten_nonneg : (0 : ℚ) ≤ 10 := by norm_num

theorem fifty_nonneg : (0 : ℚ) ≤ 50 := by norm_num

theorem hundred_pos : (0 : ℚ) < 100 := by norm_num

theorem thousand_pos : (0 : ℚ) < 1000 := by norm_num

/-- A simulator that fills at the mid, with lots of 1e-8. -/
def sim : PaperFillSimulator where
  planner :=
    { lotStep := 1 / 10 ^ 8, minNotionalUsd := 10, maxSlippageBps := 50, quoteCurrency := "USD"
      clientOrderIdPrefix := "ts", digest := id
      lotStep_pos := by norm_num, minNotional_pos := by norm_num
      maxSlippage_nonneg := fifty_nonneg }
  paperFeeBps := 10
  paperSlippageBps := 0
  tradingMode := .paper
  paperFee_nonneg := ten_nonneg
  paperSlippage_nonneg := zero_nonneg

/-- A discretionary SELL of 1 BTC at 100. -/
def intent : PaperOrderIntent where
  decisionId := "d1"
  asset := "BTC"
  side := .sell
  notionalUsd := 100
  venue := "kraken_paper_trade"
  reduceOnly := false
  notional_pos := hundred_pos

/-- A book holding half a tolerance less than 1 BTC, and an empty ledger. -/
def accounts : Accounts where
  ledger := .empty
  book := ((PortfolioBook.fresh 1000 thousand_pos).applyFill "BTC" .buy (1 - 1 / (2 * 10 ^ 12))
    100 0 0 none).2

/-- A SELL trade of 1 BTC on an order the ledger submitted. -/
def tradeRows : List Row :=
  [Dict.ofList [("order_id", .str "v1"), ("trade_id", .str "t1"), ("trading_pair", .str "BTC-USD"),
    ("trade_type", .str "SELL"), ("amount", .num 1), ("price", .num 100), ("fee", .num 1)]]

/-- The ledger that submitted it, over a book that holds too little. -/
def submitted : Accounts where
  ledger := ExecutionLedger.empty.put
    { orderId := "ts-d1", decisionId := "d1", asset := "BTC", side := .sell
      requestedQuantity := 1, state := .submitted, filledQuantity := 0
      averageFillPriceUsd := none, lastUpdatedAt := 0, clientOrderId := some "ts-d1"
      venueOrderId := some "v1", submissionAttempts := 1, reason := none, feesPaidUsd := 0
      feeSource := none, requested_pos := one_pos, filled_nonneg := zero_nonneg
      averageFill_pos := pos_of_mem_none, feesPaid_nonneg := zero_nonneg }
  book := accounts.book

end Oversold

/-- **Neither booking is atomic for every input.** A SELL of 1 BTC from a holding
of 1 - 5e-13 passes the simulator's tolerance, is recorded in the ledger and then
refused by the book; so is a venue SELL trade larger than the holding. -/
theorem not_bookings_atomic :
    ¬(∀ (sim : PaperFillSimulator) (intent : PaperOrderIntent) (midUsd : ℚ) (now : Time)
        (a : Accounts), sim.ApplyAtomic intent midUsd now a) ∧
      ¬∀ (c : Reconciler) (now : Time) (rows : List Row) (a : Accounts),
        c.RowsAtomic now rows a := by
  constructor
  · intro hall
    have hraised : (Oversold.sim.apply Oversold.intent 100 0 Oversold.accounts).1
        = .error (.booking (.book .oversell)) := by decide +kernel
    have hrecorded : "paper-fill:ts-d1" ∈
        (Oversold.sim.apply Oversold.intent 100 0 Oversold.accounts).2.ledger.processedFillIds := by
      decide +kernel
    rcases hall Oversold.sim Oversold.intent 100 0 Oversold.accounts with
      ⟨out, fill, hok, -⟩ | ⟨-, hun⟩
    · rw [hraised] at hok
      cases hok
    · rw [hun.processed] at hrecorded
      exact absurd hrecorded (by decide +kernel)
  · intro hall
    have hrecorded : "t1" ∈ ((Reconciler.mk 10 Oversold.ten_nonneg).tradeRow
        (Oversold.tradeRows.headD Dict.empty) 0 Oversold.submitted).2.ledger.processedFillIds := by
      decide +kernel
    have hraised : ((Reconciler.mk 10 Oversold.ten_nonneg).tradeRow
        (Oversold.tradeRows.headD Dict.empty) 0 Oversold.submitted).1
        = .error (.booking (.book .oversell)) := by decide +kernel
    rcases (hall (Reconciler.mk 10 Oversold.ten_nonneg) 0 Oversold.tradeRows Oversold.submitted).1 with
      ⟨hok, -⟩ | ⟨-, hun⟩
    · exact absurd (hraised.symm.trans hok) (by decide)
    · exact absurd (hun.processed ▸ hrecorded) (by decide +kernel)

end TraderStack
