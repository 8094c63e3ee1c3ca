import TraderStack.Execution.Ledger

/-!
# The paper report's fills (acceptance/report.py)

The report reads the persisted ledger and makes one fill of each order that
traded: its filled quantity at its average price, dated by the order's last
update.
-/

namespace TraderStack

open Lib

/-- `PaperFill` (report.py:64–80). -/
structure PaperFill where
  observedAt : Time
  orderId : String
  decisionId : String
  asset : String
  side : Side
  quantity : ℚ
  priceUsd : ℚ
  feeUsd : ℚ
  feeSource : Option FeeSource
  quantity_pos : 0 < quantity
  price_pos : 0 < priceUsd
  fee_nonneg : 0 ≤ feeUsd

/-- `notional_usd` (report.py:78–80). -/
def PaperFill.notionalUsd (f : PaperFill) : ℚ := f.quantity * f.priceUsd

/-- The fill the report makes of an order, if it does (report.py:151–171). -/
def paperFill (asset : Option String) (o : ExecutionOrder) : Option PaperFill :=
  if hq : o.filledQuantity ≤ 0 then none
  else
    match hp : o.averageFillPriceUsd with
    | none => none
    | some price =>
      if o.state = .rejected ∨ o.state = .expired then none
      else if asset.any fun name => Text.upper o.asset ≠ Text.upper name then none
      else
        some
          { observedAt := o.lastUpdatedAt
            orderId := o.orderId
            decisionId := o.decisionId
            asset := Text.upper o.asset
            side := o.side
            quantity := o.filledQuantity
            priceUsd := price
            feeUsd := o.feesPaidUsd
            feeSource := o.feeSource
            quantity_pos := pos_of_check hq
            price_pos := o.averageFill_pos price hp
            fee_nonneg := o.feesPaid_nonneg }

/-- `fills_from_ledger` (report.py:141–173): oldest first, and in the order of
the ledger where the dates agree. -/
def fillsFromLedger (l : ExecutionLedger) (asset : Option String) : List PaperFill :=
  (l.orders.values.filterMap (paperFill asset)).insertionSort
    fun f g => f.observedAt ≤ g.observedAt

/-- What the report takes over from an order. -/
theorem paperFill_some {asset : Option String} {o : ExecutionOrder} {f : PaperFill}
    (h : paperFill asset o = some f) :
    0 < o.filledQuantity ∧ f.orderId = o.orderId ∧ f.observedAt = o.lastUpdatedAt := by
  unfold paperFill at h
  split at h
  · cases h
  rename_i hq
  split at h
  · cases h
  split at h
  · cases h
  split at h
  · cases h
  · rw [← Option.some.inj h]
    exact ⟨not_le.mp hq, rfl, rfl⟩

instance : Std.Total fun f g : PaperFill => f.observedAt ≤ g.observedAt where
  total f g := le_total f.observedAt g.observedAt

instance : IsTrans PaperFill fun f g => f.observedAt ≤ g.observedAt where
  trans f g h := @le_trans Time _ f.observedAt g.observedAt h.observedAt

/-- The report's fills are sorted by their dates. -/
theorem pairwise_fillsFromLedger (l : ExecutionLedger) (asset : Option String) :
    (fillsFromLedger l asset).Pairwise fun f g => f.observedAt ≤ g.observedAt :=
  List.pairwise_insertionSort _ _

theorem mem_fillsFromLedger {l : ExecutionLedger} {asset : Option String} {f : PaperFill} :
    f ∈ fillsFromLedger l asset ↔
      ∃ k o, l.orders.get? k = some o ∧ paperFill asset o = some f := by
  unfold fillsFromLedger
  rw [List.mem_insertionSort, List.mem_filterMap]
  constructor
  · rintro ⟨o, ho, hf⟩
    obtain ⟨k, hk⟩ := Dict.mem_values_iff.mp ho
    exact ⟨k, o, hk, hf⟩
  · rintro ⟨k, o, hk, hf⟩
    exact ⟨o, Dict.mem_values_iff.mpr ⟨k, hk⟩, hf⟩

end TraderStack
