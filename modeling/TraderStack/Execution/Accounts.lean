import TraderStack.Execution.Ledger
import TraderStack.Portfolio.BookTheory

/-!
# The ledger and the book together

The two records every booking touches, and the step both the paper-fill
simulator and the venue reconciler take with a fill: record it in the ledger,
then apply it to the book. The two are mutated one after the other, and the
second can refuse what the first accepted.

- `Booked`: the fill is new in the ledger and applied to the book;
- `Untouched`: no fill id, no filled quantity and nothing of the book changed;
- `bookFill_cases`: a booking is one of these, or the ledger recorded a sale
  larger than the book holds.
-/

namespace TraderStack

open Lib

/-- The mutable records of a process. -/
structure Accounts where
  ledger : ExecutionLedger
  book : PortfolioBook

/-- Why a booking raised. -/
inductive BookingError where
  | ledger (e : LedgerError)
  | book (e : BookError)
deriving DecidableEq, Repr

/-- `if ledger.record_fill(fill): portfolio.apply_fill(...)`: whether the fill
was new, and the records it leaves (paper_fill.py:190–200, reconcile.py:230–234). -/
def bookFill (a : Accounts) (fill : ExecutionFill) (now : Time) :
    Except BookingError Bool × Accounts :=
  match a.ledger.recordFill fill now with
  | .error e => (.error (.ledger e), a)
  | .ok (false, ledger) => (.ok false, { a with ledger := ledger })
  | .ok (true, ledger) =>
    match a.book.applyFill fill.asset fill.side fill.quantity fill.priceUsd fill.feeUsd now
        none with
    | (.error e, book) => (.error (.book e), ⟨ledger, book⟩)
    | (.ok (), book) => (.ok true, ⟨ledger, book⟩)

/-- The filled quantity of the order under a key, 0 when there is none. -/
def ExecutionLedger.filledOf (l : ExecutionLedger) (k : String) : ℚ :=
  (l.orders.get? k).elim 0 ExecutionOrder.filledQuantity

/-- Does the book accept the fill? A sale must be covered by the holding. -/
def PortfolioBook.Covers (b : PortfolioBook) (fill : ExecutionFill) : Prop :=
  fill.side = .sell → fill.quantity ≤ b.heldQuantity (Text.upper fill.asset)

instance (b : PortfolioBook) (fill : ExecutionFill) : Decidable (b.Covers fill) := by
  unfold PortfolioBook.Covers
  infer_instance

/-- The fill is new in the ledger and applied to the book. -/
structure Booked (a a' : Accounts) (fill : ExecutionFill) (now : Time) : Prop where
  fresh : fill.fillId ∉ a.ledger.processedFillIds
  processed : a'.ledger.processedFillIds = insert fill.fillId a.ledger.processedFillIds
  applied : a.book.applyFill fill.asset fill.side fill.quantity fill.priceUsd fill.feeUsd now none
    = (.ok (), a'.book)

/-- No fill id, no filled quantity and nothing of the book changed. -/
structure Untouched (a a' : Accounts) : Prop where
  processed : a'.ledger.processedFillIds = a.ledger.processedFillIds
  filled : ∀ k, a'.ledger.filledOf k = a.ledger.filledOf k
  book : a'.book = a.book

theorem Untouched.refl (a : Accounts) : Untouched a a := ⟨rfl, fun _ => rfl, rfl⟩

theorem Untouched.trans {a b c : Accounts} (h : Untouched a b) (h' : Untouched b c) :
    Untouched a c :=
  ⟨h'.processed.trans h.processed, fun k => (h'.filled k).trans (h.filled k),
    h'.book.trans h.book⟩

/-- Steps that touched nothing may precede a booking. -/
theorem booked_iff_of_untouched {a b c : Accounts} {fill : ExecutionFill} {now : Time}
    (h : Untouched a b) : Booked a c fill now ↔ Booked b c fill now := by
  constructor
  · exact fun hb => ⟨h.processed ▸ hb.fresh, hb.processed.trans (h.processed ▸ rfl),
      h.book ▸ hb.applied⟩
  · exact fun hb => ⟨h.processed ▸ hb.fresh, hb.processed.trans (h.processed ▸ rfl),
      h.book ▸ hb.applied⟩

variable {a a' : Accounts} {fill : ExecutionFill} {now : Time}

theorem covers_iff_applyFill_ok (b : PortfolioBook) (fill : ExecutionFill) (now : Time) :
    b.Covers fill ↔
      (b.applyFill fill.asset fill.side fill.quantity fill.priceUsd fill.feeUsd now none).1
        = .ok () := by
  rw [PortfolioBook.applyFill_ok_iff]
  exact ⟨fun h => ⟨fill.quantity_pos, fill.price_pos, fill.fee_nonneg, h⟩, fun h => h.2.2.2⟩

/-- **What a booking does**: nothing, because the id is known or the ledger
refuses the fill; or it books the fill on the order it names; or the ledger has
recorded a sale the book does not cover. -/
theorem bookFill_cases {r : Except BookingError Bool} (h : bookFill a fill now = (r, a')) :
    (a' = a ∧ ((r = .ok false ∧ fill.fillId ∈ a.ledger.processedFillIds) ∨
      (∃ e, r = .error (.ledger e) ∧ fill.fillId ∉ a.ledger.processedFillIds))) ∨
    (∃ o, ExecutionLedger.Accepts a.ledger fill o ∧
      a'.ledger = (a.ledger.put (o.withFill fill now)).markProcessed fill.fillId ∧
      a.book.applyFill fill.asset fill.side fill.quantity fill.priceUsd fill.feeUsd now none
        = (match r with | .error (.book e) => .error e | _ => .ok (), a'.book) ∧
      ((r = .ok true ∧ a.book.Covers fill) ∨
        (∃ e, r = .error (.book e) ∧ ¬a.book.Covers fill))) := by
  unfold bookFill at h
  have hrecord := ExecutionLedger.recordFill_cases (Eq.refl (a.ledger.recordFill fill now))
  rcases hrecord with
    ⟨hmem, hr⟩ | ⟨e, hr, hfresh⟩ | ⟨o, hacc, hr⟩
  · rw [hr] at h
    cases h
    exact .inl ⟨rfl, .inl ⟨rfl, hmem⟩⟩
  · rw [hr] at h
    cases h
    exact .inl ⟨rfl, .inr ⟨e, rfl, hfresh⟩⟩
  · rw [hr] at h
    dsimp only at h
    right
    refine ⟨o, hacc, ?_⟩
    have hcov := covers_iff_applyFill_ok a.book fill now
    rcases happly : a.book.applyFill fill.asset fill.side fill.quantity fill.priceUsd
      fill.feeUsd now none with ⟨res, book⟩
    rw [happly] at h hcov
    cases res with
    | error e =>
      cases h
      refine ⟨rfl, rfl, .inr ⟨e, rfl, fun hc => ?_⟩⟩
      cases hcov.mp hc
    | ok u =>
      cases h
      exact ⟨rfl, rfl, .inl ⟨rfl, hcov.mpr rfl⟩⟩

theorem filledOf_put (l : ExecutionLedger) (o : ExecutionOrder) (k : String) :
    (l.put o).filledOf k = if k = o.orderId then o.filledQuantity else l.filledOf k := by
  unfold ExecutionLedger.filledOf
  rw [ExecutionLedger.get?_put]
  split <;> rfl

/-- **A booking is all or nothing exactly when** the book covers what the ledger
accepts. -/
theorem bookFill_atomic_iff {r : Except BookingError Bool}
    (h : bookFill a fill now = (r, a')) :
    ((r = .ok true ∧ Booked a a' fill now) ∨ (r ≠ .ok true ∧ Untouched a a')) ↔
      ((∃ o, ExecutionLedger.Accepts a.ledger fill o) → a.book.Covers fill) := by
  rcases bookFill_cases h with ⟨rfl, hno⟩ | ⟨o, hacc, hl, happly, hok | ⟨e, rfl, hcov⟩⟩
  · -- nothing happened, and the ledger accepts no fill of this id here
    refine ⟨fun _ hacc => ?_, fun _ => .inr ⟨?_, .refl a'⟩⟩
    · rcases hno with ⟨-, hmem⟩ | ⟨e, rfl, -⟩
      · obtain ⟨o, ho⟩ := hacc
        exact absurd hmem ho.fresh
      · obtain ⟨o, ho⟩ := hacc
        unfold bookFill at h
        rw [ExecutionLedger.recordFill_of_accepts ho] at h
        dsimp only at h
        split at h <;> cases h
    · rintro rfl
      rcases hno with ⟨hf, -⟩ | ⟨e, hf, -⟩ <;> cases hf
  · obtain ⟨rfl, hcov⟩ := hok
    refine ⟨fun _ _ => hcov, fun _ => .inl ⟨rfl, hacc.fresh, ?_, happly⟩⟩
    rw [hl]
    rfl
  · -- the ledger recorded the fill and the book refused it
    refine ⟨?_, fun hc => absurd (hc ⟨o, hacc⟩) hcov⟩
    rintro (⟨hf, -⟩ | ⟨-, hun⟩)
    · cases hf
    · exfalso
      have hproc := hun.processed
      rw [hl] at hproc
      exact hacc.fresh (hproc ▸ Finset.mem_insert_self _ _)

end TraderStack
