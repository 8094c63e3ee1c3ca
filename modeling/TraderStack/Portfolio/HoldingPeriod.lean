import Mathlib.Order.Bounds.Basic
import TraderStack.Portfolio.BookTheory

/-!
# Position metadata and the holding period

`opened_at` and `high_water_price_usd` of a position are written in three branches
of `apply_fill` and in `mark`. Here the holding period is said of the history: the
fill that last took the asset from flat to long, and the prices seen since
(`HeldSince`). The metadata of every position is shown to be those of its holding
period, and to be reset when the asset is flat.

- `moved_step`: what one operation does to the position of an asset;
- `tracked_run`: the metadata after every run.
-/

namespace TraderStack

open Lib

namespace PortfolioBook

/-- The price an operation shows of an asset: of a fill the book accepts, or of a
mark. -/
def observedPrice (asset : String) (b : PortfolioBook) : BookOp → Option ℚ
  | .fill a side quantity priceUsd feeUsd now strategyId =>
    if Text.upper a = asset then
      (b.applyFill a side quantity priceUsd feeUsd now strategyId).1.toOption.map fun _ => priceUsd
    else none
  | .mark a priceUsd => if Text.upper a = asset ∧ 0 < priceUsd then some priceUsd else none
  | .snapshot _ => none
  | .restart => none

/-- The prices a run shows of an asset. -/
def observedPrices (asset : String) : PortfolioBook → List BookOp → List ℚ
  | _, [] => []
  | b, op :: ops => (b.observedPrice asset op).toList ++ observedPrices asset (b.step op) ops

theorem observedPrices_concat (asset : String) (b : PortfolioBook) (ops : List BookOp)
    (op : BookOp) :
    observedPrices asset b (ops ++ [op])
      = observedPrices asset b ops ++ ((run step b ops).observedPrice asset op).toList := by
  induction ops generalizing b with
  | nil => exact List.append_nil _
  | cons first ops ih =>
    show (b.observedPrice asset first).toList ++ observedPrices asset (b.step first) (ops ++ [op])
      = _ ++ observedPrices asset (b.step first) ops ++ _
    rw [ih, List.append_assoc]
    rfl

/-- **The holding period of an asset** after a history: a purchase at `openedAt` took
it from flat to long, it has been held ever since, and `prices` are the purchase's
and those seen after it. -/
structure HeldSince (b₀ : PortfolioBook) (ops : List BookOp) (asset : String) (openedAt : Time)
    (prices : List ℚ) : Prop where
  opening : ∃ pre a quantity price fee strategyId post,
    ops = pre ++ .fill a .buy quantity price fee openedAt strategyId :: post ∧
    Text.upper a = asset ∧
    (run step b₀ pre).heldQuantity asset = 0 ∧
    (∀ mid, mid <+: post →
      0 < (run step b₀
        (pre ++ .fill a .buy quantity price fee openedAt strategyId :: mid)).heldQuantity asset) ∧
    prices = price :: observedPrices asset
      (run step b₀ (pre ++ [.fill a .buy quantity price fee openedAt strategyId])) post

/-- The metadata of an asset's position are those of its holding period. -/
structure Tracked (b₀ : PortfolioBook) (ops : List BookOp) (asset : String) (p : Position) :
    Prop where
  flat : p.quantity = 0 → p.openedAt = none ∧ p.highWaterPriceUsd = 0
  held : 0 < p.quantity → ∃ openedAt prices, HeldSince b₀ ops asset openedAt prices ∧
    p.openedAt = some openedAt ∧ IsGreatest { x | x ∈ prices } p.highWaterPriceUsd

variable {b₀ b : PortfolioBook} {asset : String}

/-- A position that stays open keeps its holding period, with the price just seen. -/
theorem HeldSince.concat {ops : List BookOp} {openedAt : Time} {prices : List ℚ}
    (h : HeldSince b₀ ops asset openedAt prices) {op : BookOp}
    (hheld : 0 < ((run step b₀ ops).step op).heldQuantity asset) :
    HeldSince b₀ (ops ++ [op]) asset openedAt
      (prices ++ ((run step b₀ ops).observedPrice asset op).toList) := by
  obtain ⟨pre, a, quantity, price, fee, strategyId, post, rfl, hasset, hflat, hlong, rfl⟩ :=
    h.opening
  refine ⟨pre, a, quantity, price, fee, strategyId, post ++ [op], by simp, hasset, hflat, ?_, ?_⟩
  · intro mid hmid
    rcases List.prefix_concat_iff.mp hmid with rfl | hbefore
    · rw [run_append] at hheld ⊢
      rw [run_cons, run_append, run_cons, run_nil]
      exact hheld
    · exact hlong mid hbefore
  · rw [List.cons_append, observedPrices_concat, ← run_append, List.append_assoc,
      List.singleton_append]

/-- A purchase of a flat asset opens a holding period. -/
theorem heldSince_opening {ops : List BookOp} {a : String} {quantity price fee : ℚ} {now : Time}
    {strategyId : Option String} (hflat : (run step b₀ ops).heldQuantity (Text.upper a) = 0)
    (hheld : 0 < ((run step b₀ ops).step
      (.fill a .buy quantity price fee now strategyId)).heldQuantity (Text.upper a)) :
    HeldSince b₀ (ops ++ [.fill a .buy quantity price fee now strategyId]) (Text.upper a) now
      [price] := by
  refine ⟨ops, a, quantity, price, fee, strategyId, [], rfl, rfl, hflat, ?_, rfl⟩
  intro mid hmid
  rw [List.prefix_nil.mp hmid, run_append]
  exact hheld

/-! ## One operation -/

/-- What an operation does to the position of an asset. -/
inductive Moved (b : PortfolioBook) (asset : String) : BookOp → Position → Prop
  | unseen (op : BookOp) (hprice : b.observedPrice asset op = none) :
    Moved b asset op (b.positionOf asset)
  | marked (a : String) (price : ℚ) (hprice : b.observedPrice asset (.mark a price) = some price) :
    Moved b asset (.mark a price) ((b.positionOf asset).observe price)
  | bought (a : String) (quantity price fee : ℚ) (now : Time) (strategyId : Option String)
      (hasset : Text.upper a = asset) (hq : 0 < quantity) (hp : 0 < price) (hf : 0 ≤ fee)
      (hprice : b.observedPrice asset (.fill a .buy quantity price fee now strategyId)
        = some price) :
    Moved b asset (.fill a .buy quantity price fee now strategyId)
      (((b.positionOf asset).buy quantity price fee now strategyId hq hp hf).observe price)
  | sold (a : String) (quantity price fee : ℚ) (now : Time) (strategyId : Option String)
      (hasset : Text.upper a = asset) (hq : 0 < quantity)
      (hs : quantity ≤ (b.positionOf asset).quantity) (hf : 0 ≤ fee)
      (hprice : b.observedPrice asset (.fill a .sell quantity price fee now strategyId)
        = some price) :
    Moved b asset (.fill a .sell quantity price fee now strategyId)
      (((b.positionOf asset).sell quantity fee hs hf).observe price)

theorem positionOf_of_filled {b' : PortfolioBook} {stored : String} {p : Position}
    {cash realized price : ℚ} (h : Filled b b' stored p cash realized price) (asset : String) :
    b'.positionOf asset = if asset = stored then p.observe price else b.positionOf asset := by
  rw [positionOf, h.positions, Dict.get?_set]
  split <;> rfl

theorem positionOf_setMark (stored : String) (price : ℚ) (hp : 0 < price) (asset : String) :
    (b.setMark stored price hp).positionOf asset
      = if asset = stored then (b.positionOf asset).observe price else b.positionOf asset := by
  rw [positionOf, get?_positions_setMark, positionOf]
  cases b.positions.get? asset with
  | none =>
    have hempty : Position.empty.observe price = Position.empty := if_neg (lt_irrefl 0)
    split
    · exact hempty.symm
    · rfl
  | some p => split <;> rfl

/-- **One operation** leaves the position of an asset, or shows it a price. -/
theorem moved_step (hkeys : UpperKeyed b) (asset : String) (op : BookOp) :
    Moved b asset op ((b.step op).positionOf asset) := by
  cases op with
  | fill a side quantity price fee now strategyId =>
    rcases h : b.applyFill a side quantity price fee now strategyId with ⟨r, b'⟩
    rw [step, h]
    have hprice : b.observedPrice asset (.fill a side quantity price fee now strategyId)
        = if Text.upper a = asset then r.toOption.map fun _ => price else none := by
      rw [observedPrice, h]
    rcases applyFill_cases h with ⟨e, rfl, hb⟩ | ⟨hq, hp, hf, rfl, rfl, hfill⟩ |
      ⟨hs, hf, rfl, hq, -, rfl, hfill⟩
    · -- a refused fill shows nothing
      have hnone : b.observedPrice asset (.fill a side quantity price fee now strategyId)
          = none := by
        rw [hprice]
        split <;> rfl
      have hsame : b'.positionOf asset = b.positionOf asset := by
        rcases hb with rfl | rfl
        · rfl
        · exact positionOf_withPosition b _ asset
      dsimp only
      rw [hsame]
      exact .unseen _ hnone
    · dsimp only
      rw [positionOf_of_filled hfill]
      by_cases hasset : Text.upper a = asset
      · subst hasset
        rw [if_pos rfl]
        have hseen : (if Text.upper a = Text.upper a then some price else none) = some price :=
          if_pos rfl
        exact .bought a quantity price fee now strategyId rfl hq hp hf (hprice.trans hseen)
      · rw [if_neg fun h => hasset h.symm]
        exact .unseen _ (by rw [hprice, if_neg hasset])
    · dsimp only
      rw [positionOf_of_filled hfill]
      by_cases hasset : Text.upper a = asset
      · subst hasset
        rw [if_pos rfl]
        have hseen : (if Text.upper a = Text.upper a then some price else none) = some price :=
          if_pos rfl
        exact .sold a quantity price fee now strategyId rfl hq hs hf (hprice.trans hseen)
      · rw [if_neg fun h => hasset h.symm]
        exact .unseen _ (by rw [hprice, if_neg hasset])
  | mark a price =>
    rcases mark_cases b a price with ⟨h, hp⟩ | ⟨hp, h⟩
    · simp only [step, h]
      exact .unseen _ (if_neg fun hmark => absurd hmark.2 (not_lt.mpr hp))
    · simp only [step, h]
      rw [positionOf_setMark]
      by_cases hasset : Text.upper a = asset
      · rw [if_pos hasset.symm]
        exact .marked a price (if_pos ⟨hasset, hp⟩)
      · rw [if_neg fun h => hasset h.symm]
        exact .unseen _ (if_neg fun hmark => hasset hmark.1)
  | snapshot now =>
    have hsame : (b.step (.snapshot now)).positionOf asset = b.positionOf asset := by
      rw [step, positionOf, (sameBook_snapshot b now).positions, positionOf]
    rw [hsame]
    exact .unseen _ rfl
  | restart =>
    rw [step_restart hkeys]
    exact .unseen _ rfl

/-! ## Runs -/

/-- The greatest of some prices and of one more. -/
theorem isGreatest_concat {prices : List ℚ} {high : ℚ} (h : IsGreatest { x | x ∈ prices } high)
    (price : ℚ) : IsGreatest { x | x ∈ prices ++ [price] } (max high price) := by
  have hset : { x | x ∈ prices ++ [price] } = { x | x ∈ prices } ∪ {price} := by
    ext x
    simp only [List.mem_append, List.mem_singleton, Set.mem_ofPred_eq, Set.mem_union,
      Set.mem_singleton_iff]
  rw [hset]
  exact h.union isGreatest_singleton

/-- A position that was open and still is tracks on. -/
theorem Tracked.extend {ops : List BookOp} {p' : Position}
    (h : Tracked b₀ ops asset ((run step b₀ ops).positionOf asset)) {op : BookOp} {price : ℚ}
    (hprice : (run step b₀ ops).observedPrice asset op = some price)
    (hposition : ((run step b₀ ops).step op).positionOf asset = p')
    (hbefore : 0 < ((run step b₀ ops).positionOf asset).quantity) (hafter : 0 < p'.quantity)
    (hopened : p'.openedAt = ((run step b₀ ops).positionOf asset).openedAt)
    (hhigh : p'.highWaterPriceUsd
      = max ((run step b₀ ops).positionOf asset).highWaterPriceUsd price) :
    Tracked b₀ (ops ++ [op]) asset p' where
  flat := fun hzero => absurd hafter (by rw [hzero]; exact lt_irrefl 0)
  held := by
    intro _
    obtain ⟨openedAt, prices, hsince, hopen, hgreatest⟩ := h.held hbefore
    have hheld : 0 < ((run step b₀ ops).step op).heldQuantity asset := by
      rw [heldQuantity, hposition]
      exact hafter
    refine ⟨openedAt, prices ++ [price], ?_, hopened.trans hopen, ?_⟩
    · have hnext := hsince.concat hheld
      rw [hprice] at hnext
      exact hnext
    · rw [hhigh]
      exact isGreatest_concat hgreatest price

/-- **One operation** keeps the metadata those of the holding period. -/
theorem Tracked.step {ops : List BookOp}
    (h : Tracked b₀ ops asset ((run step b₀ ops).positionOf asset)) {op : BookOp} {p' : Position}
    (hmoved : Moved (run PortfolioBook.step b₀ ops) asset op p')
    (hposition : ((run PortfolioBook.step b₀ ops).step op).positionOf asset = p') :
    Tracked b₀ (ops ++ [op]) asset p' := by
  cases hmoved with
  | unseen _ hprice =>
    refine ⟨h.flat, fun hheld => ?_⟩
    obtain ⟨openedAt, prices, hsince, hopen, hgreatest⟩ := h.held hheld
    have hafter : 0 < ((run PortfolioBook.step b₀ ops).step op).heldQuantity asset := by
      rw [heldQuantity, hposition]
      exact hheld
    have hnext := hsince.concat hafter
    rw [hprice, Option.toList_none, List.append_nil] at hnext
    exact ⟨openedAt, prices, hnext, hopen, hgreatest⟩
  | marked a price hprice =>
    by_cases hheld : 0 < ((run PortfolioBook.step b₀ ops).positionOf asset).quantity
    · have hobserve : ((run PortfolioBook.step b₀ ops).positionOf asset).observe price
          = { (run PortfolioBook.step b₀ ops).positionOf asset with
              highWaterPriceUsd := max ((run PortfolioBook.step b₀ ops).positionOf
                asset).highWaterPriceUsd price
              highWater_nonneg := le_max_of_le_left ((run PortfolioBook.step b₀ ops).positionOf
                asset).highWater_nonneg } := if_pos hheld
      refine h.extend hprice hposition hheld ?_ ?_ ?_
      · rw [Position.observe_quantity]
        exact hheld
      · rw [hobserve]
      · rw [hobserve]
    · -- a flat position sees no mark
      have hobserve : ((run PortfolioBook.step b₀ ops).positionOf asset).observe price
          = (run PortfolioBook.step b₀ ops).positionOf asset := if_neg hheld
      rw [hobserve]
      exact ⟨h.flat, fun hpos => absurd hpos hheld⟩
  | bought a quantity price fee now strategyId hasset hq hp hf hprice =>
    subst hasset
    have hnonneg := ((run PortfolioBook.step b₀ ops).positionOf (Text.upper a)).quantity_nonneg
    have hlong : 0 < (((run PortfolioBook.step b₀ ops).positionOf (Text.upper a)).buy quantity price
        fee now strategyId hq hp hf).quantity := add_pos_of_nonneg_of_pos hnonneg hq
    by_cases hflat : ((run PortfolioBook.step b₀ ops).positionOf (Text.upper a)).quantity = 0
    · -- the fill opens the position
      refine ⟨fun hzero => ?_, fun hheld => ?_⟩
      · rw [Position.observe_quantity] at hzero
        exact absurd hlong (by rw [hzero]; exact lt_irrefl 0)
      refine ⟨now, [price], heldSince_opening hflat ?_, ?_, ?_⟩
      · rw [heldQuantity, hposition]
        exact hheld
      · rw [Position.observe, if_pos hlong]
        exact if_pos hflat
      · have hhigh : ((((run PortfolioBook.step b₀ ops).positionOf (Text.upper a)).buy quantity
            price fee now strategyId hq hp hf).observe price).highWaterPriceUsd = price := by
          rw [Position.observe, if_pos hlong]
          show max (if _ = 0 then price else _) price = price
          rw [if_pos hflat, max_self]
        rw [hhigh]
        simp
    · have hheld := lt_of_le_of_ne hnonneg (Ne.symm hflat)
      refine h.extend hprice hposition hheld ?_ ?_ ?_
      · rw [Position.observe_quantity]
        exact hlong
      · rw [Position.observe, if_pos hlong]
        exact if_neg hflat
      · rw [Position.observe, if_pos hlong]
        show max (if _ = 0 then price else max _ price) price = _
        rw [if_neg hflat, max_assoc, max_self]
  | sold a quantity price fee now strategyId hasset hq hs hf hprice =>
    subst hasset
    have hheld := hq.trans_le hs
    by_cases hclosed : (((run PortfolioBook.step b₀ ops).positionOf (Text.upper a)).sell quantity
        fee hs hf).quantity = 0
    · -- the fill closes it
      have hobserve : (((run PortfolioBook.step b₀ ops).positionOf (Text.upper a)).sell quantity fee
          hs hf).observe price
          = ((run PortfolioBook.step b₀ ops).positionOf (Text.upper a)).sell quantity fee hs hf :=
        if_neg (by rw [hclosed]; exact lt_irrefl 0)
      rw [hobserve]
      refine ⟨fun _ => ⟨if_pos hclosed, if_pos hclosed⟩, fun hpos => ?_⟩
      exact absurd hpos (by rw [hclosed]; exact lt_irrefl 0)
    · have hlong := lt_of_le_of_ne (((run PortfolioBook.step b₀ ops).positionOf (Text.upper a)).sell
        quantity fee hs hf).quantity_nonneg (Ne.symm hclosed)
      refine h.extend hprice hposition hheld ?_ ?_ ?_
      · rw [Position.observe_quantity]
        exact hlong
      · rw [Position.observe, if_pos hlong]
        exact if_neg hclosed
      · rw [Position.observe, if_pos hlong]
        exact congrArg (max · price) (if_neg hclosed)

/-- **The metadata of every position are those of its holding period**, after every
run of fills, marks, snapshots and restarts from a fresh book. -/
theorem tracked_run (nav : ℚ) (h : 0 < nav) (ops : List BookOp) (asset : String) :
    Tracked (fresh nav h) ops asset ((run step (fresh nav h) ops).positionOf asset) := by
  induction ops using List.reverseRecOn with
  | nil => exact ⟨fun _ => ⟨rfl, rfl⟩, fun hheld => absurd hheld (lt_irrefl 0)⟩
  | append_singleton ops op ih =>
    have hkeys : UpperKeyed (run step (fresh nav h) ops) :=
      run_invariant upperKeyed_step _ ops (upperKeyed_fresh nav h)
    rw [run_append, run_cons, run_nil]
    exact ih.step (moved_step hkeys asset op) rfl

end PortfolioBook

end TraderStack
