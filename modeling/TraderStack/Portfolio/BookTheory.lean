import TraderStack.Lib.Machine
import TraderStack.Portfolio.Book

/-!
# What each book operation changes

One inversion lemma per operation of the portfolio book, so that no later proof
unfolds `applyFill`:

- `applyFill_cases`: a fill either raises, leaving the book as it was up to an
  inserted empty position, or is booked, and then `Filled` lists every field it
  changed, with the new position a `buy` or a `sell` of the old one;
- `snapshot_cases` and `rollDay_cases`: a snapshot moves only the daily anchor;
- `fromState_state`: a checkpoint of a book with normalised keys restores it.

`BookOp` closes the section: the events of a book's life, and its step function.
-/

namespace TraderStack

open Lib

namespace PortfolioBook

variable {b b' : PortfolioBook}

/-! ## Fills -/

/-- The fields a booked fill changes: `filled` is the stored position before the
final mark raised its high-water price. -/
structure Filled (b b' : PortfolioBook) (asset : String) (filled : Position)
    (cash realized price : ℚ) : Prop where
  starting : b'.startingNavUsd = b.startingNavUsd
  cashUsd : b'.cashUsd = b.cashUsd + cash
  realizedPnl : b'.realizedPnlUsd = b.realizedPnlUsd + realized
  positions : b'.positions = b.positions.set asset (filled.observe price)
  marks : b'.marksUsd = b.marksUsd.set asset price
  peak : b'.peakNavUsd = max b.peakNavUsd b'.navUsd
  dayStartNav : b'.dayStartNavUsd = b.dayStartNavUsd
  dayStartDate : b'.dayStartDate = b.dayStartDate

theorem positionOf_withPosition (b : PortfolioBook) (asset j : String) :
    (b.withPosition asset).positionOf j = b.positionOf j :=
  Dict.getD_setDefault b.positions asset j Position.empty

theorem positions_setMark {asset : String} {p : Position} (h : b.positions.get? asset = some p)
    (price : ℚ) (hp : 0 < price) :
    (b.setMark asset price hp).positions = b.positions.set asset (p.observe price) := by
  simp only [setMark, h]

private theorem filled_settle (b : PortfolioBook) (asset : String) (p : Position)
    (cash realized price : ℚ) (hp : 0 < price) :
    Filled b (((b.withPosition asset).settle asset p cash realized).setMark
      asset price hp).raisePeak asset p cash realized price where
  starting := rfl
  cashUsd := rfl
  realizedPnl := rfl
  positions := by
    have hget : ((b.withPosition asset).settle asset p cash realized).positions.get? asset
        = some p := Dict.get?_set_self _ _ _
    refine (positions_setMark hget price hp).trans ?_
    rw [settle, withPosition, Dict.set_set, Dict.set_setDefault]
  marks := rfl
  peak := rfl
  dayStartNav := rfl
  dayStartDate := rfl

/-- **What `apply_fill` does.** It raises, and the book gained at most an empty
position; or it books a purchase; or it books a sale of no more than is held. -/
theorem applyFill_cases {asset : String} {side : Side} {quantity price fee : ℚ} {now : Time}
    {strategyId : Option String} {r : Except BookError Unit}
    (h : b.applyFill asset side quantity price fee now strategyId = (r, b')) :
    (∃ e, r = .error e ∧ (b' = b ∨ b' = b.withPosition (Text.upper asset))) ∨
    (∃ (hq : 0 < quantity) (hp : 0 < price) (hf : 0 ≤ fee), r = .ok () ∧ side = .buy ∧
      Filled b b' (Text.upper asset)
        ((b.positionOf (Text.upper asset)).buy quantity price fee now strategyId hq hp hf)
        (-(quantity * price + fee)) (-fee) price) ∨
    (∃ (hs : quantity ≤ b.heldQuantity (Text.upper asset)) (hf : 0 ≤ fee), r = .ok () ∧
      0 < quantity ∧ 0 < price ∧ side = .sell ∧
      Filled b b' (Text.upper asset) ((b.positionOf (Text.upper asset)).sell quantity fee hs hf)
        (quantity * price - fee)
        ((b.positionOf (Text.upper asset)).lot.gain quantity price - fee) price) := by
  unfold applyFill at h
  split at h
  · cases h
    exact .inl ⟨_, rfl, .inl rfl⟩
  rename_i hqp
  split at h
  · cases h
    exact .inl ⟨_, rfl, .inl rfl⟩
  rename_i hf
  have hq : 0 < quantity := not_le.mp fun h => hqp (.inl h)
  have hp : 0 < price := not_le.mp fun h => hqp (.inr h)
  have hpos := positionOf_withPosition b (Text.upper asset) (Text.upper asset)
  cases side with
  | buy =>
    simp only [hpos] at h
    split at h
    · cases h
      exact .inl ⟨_, rfl, .inr rfl⟩
    · cases h
      exact .inr (.inl ⟨hq, hp, not_lt.mp hf, rfl, rfl, filled_settle b _ _ _ _ _ hp⟩)
  | sell =>
    simp only [hpos] at h
    split at h
    · cases h
      exact .inl ⟨_, rfl, .inr rfl⟩
    · rename_i hs
      cases h
      exact .inr (.inr ⟨not_lt.mp hs, not_lt.mp hf, rfl, hq, hp, rfl,
        filled_settle b _ _ _ _ _ hp⟩)

/-- Exactly which fills the book accepts. -/
theorem applyFill_ok_iff {asset : String} {side : Side} {quantity price fee : ℚ} {now : Time}
    {strategyId : Option String} :
    (b.applyFill asset side quantity price fee now strategyId).1 = .ok () ↔
      0 < quantity ∧ 0 < price ∧ 0 ≤ fee ∧
        (side = .sell → quantity ≤ b.heldQuantity (Text.upper asset)) := by
  have hpos := positionOf_withPosition b (Text.upper asset) (Text.upper asset)
  constructor
  · intro hok
    rcases hrun : b.applyFill asset side quantity price fee now strategyId with ⟨r, b'⟩
    rw [hrun] at hok
    rcases applyFill_cases hrun with
      ⟨e, he, -⟩ | ⟨hq, hp, hf, -, hs, -⟩ | ⟨hs, hf, -, hq, hp, -, -⟩
    · cases hok.symm.trans he
    · exact ⟨hq, hp, hf, fun h => by rw [hs] at h; cases h⟩
    · exact ⟨hq, hp, hf, fun _ => hs⟩
  · rintro ⟨hq, hp, hf, hs⟩
    have hqp : ¬(quantity ≤ 0 ∨ price ≤ 0) := by
      rintro (h | h)
      · exact absurd hq (not_lt.mpr h)
      · exact absurd hp (not_lt.mpr h)
    unfold applyFill
    rw [dif_neg hqp, dif_neg (not_lt.mpr hf)]
    cases side with
    | buy =>
      have hadd : 0 < (b.positionOf (Text.upper asset)).quantity + quantity :=
        add_pos_of_nonneg_of_pos (b.positionOf (Text.upper asset)).quantity_nonneg hq
      simp only [hpos, if_neg (not_le.mpr hadd)]
    | sell =>
      have hle : ¬(b.positionOf (Text.upper asset)).quantity < quantity := not_lt.mpr (hs rfl)
      simp only [hpos, dif_neg hle]

/-- How a fill moves the held quantities: by its own quantity in its own asset. -/
theorem heldQuantity_of_filled {asset : String} {p : Position} {cash realized price : ℚ}
    (h : Filled b b' asset p cash realized price) (j : String) :
    b'.heldQuantity j = if j = asset then p.quantity else b.heldQuantity j := by
  rw [heldQuantity, positionOf, h.positions, Dict.get?_set]
  split
  · exact Position.observe_quantity p price
  · rfl

/-- A booked sale takes its quantity off the holding. -/
theorem heldQuantity_of_sale {asset : String} {quantity price fee : ℚ} {now : Time}
    {strategyId : Option String}
    (h : b.applyFill asset .sell quantity price fee now strategyId = (.ok (), b')) :
    b'.heldQuantity (Text.upper asset) = b.heldQuantity (Text.upper asset) - quantity := by
  rcases applyFill_cases h with ⟨e, he, -⟩ | ⟨_, _, _, -, hside, -⟩ | ⟨_, _, -, -, -, -, hfilled⟩
  · cases he
  · cases hside
  · rw [heldQuantity_of_filled hfilled, if_pos rfl]
    rfl

/-- A sum over the positions after a fill. -/
theorem sum_of_filled {asset : String} {p : Position} {cash realized price : ℚ}
    (h : Filled b b' asset p cash realized price) (g : String → Position → ℚ)
    (hempty : g asset Position.empty = 0) :
    b'.positions.sum g
      = b.positions.sum g - g asset (b.positionOf asset) + g asset (p.observe price) := by
  rw [h.positions, Dict.sum_set]
  congr 2
  unfold positionOf
  cases b.positions.get? asset with
  | none => exact hempty.symm
  | some q => rfl

/-! ## Marks, days and snapshots -/

theorem mark_cases (b : PortfolioBook) (asset : String) (price : ℚ) :
    (b.mark asset price = .error .nonPositiveMark ∧ price ≤ 0) ∨
    (∃ hp : 0 < price, b.mark asset price = .ok (b.setMark (Text.upper asset) price hp)) := by
  unfold mark
  split
  · rename_i h
    exact .inl ⟨rfl, h⟩
  · rename_i h
    exact .inr ⟨not_le.mp h, rfl⟩

/-- A mark leaves every position's holding and cost. -/
theorem get?_positions_setMark (asset : String) (price : ℚ) (hp : 0 < price) (j : String) :
    (b.setMark asset price hp).positions.get? j
      = (b.positions.get? j).map fun p => if j = asset then p.observe price else p := by
  cases hget : b.positions.get? asset with
  | some p =>
    rw [positions_setMark hget, Dict.get?_set]
    split
    · rename_i hj
      rw [hj, hget]
      rfl
    · cases b.positions.get? j <;> rfl
  | none =>
    have hpos : (b.setMark asset price hp).positions = b.positions := by
      simp only [setMark, hget]
    rw [hpos]
    cases hj : b.positions.get? j with
    | none => rfl
    | some p =>
      have hne : j ≠ asset := by
        rintro rfl
        rw [hget] at hj
        cases hj
      simp [hne]

theorem sum_setMark (asset : String) (price : ℚ) (hp : 0 < price) (g : String → Position → ℚ)
    (hg : ∀ a p, g a (p.observe price) = g a p) :
    (b.setMark asset price hp).positions.sum g = b.positions.sum g := by
  cases hget : b.positions.get? asset with
  | some p =>
    rw [positions_setMark hget, Dict.sum_set, hget, hg]
    exact sub_add_cancel _ _
  | none =>
    have hpos : (b.setMark asset price hp).positions = b.positions := by
      simp only [setMark, hget]
    rw [hpos]

/-- A mark moves the NAV by the revaluation of the marked holding. -/
theorem navUsd_setMark (asset : String) (price : ℚ) (hp : 0 < price) :
    (b.setMark asset price hp).navUsd
      = b.navUsd + b.heldQuantity asset * (price - b.markOf asset (b.positionOf asset)) := by
  let g' : String → Position → ℚ := fun a p => p.quantity * (b.setMark asset price hp).markOf a p
  have hmark : ∀ a p, (b.setMark asset price hp).markOf a p
      = if a = asset then price else b.markOf a p := by
    intro a p
    show ((b.marksUsd.set asset price).get? a).getD p.averageCostUsd = _
    rw [Dict.get?_set]
    split <;> rfl
  have hobserve : ∀ a p, g' a (p.observe price) = g' a p := by
    intro a p
    simp only [g', hmark, Position.observe_quantity]
    split
    · rfl
    · rw [markOf, markOf, Position.observe_averageCostUsd]
  have hother : ∀ a (p : Position), a ≠ asset → g' a p = p.quantity * b.markOf a p := by
    intro a p ha
    simp only [g', hmark, if_neg ha]
  have hself : ∀ p : Position, g' asset p = p.quantity * price := by
    intro p
    simp only [g', hmark, if_true]
  show b.cashUsd + (b.setMark asset price hp).positions.sum g' = _
  rw [sum_setMark asset price hp g' hobserve, Dict.sum_update b.positions hother, navUsd,
    heldQuantity, positionOf]
  cases b.positions.get? asset with
  | none => simp
  | some p =>
    simp only [Option.elim_some, Option.getD_some, hself]
    ring

theorem heldQuantity_setMark (asset : String) (price : ℚ) (hp : 0 < price) (j : String) :
    (b.setMark asset price hp).heldQuantity j = b.heldQuantity j := by
  unfold heldQuantity positionOf
  rw [get?_positions_setMark]
  cases b.positions.get? j with
  | none => rfl
  | some p =>
    show (if j = asset then p.observe price else p).quantity = p.quantity
    split
    · exact p.observe_quantity price
    · rfl

/-- Two books that differ at most in their daily anchor. -/
structure SameBook (b b' : PortfolioBook) : Prop where
  starting : b'.startingNavUsd = b.startingNavUsd
  cashUsd : b'.cashUsd = b.cashUsd
  peak : b'.peakNavUsd = b.peakNavUsd
  realizedPnl : b'.realizedPnlUsd = b.realizedPnlUsd
  positions : b'.positions = b.positions
  marks : b'.marksUsd = b.marksUsd

theorem SameBook.refl (b : PortfolioBook) : SameBook b b := ⟨rfl, rfl, rfl, rfl, rfl, rfl⟩

theorem SameBook.navUsd (h : SameBook b b') : b'.navUsd = b.navUsd := by
  unfold PortfolioBook.navUsd markOf
  rw [h.cashUsd, h.positions, h.marks]

theorem SameBook.heldQuantity (h : SameBook b b') (j : String) :
    b'.heldQuantity j = b.heldQuantity j := by
  unfold PortfolioBook.heldQuantity positionOf
  rw [h.positions]

theorem sameBook_rollDay (b : PortfolioBook) (now : Time) : SameBook b (b.rollDay now).2 := by
  unfold rollDay
  cases b.dayStartDate with
  | none => exact ⟨rfl, rfl, rfl, rfl, rfl, rfl⟩
  | some date =>
    dsimp only
    split
    · exact .refl b
    · exact ⟨rfl, rfl, rfl, rfl, rfl, rfl⟩

/-- **What `snapshot` shows.** It raises exactly on a non-positive NAV; the
record reads the rolled book, which differs from the old one in its anchor. -/
theorem snapshot_cases {now : Time} {r : Except BookError PortfolioSnapshot}
    (h : b.snapshot now = (r, b')) :
    b' = (b.rollDay now).2 ∧
      ((r = .error (.invalidField "nav_usd") ∧ b'.navUsd ≤ 0) ∨
       (∃ s, r = .ok s ∧ s.navUsd = b'.navUsd ∧ s.cashUsd = max 0 b'.cashUsd ∧
          s.peakNavUsd = b'.peakNavUsd ∧ s.dailyPnlUsd = b'.dailyPnlUsd ∧ s.observedAt = now ∧
          s.assetExposureUsd = (b'.positions.filter fun p => 0 < p.quantity).map
            (fun asset p => p.quantity * b'.markOf asset p) ∧
          s.heldPositions = (b'.positions.filter fun p => 0 < p.quantity).map
            b'.heldPosition)) := by
  unfold snapshot at h
  dsimp only at h
  split at h
  · rename_i hnav
    cases h
    exact ⟨rfl, .inl ⟨rfl, hnav⟩⟩
  · cases h
    exact ⟨rfl, .inr ⟨_, rfl, rfl, rfl, rfl, rfl, rfl, rfl, rfl⟩⟩

/-- **What a held position is in the snapshot**: the book's quantity, valued at its
mark. -/
theorem shown_of_snapshot {now : Time} {portfolio : PortfolioSnapshot} {asset : String}
    {held : HeldPosition} (h : b.snapshot now = (.ok portfolio, b'))
    (hheld : portfolio.heldPositions.get? asset = some held) :
    held.quantity = b.heldQuantity asset ∧ 0 < held.quantity ∧
      held.averageCostUsd = (b.positionOf asset).averageCostUsd ∧
      portfolio.assetExposureUsd.get? asset
        = some (b.heldQuantity asset * b.markOf asset (b.positionOf asset)) := by
  obtain ⟨rfl, ⟨herror, -⟩ | ⟨s, hs, -, -, -, -, -, hexposure, hpositions⟩⟩ := snapshot_cases h
  · cases herror
  · cases hs
    have hsame := sameBook_rollDay b now
    rw [hpositions, Dict.get?_map, Option.map_eq_some_iff] at hheld
    obtain ⟨position, hopen, rfl⟩ := hheld
    obtain ⟨hget, hquantity⟩ := Dict.get?_filter.mp hopen
    rw [hsame.positions] at hget
    have hposition : b.positionOf asset = position := by
      rw [positionOf, hget]
      rfl
    have hmark : (b.rollDay now).2.markOf asset position = b.markOf asset position := by
      rw [markOf, markOf, hsame.marks]
    rw [hexposure, Dict.get?_map, hopen, heldQuantity, hposition, Option.map_some, hmark]
    exact ⟨rfl, of_decide_eq_true hquantity, rfl, rfl⟩

/-- Whatever the book holds is in the snapshot. -/
theorem held_of_snapshot {now : Time} {portfolio : PortfolioSnapshot} {asset : String}
    (h : b.snapshot now = (.ok portfolio, b')) (hpos : 0 < b.heldQuantity asset) :
    ∃ held, portfolio.heldPositions.get? asset = some held := by
  obtain ⟨rfl, ⟨herror, -⟩ | ⟨s, hs, -, -, -, -, -, -, hpositions⟩⟩ := snapshot_cases h
  · cases herror
  cases hs
  rw [heldQuantity, positionOf] at hpos
  cases hget : b.positions.get? asset with
  | none =>
    rw [hget] at hpos
    exact absurd hpos (lt_irrefl 0)
  | some position =>
    rw [hget] at hpos
    have hopen : ((b.rollDay now).2.positions.filter fun p => 0 < p.quantity).get? asset
        = some position := by
      rw [Dict.get?_filter, (sameBook_rollDay b now).positions]
      exact ⟨hget, decide_eq_true hpos⟩
    exact ⟨_, by rw [hpositions, Dict.get?_map, hopen]; rfl⟩

theorem sameBook_snapshot (b : PortfolioBook) (now : Time) : SameBook b (b.snapshot now).2 := by
  rcases h : b.snapshot now with ⟨r, b'⟩
  rw [(snapshot_cases h).1]
  exact sameBook_rollDay b now

/-! ## Checkpoints -/

/-- Every key was normalised when it was stored. -/
structure UpperKeyed (b : PortfolioBook) : Prop where
  positions : ∀ a p, b.positions.get? a = some p → Text.upper a = a
  marks : ∀ a m, b.marksUsd.get? a = some m → Text.upper a = a

private theorem upperKeys_of_upper {ν : Type} {d : Dict String ν}
    (h : ∀ a v, d.get? a = some v → Text.upper a = a) : upperKeys d = d := by
  have hentries : d.entries.map (fun e => (Text.upper e.1, e.2)) = d.entries := by
    have hid : ∀ e ∈ d.entries, (Text.upper e.1, e.2) = e := fun e he => by
      rw [h e.1 e.2 (Dict.mem_entries_iff.mp he)]
    calc d.entries.map (fun e => (Text.upper e.1, e.2)) = d.entries.map id :=
          List.map_congr_left hid
      _ = d.entries := List.map_id _
  rw [upperKeys, hentries, Dict.ofList_entries]

/-- **A checkpoint restores the book** it was taken of. -/
theorem fromState_state (hb : UpperKeyed b) {s : PortfolioState} (h : b.state = .ok s) :
    fromState s = b := by
  unfold state at h
  split at h
  · cases h
  · cases h
    have hpos := upperKeys_of_upper hb.positions
    have hmarks := upperKeys_of_upper hb.marks
    obtain ⟨starting, cash, peak, realized, positions, marks, anchor, date, hs, hp, hm⟩ := b
    simp only at hpos hmarks
    simp only [fromState, hpos, hmarks, Option.getD_some]

theorem upperKeyed_fresh (nav : ℚ) (h : 0 < nav) : UpperKeyed (fresh nav h) where
  positions := by
    intro a p hp
    simp [fresh] at hp
  marks := by
    intro a m hm
    simp [fresh] at hm

theorem upperKeyed_of_keys (hb : UpperKeyed b)
    (hp : ∀ a p, b'.positions.get? a = some p → b.positions.get? a = none → Text.upper a = a)
    (hm : ∀ a m, b'.marksUsd.get? a = some m → b.marksUsd.get? a = none → Text.upper a = a) :
    UpperKeyed b' where
  positions := by
    intro a p h
    cases hold : b.positions.get? a with
    | none => exact hp a p h hold
    | some q => exact hb.positions a q hold
  marks := by
    intro a m h
    cases hold : b.marksUsd.get? a with
    | none => exact hm a m h hold
    | some q => exact hb.marks a q hold

theorem upperKeyed_of_filled {asset : String} {p : Position} {cash realized price : ℚ}
    (hb : UpperKeyed b) (h : Filled b b' (Text.upper asset) p cash realized price) :
    UpperKeyed b' := by
  refine upperKeyed_of_keys hb ?_ ?_
  · intro a q hq hnone
    rw [h.positions, Dict.get?_set] at hq
    split at hq
    · rename_i ha
      rw [ha, Text.upper_upper]
    · rw [hnone] at hq
      cases hq
  · intro a m hm hnone
    rw [h.marks, Dict.get?_set] at hm
    split at hm
    · rename_i ha
      rw [ha, Text.upper_upper]
    · rw [hnone] at hm
      cases hm

theorem upperKeyed_withPosition (hb : UpperKeyed b) (asset : String) :
    UpperKeyed (b.withPosition (Text.upper asset)) := by
  refine upperKeyed_of_keys hb ?_ fun a m hm hnone => ?_
  · intro a q hq hnone
    simp only [withPosition, Dict.setDefault] at hq
    split at hq
    · rw [hnone] at hq
      cases hq
    · rw [Dict.get?_set] at hq
      split at hq
      · rename_i ha
        rw [ha, Text.upper_upper]
      · rw [hnone] at hq
        cases hq
  · cases hnone.symm.trans hm

theorem upperKeyed_setMark (hb : UpperKeyed b) (asset : String) (price : ℚ) (hp : 0 < price) :
    UpperKeyed (b.setMark (Text.upper asset) price hp) := by
  refine upperKeyed_of_keys hb ?_ ?_
  · intro a q hq hnone
    rw [get?_positions_setMark, hnone] at hq
    cases hq
  · intro a m hm hnone
    have hset : (b.marksUsd.set (Text.upper asset) price).get? a = some m := hm
    rw [Dict.get?_set] at hset
    split at hset
    · rename_i ha
      rw [ha, Text.upper_upper]
    · rw [hnone] at hset
      cases hset

theorem upperKeyed_of_sameBook (hb : UpperKeyed b) (h : SameBook b b') : UpperKeyed b' where
  positions := by
    rw [h.positions]
    exact hb.positions
  marks := by
    rw [h.marks]
    exact hb.marks

/-! ## The life of a book -/

/-- What can happen to a book: a fill (accepted or refused), a mark, a snapshot,
or a restart from its own checkpoint. -/
inductive BookOp where
  | fill (asset : String) (side : Side) (quantity priceUsd feeUsd : ℚ) (now : Time)
      (strategyId : Option String)
  | mark (asset : String) (priceUsd : ℚ)
  | snapshot (now : Time)
  | restart
deriving DecidableEq

/-- One operation. A raising one leaves the book as the source does; a restart
whose checkpoint cannot be written does not happen. -/
def step (b : PortfolioBook) : BookOp → PortfolioBook
  | .fill asset side quantity priceUsd feeUsd now strategyId =>
    (b.applyFill asset side quantity priceUsd feeUsd now strategyId).2
  | .mark asset priceUsd =>
    match b.mark asset priceUsd with
    | .ok b' => b'
    | .error _ => b
  | .snapshot now => (b.snapshot now).2
  | .restart =>
    match b.state with
    | .ok s => fromState s
    | .error _ => b

/-- A restart changes nothing. -/
theorem step_restart (hb : UpperKeyed b) : b.step .restart = b := by
  rw [step]
  cases h : b.state with
  | error e => rfl
  | ok s => exact fromState_state hb h

theorem upperKeyed_step (b : PortfolioBook) (op : BookOp) (hb : UpperKeyed b) :
    UpperKeyed (b.step op) := by
  cases op with
  | fill asset side quantity price fee now strategyId =>
    rcases h : b.applyFill asset side quantity price fee now strategyId with ⟨r, b'⟩
    rw [step, h]
    rcases applyFill_cases h with ⟨e, -, rfl | rfl⟩ | ⟨hq, hp, hf, -, -, hfill⟩ |
      ⟨hs, hf, -, -, -, -, hfill⟩
    · exact hb
    · exact upperKeyed_withPosition hb asset
    · exact upperKeyed_of_filled hb hfill
    · exact upperKeyed_of_filled hb hfill
  | mark asset price =>
    rcases mark_cases b asset price with ⟨h, -⟩ | ⟨hp, h⟩
    · simp only [step, h]
      exact hb
    · simp only [step, h]
      exact upperKeyed_setMark hb asset price hp
  | snapshot now => exact upperKeyed_of_sameBook hb (sameBook_snapshot b now)
  | restart =>
    rw [step_restart hb]
    exact hb

end PortfolioBook

end TraderStack
