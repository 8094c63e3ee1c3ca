import TraderStack.Lib.CostBasis
import TraderStack.Lib.Text
import TraderStack.Models

/-!
# The in-memory portfolio book (portfolio.py)

Positions at average cost, cash, marks, the all-time peak and the daily anchor
of `InMemoryPortfolioBook`, with `apply_fill`, `mark`, `roll_day`, `snapshot`
and the `state`/`from_state` round trip through a checkpoint.

The sign conditions every operation keeps are fields of the structures:
quantities, costs, fees and high-water prices are non-negative, marks are
positive. They are the validators of `PositionState` and the guards of `mark`
and `apply_fill`. A raising operation returns the book as the source leaves it,
which for an oversold position is a book with an empty position inserted by
`setdefault`.
-/

namespace TraderStack

open Lib

/-! ## Positions -/

/-- One position of the book (portfolio.py:42–50). -/
structure Position where
  quantity : ℚ
  averageCostUsd : ℚ
  feesPaidUsd : ℚ
  openedAt : Option Time
  highWaterPriceUsd : ℚ
  entryStrategyId : Option String
  quantity_nonneg : 0 ≤ quantity
  averageCost_nonneg : 0 ≤ averageCostUsd
  feesPaid_nonneg : 0 ≤ feesPaidUsd
  highWater_nonneg : 0 ≤ highWaterPriceUsd

namespace Position

/-- `Position()`. -/
def empty : Position :=
  ⟨0, 0, 0, none, 0, none, zero_nonneg, zero_nonneg, zero_nonneg, zero_nonneg⟩

/-- The holding as an average-cost inventory. -/
def lot (p : Position) : Lot ℚ := ⟨p.quantity, p.averageCostUsd⟩

/-- A BUY fill of the position (portfolio.py:169–190). `if strategy_id:` skips
the empty string. -/
def buy (p : Position) (quantity priceUsd feeUsd : ℚ) (now : Time)
    (strategyId : Option String) (hq : 0 < quantity) (hp : 0 < priceUsd) (hf : 0 ≤ feeUsd) :
    Position :=
  let opening := p.quantity = 0
  { quantity := (p.lot.buy quantity priceUsd).quantity
    averageCostUsd := (p.lot.buy quantity priceUsd).cost
    feesPaidUsd := p.feesPaidUsd + feeUsd
    openedAt := if opening then some now else p.openedAt
    highWaterPriceUsd := if opening then priceUsd else max p.highWaterPriceUsd priceUsd
    entryStrategyId :=
      if opening then
        match strategyId with
        | some s => if s = "" then p.entryStrategyId else some s
        | none => p.entryStrategyId
      else p.entryStrategyId
    quantity_nonneg := add_nonneg p.quantity_nonneg hq.le
    averageCost_nonneg :=
      Lot.cost_buy_nonneg p.quantity_nonneg p.averageCost_nonneg hq.le hp.le
    feesPaid_nonneg := add_nonneg p.feesPaid_nonneg hf
    highWater_nonneg := by
      split
      · exact hp.le
      · exact le_max_of_le_right hp.le }

/-- A SELL fill of at most the held quantity (portfolio.py:191–202). -/
def sell (p : Position) (quantity feeUsd : ℚ) (hle : quantity ≤ p.quantity) (hf : 0 ≤ feeUsd) :
    Position :=
  let closed := (p.lot.sell quantity).quantity = 0
  { quantity := (p.lot.sell quantity).quantity
    averageCostUsd := (p.lot.sell quantity).cost
    feesPaidUsd := p.feesPaidUsd + feeUsd
    openedAt := if closed then none else p.openedAt
    highWaterPriceUsd := if closed then 0 else p.highWaterPriceUsd
    entryStrategyId := if closed then none else p.entryStrategyId
    quantity_nonneg := sub_nonneg.mpr hle
    averageCost_nonneg := Lot.cost_sell_nonneg p.averageCost_nonneg quantity
    feesPaid_nonneg := add_nonneg p.feesPaid_nonneg hf
    highWater_nonneg := by
      split
      · exact le_rfl
      · exact p.highWater_nonneg }

/-- A new mark raises the high-water price of a held position
(portfolio.py:139–142). -/
def observe (p : Position) (priceUsd : ℚ) : Position :=
  if 0 < p.quantity then
    { p with
      highWaterPriceUsd := max p.highWaterPriceUsd priceUsd
      highWater_nonneg := le_max_of_le_left p.highWater_nonneg }
  else p

@[simp] theorem empty_quantity : empty.quantity = 0 := rfl
@[simp] theorem empty_averageCostUsd : empty.averageCostUsd = 0 := rfl
@[simp] theorem empty_feesPaidUsd : empty.feesPaidUsd = 0 := rfl

@[simp] theorem observe_quantity (p : Position) (x : ℚ) : (p.observe x).quantity = p.quantity := by
  unfold observe
  split <;> rfl

@[simp] theorem observe_averageCostUsd (p : Position) (x : ℚ) :
    (p.observe x).averageCostUsd = p.averageCostUsd := by
  unfold observe
  split <;> rfl

@[simp] theorem observe_feesPaidUsd (p : Position) (x : ℚ) :
    (p.observe x).feesPaidUsd = p.feesPaidUsd := by
  unfold observe
  split <;> rfl

end Position

/-! ## The book -/

/-- Why an operation of the book raised. -/
inductive BookError where
  | nonPositiveFill
  | negativeFee
  | invalidQuantity
  | oversell
  | nonPositiveMark
  /-- A validated record refused the named field. -/
  | invalidField (field : String)
deriving DecidableEq, Repr

/-- The message of the `ValueError`. -/
def BookError.text : BookError → String
  | .nonPositiveFill => "fill quantity and price must be positive"
  | .negativeFee => "fill fee must be a finite non-negative number"
  | .invalidQuantity => "invalid resulting position quantity"
  | .oversell => "cannot sell more than current paper position"
  | .nonPositiveMark => "mark price must be positive"
  | .invalidField field => field ++ ": Input should be greater than 0"

/-- `InMemoryPortfolioBook` (portfolio.py:56–278). `__post_init__` always leaves
an anchor, so `dayStartNavUsd` is a number. -/
structure PortfolioBook where
  startingNavUsd : ℚ
  cashUsd : ℚ
  peakNavUsd : ℚ
  realizedPnlUsd : ℚ
  positions : Dict String Position
  marksUsd : Dict String ℚ
  dayStartNavUsd : ℚ
  dayStartDate : Option ℤ
  starting_pos : 0 < startingNavUsd
  peak_pos : 0 < peakNavUsd
  marks_pos : ∀ a m, marksUsd.get? a = some m → 0 < m

namespace PortfolioBook

/-- The price a position is valued at: its mark, else its average cost. -/
def markOf (b : PortfolioBook) (asset : String) (p : Position) : ℚ :=
  (b.marksUsd.get? asset).getD p.averageCostUsd

/-- `nav_usd` (portfolio.py:206–213). -/
def navUsd (b : PortfolioBook) : ℚ :=
  b.cashUsd + b.positions.sum fun asset p => p.quantity * b.markOf asset p

/-- `InMemoryPortfolioBook(starting_nav_usd)`: all cash, anchored at itself. -/
def fresh (startingNavUsd : ℚ) (h : 0 < startingNavUsd) : PortfolioBook where
  startingNavUsd := startingNavUsd
  cashUsd := startingNavUsd
  peakNavUsd := startingNavUsd
  realizedPnlUsd := 0
  positions := Dict.empty
  marksUsd := Dict.empty
  dayStartNavUsd := startingNavUsd
  dayStartDate := none
  starting_pos := h
  peak_pos := h
  marks_pos := by
    intro a m hm
    simp at hm

/-- The position of an asset as the book stores it, empty when absent. -/
def positionOf (b : PortfolioBook) (asset : String) : Position :=
  (b.positions.get? asset).getD Position.empty

/-- The held quantity of an asset, 0 when absent. -/
def heldQuantity (b : PortfolioBook) (asset : String) : ℚ :=
  (b.positionOf asset).quantity

/-- `mark` for a normalised asset and a positive price (portfolio.py:137–142). -/
def setMark (b : PortfolioBook) (asset : String) (priceUsd : ℚ) (h : 0 < priceUsd) :
    PortfolioBook :=
  { b with
    marksUsd := b.marksUsd.set asset priceUsd
    positions :=
      match b.positions.get? asset with
      | some p => b.positions.set asset (p.observe priceUsd)
      | none => b.positions
    marks_pos := by
      intro a m hm
      rw [Dict.get?_set] at hm
      split at hm
      · cases hm
        exact h
      · exact b.marks_pos a m hm }

/-- `mark` (portfolio.py:134–142). -/
def mark (b : PortfolioBook) (asset : String) (priceUsd : ℚ) : Except BookError PortfolioBook :=
  if h : priceUsd ≤ 0 then .error .nonPositiveMark
  else .ok (b.setMark (Text.upper asset) priceUsd (pos_of_check h))

/-- `self.peak_nav_usd = max(self.peak_nav_usd, nav)`. -/
def raisePeak (b : PortfolioBook) : PortfolioBook :=
  { b with
    peakNavUsd := max b.peakNavUsd b.navUsd
    peak_pos := lt_max_of_lt_left b.peak_pos }

/-- `self.positions.setdefault(asset, Position())`. -/
def withPosition (b : PortfolioBook) (asset : String) : PortfolioBook :=
  { b with positions := b.positions.setDefault asset Position.empty }

/-- Store a filled position and book its cash and realised PnL. -/
def settle (b : PortfolioBook) (asset : String) (p : Position) (cash realized : ℚ) :
    PortfolioBook :=
  { b with
    positions := b.positions.set asset p
    cashUsd := b.cashUsd + cash
    realizedPnlUsd := b.realizedPnlUsd + realized }

/-- `apply_fill` (portfolio.py:144–204): the result and the book it leaves. -/
def applyFill (b : PortfolioBook) (asset : String) (side : Side) (quantity priceUsd feeUsd : ℚ)
    (now : Time) (strategyId : Option String) : Except BookError Unit × PortfolioBook :=
  if hqp : quantity ≤ 0 ∨ priceUsd ≤ 0 then (.error .nonPositiveFill, b)
  else if hf : feeUsd < 0 then (.error .negativeFee, b)
  else
    have hq : 0 < quantity := not_le.mp fun h => hqp (.inl h)
    have hp : 0 < priceUsd := not_le.mp fun h => hqp (.inr h)
    let asset := Text.upper asset
    let b := b.withPosition asset
    let position := b.positionOf asset
    let notional := quantity * priceUsd
    match side with
    | .buy =>
      if position.quantity + quantity ≤ 0 then (.error .invalidQuantity, b)
      else
        let filled := position.buy quantity priceUsd feeUsd now strategyId hq hp (not_lt.mp hf)
        (.ok (), ((b.settle asset filled (-(notional + feeUsd)) (-feeUsd)).setMark
          asset priceUsd hp).raisePeak)
    | .sell =>
      if hs : position.quantity < quantity then (.error .oversell, b)
      else
        let filled := position.sell quantity feeUsd (not_lt.mp hs) (not_lt.mp hf)
        let gain := quantity * (priceUsd - position.averageCostUsd) - feeUsd
        (.ok (), ((b.settle asset filled (notional - feeUsd) gain).setMark
          asset priceUsd hp).raisePeak)

/-- `daily_pnl_usd` (portfolio.py:238–243). -/
def dailyPnlUsd (b : PortfolioBook) : ℚ := b.navUsd - b.dayStartNavUsd

/-- `roll_day` (portfolio.py:216–236): whether the day rolled over, and the book. -/
def rollDay (b : PortfolioBook) (now : Time) : Bool × PortfolioBook :=
  let today := utcDate now
  match b.dayStartDate with
  | none => (false, { b with dayStartDate := some today })
  | some date =>
    if date = today then (false, b)
    else (true, { b with dayStartDate := some today, dayStartNavUsd := b.navUsd })

theorem markOf_nonneg (b : PortfolioBook) (asset : String) (p : Position) :
    0 ≤ b.markOf asset p := by
  unfold markOf
  cases h : b.marksUsd.get? asset with
  | none => exact p.averageCost_nonneg
  | some m => exact (b.marks_pos asset m h).le

/-- The open position as the snapshot shows it (portfolio.py:258–268). -/
def heldPosition (b : PortfolioBook) (asset : String) (p : Position) : HeldPosition where
  quantity := p.quantity
  averageCostUsd := p.averageCostUsd
  exposureUsd := p.quantity * b.markOf asset p
  openedAt := p.openedAt
  highWaterPriceUsd := p.highWaterPriceUsd
  entryStrategyId := p.entryStrategyId
  quantity_nonneg := p.quantity_nonneg
  averageCost_nonneg := p.averageCost_nonneg
  exposure_nonneg := mul_nonneg p.quantity_nonneg (b.markOf_nonneg asset p)
  highWater_nonneg := p.highWater_nonneg

/-- `snapshot` (portfolio.py:245–278). The day rolls first, and stays rolled
when the snapshot record refuses a non-positive NAV. -/
def snapshot (b : PortfolioBook) (now : Time) :
    Except BookError PortfolioSnapshot × PortfolioBook :=
  let b := (b.rollDay now).2
  let openPositions := b.positions.filter fun p => 0 < p.quantity
  if h : b.navUsd ≤ 0 then (.error (.invalidField "nav_usd"), b)
  else
    (.ok
      { navUsd := b.navUsd
        cashUsd := max 0 b.cashUsd
        dailyPnlUsd := b.dailyPnlUsd
        peakNavUsd := b.peakNavUsd
        assetExposureUsd := openPositions.map fun asset p => p.quantity * b.markOf asset p
        observedAt := now
        heldPositions := openPositions.map b.heldPosition
        nav_pos := not_le.mp h
        cash_nonneg := le_max_left _ _
        peak_pos := b.peak_pos }, b)

/-! ## Checkpoints -/

/-- `PortfolioState` (portfolio.py:24–39), the checkpoint document. Its
`PositionState` has the fields and validators of `Position`; `mark` is the only
writer of `marks_usd`, so the stored marks are positive. -/
structure PortfolioState where
  startingNavUsd : ℚ
  cashUsd : ℚ
  peakNavUsd : ℚ
  realizedPnlUsd : ℚ
  positions : Dict String Position
  marksUsd : Dict String ℚ
  dayStartNavUsd : Option ℚ
  dayStartDate : Option ℤ
  starting_pos : 0 < startingNavUsd
  peak_pos : 0 < peakNavUsd
  marks_pos : ∀ e ∈ marksUsd.entries, 0 < e.2
  dayStart_pos : ∀ x ∈ dayStartNavUsd, 0 < x

/-- `state` (portfolio.py:108–132). The only validator a book can fail is the
positive daily anchor. -/
def state (b : PortfolioBook) : Except BookError PortfolioState :=
  if h : b.dayStartNavUsd ≤ 0 then .error (.invalidField "day_start_nav_usd")
  else
    .ok
      { startingNavUsd := b.startingNavUsd
        cashUsd := b.cashUsd
        peakNavUsd := b.peakNavUsd
        realizedPnlUsd := b.realizedPnlUsd
        positions := b.positions
        marksUsd := b.marksUsd
        dayStartNavUsd := some b.dayStartNavUsd
        dayStartDate := b.dayStartDate
        starting_pos := b.starting_pos
        peak_pos := b.peak_pos
        marks_pos := fun e he => b.marks_pos e.1 e.2 (Dict.mem_entries_iff.mp he)
        dayStart_pos := by
          rintro x ⟨⟩
          exact not_le.mp h }

/-- `{asset.upper(): value for asset, value in d.items()}`. -/
def upperKeys {ν : Type} (d : Dict String ν) : Dict String ν :=
  Dict.ofList (d.entries.map fun e => (Text.upper e.1, e.2))

theorem mem_of_get?_upperKeys {ν : Type} {d : Dict String ν} {a : String} {v : ν}
    (h : (upperKeys d).get? a = some v) : ∃ e ∈ d.entries, e.2 = v := by
  obtain ⟨e, he, hpair⟩ := List.mem_map.mp (Dict.mem_of_get?_ofList h)
  exact ⟨e, he, (Prod.mk.inj hpair).2⟩

/-- `from_state` (portfolio.py:80–106); a document without an anchor opens the
day at its own NAV. -/
def fromState (s : PortfolioState) : PortfolioBook :=
  let b : PortfolioBook :=
    { startingNavUsd := s.startingNavUsd
      cashUsd := s.cashUsd
      peakNavUsd := s.peakNavUsd
      realizedPnlUsd := s.realizedPnlUsd
      positions := upperKeys s.positions
      marksUsd := upperKeys s.marksUsd
      dayStartNavUsd := 0
      dayStartDate := s.dayStartDate
      starting_pos := s.starting_pos
      peak_pos := s.peak_pos
      marks_pos := by
        intro a m hm
        obtain ⟨e, he, rfl⟩ := mem_of_get?_upperKeys hm
        exact s.marks_pos e he }
  { b with dayStartNavUsd := s.dayStartNavUsd.getD b.navUsd }

end PortfolioBook

end TraderStack
