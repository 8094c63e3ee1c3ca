import TraderStack.Acceptance.Report
import TraderStack.Research.Backtest

/-!
# The paper report's replay (acceptance/report.py)

`reconstruct` replays marks and fills, in the order of their dates, into an equity curve
and a list of trades. Buys open lots and sells close them, the oldest first; what is
still open at the end is closed at the last price, without a fee.
-/

namespace TraderStack

open Lib

/-- Why a replay raised. -/
inductive ReplayError where
  | startingEquity
  | validation (model : String)
deriving DecidableEq, Repr

/-- What the replay reads of a `MarkPoint` (report.py:54–61). -/
@[ext]
structure MarkPoint where
  observedAt : Time
  priceUsd : ℚ
  price_pos : 0 < priceUsd

/-- Mark points compare field by field. -/
instance : DecidableEq MarkPoint := fun _ _ => decidable_of_iff' _ MarkPoint.ext_iff

/-! ## Lots -/

/-- An open lot: `(quantity, price, time, decision_id, remaining_fee_usd)`. -/
structure PaperLot where
  quantity : ℚ
  priceUsd : ℚ
  openedAt : Time
  decisionId : String
  feeUsd : ℚ
  quantity_pos : 0 < quantity
  price_pos : 0 < priceUsd

/-- The lot a buy opens (report.py:258). -/
def PaperFill.lot (f : PaperFill) (fee : ℚ) : PaperLot where
  quantity := f.quantity
  priceUsd := f.priceUsd
  openedAt := f.observedAt
  decisionId := f.decisionId
  feeUsd := fee
  quantity_pos := f.quantity_pos
  price_pos := f.price_pos

/-- The tolerance of the matching. -/
def lotTolerance : ℚ := 1 / 10 ^ 12

theorem lotTolerance_nonneg : 0 ≤ lotTolerance := by decide +kernel

/-- What stays of a lot, with its share of the fee (report.py:320–327). -/
def PaperLot.less (lot : PaperLot) (matched : ℚ) (h : ¬lot.quantity - lotTolerance ≤ matched) :
    PaperLot :=
  { lot with
    quantity := lot.quantity - matched
    feeUsd := lot.feeUsd - lot.feeUsd * (matched / lot.quantity)
    quantity_pos :=
      sub_pos.mpr ((not_le.mp h).trans_le (sub_le_self lot.quantity lotTolerance_nonneg)) }

theorem matchedNotional_nonneg (lot : PaperLot) {remaining : ℚ} (h : ¬remaining ≤ lotTolerance) :
    0 ≤ min lot.quantity remaining * lot.priceUsd :=
  mul_nonneg (le_min lot.quantity_pos.le (lotTolerance_nonneg.trans (not_le.mp h).le))
    lot.price_pos.le

/-- The trade a match records (report.py:301–317), unless `BacktestTrade` refuses it. Its
return is the price's alone; the fees stand beside it. -/
def matchedTrade (exit : PaperFill) (strategyIds : Dict String (List String)) (lot : PaperLot)
    (remaining exitFee : ℚ) (h : ¬remaining ≤ lotTolerance) : Except ReplayError BacktestTrade :=
  let matched := min lot.quantity remaining
  let fees := lot.feeUsd * (matched / lot.quantity) + exitFee * (matched / remaining)
  if hfees : 0 ≤ fees then
    .ok
      { entryTime := lot.openedAt
        exitTime := exit.observedAt
        entryPrice := lot.priceUsd
        exitPrice := exit.priceUsd
        side := .buy
        returnPct := exit.priceUsd / lot.priceUsd - 1
        regime := .range
        strategyIds := (strategyIds.get? lot.decisionId).getD ["paper"]
        notionalUsd := matched * lot.priceUsd
        feesPaid := fees
        entryPrice_pos := lot.price_pos
        exitPrice_pos := exit.price_pos
        notional_nonneg := matchedNotional_nonneg lot h
        feesPaid_nonneg := hfees }
  else .error (.validation "BacktestTrade")

/-- `_close_lots` (report.py:283–327): the trades it records and the lots it leaves. -/
def closeLots (exit : PaperFill) (strategyIds : Dict String (List String)) :
    List PaperLot → ℚ → ℚ → Except ReplayError (List BacktestTrade × List PaperLot)
  | [], _, _ => .ok ([], [])
  | lot :: lots, remaining, exitFee =>
    if h : remaining ≤ lotTolerance then .ok ([], lot :: lots)
    else
      match matchedTrade exit strategyIds lot remaining exitFee h with
      | .error e => .error e
      | .ok trade =>
        let matched := min lot.quantity remaining
        if hpop : lot.quantity - lotTolerance ≤ matched then
          match closeLots exit strategyIds lots (remaining - matched)
              (exitFee - exitFee * (matched / remaining)) with
          | .error e => .error e
          | .ok (trades, left) => .ok (trade :: trades, left)
        -- The lot is larger than the sale, of which nothing remains.
        else .ok ([trade], lot.less matched hpop :: lots)

/-! ## The replay -/

/-- An event of the replay. -/
inductive ReplayEvent where
  | fill (f : PaperFill)
  | mark (m : MarkPoint)

namespace ReplayEvent

/-- `moment`. -/
def moment : ReplayEvent → Time
  | fill f => f.observedAt
  | mark m => m.observedAt

/-- Fills come before marks at the same instant. -/
def rank : ReplayEvent → ℕ
  | fill _ => 0
  | mark _ => 1

/-- The order of `(item[0], item[1])`. -/
def Before (e f : ReplayEvent) : Prop :=
  e.moment < f.moment ∨ e.moment = f.moment ∧ e.rank ≤ f.rank

instance : DecidableRel Before := fun e f =>
  inferInstanceAs (Decidable (e.moment < f.moment ∨ e.moment = f.moment ∧ e.rank ≤ f.rank))

end ReplayEvent

/-- The events in the order they are replayed (report.py:239–245). -/
def replayEvents (marks : List MarkPoint) (fills : List PaperFill) : List ReplayEvent :=
  (fills.map ReplayEvent.fill ++ marks.map ReplayEvent.mark).insertionSort ReplayEvent.Before

/-- `PaperRun` (report.py:193–208). -/
structure PaperRun where
  startingEquity : ℚ
  equityCurve : List (Time × ℚ)
  trades : List BacktestTrade
  fills : ℕ
  totalFees : ℚ
  turnoverUsd : ℚ
  openQuantity : ℚ

/-- `ending_equity` (report.py:205–207). -/
def PaperRun.endingEquity (r : PaperRun) : ℚ :=
  (r.equityCurve.getLast?.map Prod.snd).getD r.startingEquity

/-- The variables of the loop. -/
structure ReplayState where
  run : PaperRun
  cash : ℚ
  quantity : ℚ
  lots : List PaperLot
  lastPrice : ℚ

/-- The fee a fill is charged (report.py:250): the ledger's, or the fallback's where it has
none. -/
def PaperFill.charge (feeBps : ℚ) (f : PaperFill) : ℚ :=
  if 0 < f.feeUsd then f.feeUsd else f.notionalUsd * feeBps / 10000

namespace ReplayState

/-- Before the first event (report.py:229–237). -/
def start (marks : List MarkPoint) (startingEquity : ℚ) : ReplayState where
  run :=
    { startingEquity := startingEquity
      equityCurve := []
      trades := []
      fills := 0
      totalFees := 0
      turnoverUsd := 0
      openQuantity := 0 }
  cash := startingEquity
  quantity := 0
  lots := []
  lastPrice := (marks.head?.map MarkPoint.priceUsd).getD 0

/-- What a fill of either side does first (report.py:248–255). -/
def charged (s : ReplayState) (f : PaperFill) (fee : ℚ) : ReplayState :=
  { s with
    run :=
      { s.run with
        fills := s.run.fills + 1
        totalFees := s.run.totalFees + fee
        turnoverUsd := s.run.turnoverUsd + f.notionalUsd }
    cash := s.cash - fee
    lastPrice := f.priceUsd }

/-- A buy (report.py:256–258). -/
def bought (s : ReplayState) (f : PaperFill) (fee : ℚ) : ReplayState :=
  { s with
    cash := s.cash - f.notionalUsd
    quantity := s.quantity + f.quantity
    lots := s.lots ++ [f.lot fee] }

/-- Close lots against a sell. -/
def close (s : ReplayState) (strategyIds : Dict String (List String)) (f : PaperFill) (fee : ℚ) :
    Except ReplayError ReplayState :=
  match closeLots f strategyIds s.lots f.quantity fee with
  | .error e => .error e
  | .ok (trades, left) =>
    .ok { s with run := { s.run with trades := s.run.trades ++ trades }, lots := left }

/-- A sell (report.py:259–262). -/
def sold (s : ReplayState) (strategyIds : Dict String (List String)) (f : PaperFill) (fee : ℚ) :
    Except ReplayError ReplayState :=
  ({ s with cash := s.cash + f.notionalUsd, quantity := s.quantity - f.quantity } :
    ReplayState).close strategyIds f fee

/-- A mark (report.py:265–266). -/
def marked (s : ReplayState) (m : MarkPoint) : ReplayState :=
  { s with
    lastPrice := m.priceUsd
    run :=
      { s.run with
        equityCurve := s.run.equityCurve ++ [(m.observedAt, s.cash + s.quantity * m.priceUsd)] } }

/-- One event (report.py:247–266). -/
def event (feeBps : ℚ) (strategyIds : Dict String (List String)) (s : ReplayState) :
    ReplayEvent → Except ReplayError ReplayState
  | .mark m => .ok (s.marked m)
  | .fill f =>
    let fee := f.charge feeBps
    match f.side with
    | .buy => .ok ((s.charged f fee).bought f fee)
    | .sell => (s.charged f fee).sold strategyIds f fee

/-- All events, in order. -/
def events (feeBps : ℚ) (strategyIds : Dict String (List String)) :
    ReplayState → List ReplayEvent → Except ReplayError ReplayState
  | s, [] => .ok s
  | s, e :: rest =>
    match s.event feeBps strategyIds e with
    | .error err => .error err
    | .ok s' => events feeBps strategyIds s' rest

/-- What is open, in all. -/
def openLots (s : ReplayState) : ℚ := (s.lots.map PaperLot.quantity).sum

theorem sum_quantity_pos (lots : List PaperLot) (h : lots ≠ []) :
    0 < (lots.map PaperLot.quantity).sum := by
  cases lots with
  | nil => exact absurd rfl h
  | cons lot lots =>
    have hrest : 0 ≤ (lots.map PaperLot.quantity).sum :=
      List.sum_nonneg fun q hq => by
        obtain ⟨l, -, rfl⟩ := List.mem_map.mp hq
        exact l.quantity_pos.le
    rw [List.map_cons, List.sum_cons]
    exact add_pos_of_pos_of_nonneg lot.quantity_pos hrest

/-- The sale that closes what is open at the last price (report.py:268–278). -/
def synthetic (s : ReplayState) (fills : List PaperFill) (hopen : s.lots ≠ [])
    (hprice : 0 < s.lastPrice) : PaperFill where
  observedAt := (s.run.equityCurve.getLast?.map Prod.fst).getD (s.lots.getLast hopen).openedAt
  orderId := "mark-to-market"
  decisionId := (s.lots.head hopen).decisionId
  asset := (fills.head?.map PaperFill.asset).getD ""
  side := .sell
  quantity := s.openLots
  priceUsd := s.lastPrice
  feeUsd := 0
  feeSource := none
  quantity_pos := sum_quantity_pos s.lots hopen
  price_pos := hprice
  fee_nonneg := zero_nonneg

/-- After the loop (report.py:268–280). -/
def finish (s : ReplayState) (strategyIds : Dict String (List String)) (fills : List PaperFill) :
    Except ReplayError PaperRun :=
  if h : s.lots ≠ [] ∧ 0 < s.lastPrice then
    match s.close strategyIds (s.synthetic fills h.1 h.2) 0 with
    | .error e => .error e
    | .ok s' => .ok { s'.run with openQuantity := max s.quantity 0 }
  else .ok { s.run with openQuantity := max s.quantity 0 }

end ReplayState

/-- `reconstruct` (report.py:211–280). -/
def reconstruct (marks : List MarkPoint) (fills : List PaperFill) (startingEquity feeBps : ℚ)
    (strategyIds : Dict String (List String)) : Except ReplayError PaperRun :=
  if startingEquity ≤ 0 then .error .startingEquity
  else
    match (ReplayState.start marks startingEquity).events feeBps strategyIds
        (replayEvents marks fills) with
    | .error e => .error e
    | .ok s => s.finish strategyIds fills

end TraderStack
