import TraderStack.Polymarket.Edge

/-!
# The weather evaluation (polymarket/eval.py)

A row of a print is scored when its forecast, its quote and its settlement can be used. Where the
edge is large enough, the treatment buys the side the model favours and the fade buys the other
side, both at the mid and half the spread; the fill at the mid is reported beside them.

- `midEntry_le_conservativeEntry`, `one_le_conservativeEntry_add`: what the spread does to the
  price of a side and to the price of both;
- `realizedPnl_add_opposite`: of two sides exactly one pays;
- `flatters_of_scored`: a scored row;
- `scoreRows_flatters`: **the totals of a print**.
-/

namespace TraderStack

open Lib

/-! ## Fills -/

/-- The other side. -/
def ContractSide.opposite : ContractSide → ContractSide
  | .yes => .no
  | .no => .yes

/-- `conservative_entry` (eval.py:250–253, crypto_eval.py:134–137). -/
def conservativeEntry (side : ContractSide) (mid halfSpread : ℚ) : ℚ :=
  if side = .yes then clip01 (mid + halfSpread) else clip01 ((1 - mid) + halfSpread)

/-- The price of a side at the mid. -/
def midEntry (side : ContractSide) (mid : ℚ) : ℚ := if side = .yes then mid else 1 - mid

/-- `realized_pnl` (eval.py:256–258, crypto_eval.py:140–142): a share pays 1 if its side won. -/
def realizedPnl (entry : ℚ) (won : Bool) (fee : ℚ) : ℚ :=
  (if won then 1 - entry else -entry) - fee

/-- Whether a side won, from whether YES did. -/
def sideWon (side : ContractSide) (yes : Bool) : Bool := if side = .yes then yes else !yes

/-! ### What the spread costs -/

theorem clip01_isPrice (v : ℚ) : IsPrice (clip01 v) :=
  ⟨le_min zero_le_one (le_max_left 0 v), min_le_left 1 _⟩

theorem le_clip01 {p v : ℚ} (hp : p ≤ 1) (hv : p ≤ v) : p ≤ clip01 v :=
  le_min hp (hv.trans (le_max_right 0 v))

theorem midEntry_isPrice {mid : ℚ} (h : IsPrice mid) (side : ContractSide) :
    IsPrice (midEntry side mid) := by
  obtain ⟨hlow, hhigh⟩ := h
  cases side with
  | yes => exact ⟨hlow, hhigh⟩
  | no => exact ⟨sub_nonneg.mpr hhigh, sub_le_self 1 hlow⟩

theorem conservativeEntry_isPrice (side : ContractSide) (mid halfSpread : ℚ) :
    IsPrice (conservativeEntry side mid halfSpread) := by
  unfold conservativeEntry
  split <;> exact clip01_isPrice _

/-- The conservative price of a side is at least its mid. -/
theorem midEntry_le_conservativeEntry {mid halfSpread : ℚ} (h : IsPrice mid)
    (hspread : 0 ≤ halfSpread) (side : ContractSide) :
    midEntry side mid ≤ conservativeEntry side mid halfSpread := by
  have hprice := midEntry_isPrice h side
  cases side with
  | yes => exact le_clip01 hprice.2 (le_add_of_nonneg_right hspread)
  | no => exact le_clip01 hprice.2 (le_add_of_nonneg_right hspread)

theorem midEntry_add_opposite (side : ContractSide) (mid : ℚ) :
    midEntry side mid + midEntry side.opposite mid = 1 := by
  cases side with
  | yes => exact add_sub_cancel mid 1
  | no => exact sub_add_cancel 1 mid

/-- Both sides together cost at least what one of them pays. -/
theorem one_le_conservativeEntry_add {mid halfSpread : ℚ} (h : IsPrice mid)
    (hspread : 0 ≤ halfSpread) (side : ContractSide) :
    1 ≤ conservativeEntry side mid halfSpread +
      conservativeEntry side.opposite mid halfSpread := by
  rw [← midEntry_add_opposite side mid]
  exact add_le_add (midEntry_le_conservativeEntry h hspread side)
    (midEntry_le_conservativeEntry h hspread side.opposite)

/-- Of the two sides exactly one pays. -/
theorem realizedPnl_add_opposite (side : ContractSide) (yes : Bool) (entry other fee otherFee : ℚ) :
    realizedPnl entry (sideWon side yes) fee +
        realizedPnl other (sideWon side.opposite yes) otherFee =
      1 - (entry + other) - (fee + otherFee) := by
  cases side <;> cases yes <;> simp [realizedPnl, sideWon, ContractSide.opposite] <;> ring

/-- A fill whose price and fee together are larger earns less, whoever wins. -/
theorem realizedPnl_le {entry worse fee worseFee : ℚ} (h : entry + fee ≤ worse + worseFee)
    (won : Bool) : realizedPnl worse won worseFee ≤ realizedPnl entry won fee := by
  unfold realizedPnl
  split <;> linarith

/-! ## Rows -/

namespace Weather

/-- What becomes of a row (`RowDisposition.status`). -/
inductive RowStatus where
  | cityBlocked
  | lookahead
  | stationUnmatched
  | midOutOfBounds
  | unparsed
  | wouldTrade
  | belowEdge
deriving DecidableEq, Repr

/-- The source's words for a status. -/
def RowStatus.text : RowStatus → String
  | .cityBlocked => "city_blocked"
  | .lookahead => "lookahead"
  | .stationUnmatched => "station_unmatched"
  | .midOutOfBounds => "mid_out_of_bounds"
  | .unparsed => "unparsed"
  | .wouldTrade => "would_trade"
  | .belowEdge => "below_edge"

/-- `RowDisposition` (eval.py:122–134). -/
structure RowDisposition where
  marketId : String
  printId : String
  citySlug : String
  eventDate : ℤ
  status : RowStatus
  reason : String
  side : Option ContractSide
  netEdge : Option ℚ
  conservativePnl : Option ℚ
  fadePnl : Option ℚ
  midfillPnl : Option ℚ
  yesResolved : Option Bool

/-- The keyword arguments of `_score_rows`. The text of pydantic's error for a forecast without
a positive sigma is a parameter. -/
structure EvalSettings where
  minEdge : ℚ
  feeHaircut : ℚ
  sigmaF : ℚ
  defaultHalfSpread : ℚ
  holdoutFraction : ℚ
  allowlist : List String
  minMid : ℚ
  maxMid : ℚ
  printId : String
  invalidForecast : String

/-- `_row_reason` (eval.py:261–288). -/
def rowReason (s : EvalSettings) (row : ResolvedWeatherRow) : Option RowStatus :=
  let blank := (row.stationId.getD "").toList.all Lines.isSpace
  if row.citySlug ∉ s.allowlist then some .cityBlocked
  else if row.closeAt ≤ row.forecastIssuedAt then some .lookahead
  else if blank ∨ row.officialHighF = none then some .stationUnmatched
  else if ¬(s.minMid ≤ row.marketMid ∧ row.marketMid ≤ s.maxMid) then some .midOutOfBounds
  else if row.contract = .thresholdOrHigher ∧ row.thresholdF = none then some .unparsed
  else if row.contract = .thresholdOrLower ∧ row.thresholdF = none then some .unparsed
  else if row.contract = .bucket ∧ (row.bucketLowF = none ∨ row.bucketHighF = none) then
    some .unparsed
  else if yesWon row = none then some .unparsed
  else none

/-- `_as_forecast`. -/
def asForecast (s : EvalSettings) (row : ResolvedWeatherRow) : Except String ForecastPoint :=
  if h : 0 < s.sigmaF then .ok ⟨row.forecastHighF, s.sigmaF, h⟩ else .error s.invalidForecast

/-- The disposition of a row that is not scored. -/
def dropped (s : EvalSettings) (row : ResolvedWeatherRow) (status : RowStatus) (reason : String) :
    RowDisposition :=
  ⟨row.marketId, s.printId, row.citySlug, row.eventDate, status, reason, none, none, none, none,
    none, none⟩

/-- The spread a row is filled at. -/
def tradedHalfSpread (s : EvalSettings) (row : ResolvedWeatherRow) : ℚ :=
  row.halfSpread.getD s.defaultHalfSpread

/-- The disposition of an eligible row (eval.py:375–419). -/
def scored (s : EvalSettings) (row : ResolvedWeatherRow) (edge : EdgeCalculation) (won : Bool) :
    RowDisposition :=
  let halfSpread := tradedHalfSpread s row
  let pnl (entry : ℚ) (side : ContractSide) := realizedPnl entry (sideWon side won) s.feeHaircut
  let fadeSide := edge.side.opposite
  let treatmentPnl := pnl (conservativeEntry edge.side row.marketMid halfSpread) edge.side
  let fadePnl := pnl (conservativeEntry fadeSide row.marketMid halfSpread) fadeSide
  let midfillPnl := pnl (midEntry edge.side row.marketMid) edge.side
  if s.minEdge ≤ edge.netEdge then
    ⟨row.marketId, s.printId, row.citySlug, row.eventDate, .wouldTrade, "", some edge.side,
      some edge.netEdge, some treatmentPnl, some fadePnl, some midfillPnl, some won⟩
  else
    ⟨row.marketId, s.printId, row.citySlug, row.eventDate, .belowEdge, "", none,
      some edge.netEdge, some 0, some 0, some 0, some won⟩

/-- The loop's body (eval.py:343–420): the disposition of a row, as an error where the row is not
eligible. -/
def scoreRow (normalCdf : ℚ → ℚ) (s : EvalSettings) (row : ResolvedWeatherRow) :
    Except RowDisposition RowDisposition :=
  match rowReason s row with
  | some reason => .error (dropped s row reason reason.text)
  | none =>
    let edge := do
      let forecast ← asForecast s row
      calculateEdge normalCdf row.asMarket forecast row.marketMid s.feeHaircut
    match edge, yesWon row with
    | .error text, _ => .error (dropped s row .unparsed text)
    | .ok edge, some won => .ok (scored s row edge won)
    -- the assertion: a row that is not settled was dropped above
    | .ok _, none => .error (dropped s row .unparsed "")

/-! ## Prints -/

/-- `PrintMetrics` (eval.py:137–161). -/
structure PrintMetrics where
  printId : String
  nRows : ℕ
  nCityBlocked : ℕ
  nLookaheadDropped : ℕ
  nStationDropped : ℕ
  nMidDropped : ℕ
  nUnparsed : ℕ
  nEligible : ℕ
  nWouldTrade : ℕ
  nBelowEdge : ℕ
  treatmentPnl : ℚ
  fadePnl : ℚ
  holdPnl : ℚ
  midfillTreatmentPnl : ℚ
  treatmentExcessVsHold : ℚ
  treatmentExcessVsFade : ℚ
  midfillExcessVsHold : ℚ
  holdoutN : Option ℕ
  holdoutWouldTrade : Option ℕ
  holdoutTreatmentExcessVsHold : Option ℚ
  holdoutTreatmentExcessVsFade : Option ℚ
  failClosedReason : Option String
  usedMidFillAsPrimary : Bool
  halfSpreadDefaultUsed : ℕ

/-- `MIN_ELIGIBLE_PER_PRINT`. -/
def minEligiblePerPrint : ℕ := 20

/-- `MIN_TRADES_PER_PRINT`. -/
def minTradesPerPrint : ℕ := 8

/-- `MIN_ROWS_FOR_HOLDOUT`. -/
def minRowsForHoldout : ℕ := 10

/-- The rows that are scored, with their dispositions. -/
def eligible (normalCdf : ℚ → ℚ) (s : EvalSettings) (rows : List ResolvedWeatherRow) :
    List (ResolvedWeatherRow × RowDisposition) :=
  rows.filterMap fun row => (scoreRow normalCdf s row).toOption.map (row, ·)

/-- One disposition a row, in the order of the rows. -/
def dispositions (normalCdf : ℚ → ℚ) (s : EvalSettings) (rows : List ResolvedWeatherRow) :
    List RowDisposition :=
  rows.map fun row => match scoreRow normalCdf s row with | .ok d | .error d => d

/-- How many dispositions have a status. -/
def count (status : RowStatus) (items : List RowDisposition) : ℕ :=
  items.countP fun d => d.status = status

/-- `sum(item.conservative_pnl or 0.0)` and its like. -/
def total (pnl : RowDisposition → Option ℚ) (items : List RowDisposition) : ℚ :=
  (items.map fun d => (pnl d).getD 0).sum

/-- The eligible rows after the cut, by date and market (eval.py:428–430). -/
def holdout (s : EvalSettings) (pairs : List (ResolvedWeatherRow × RowDisposition)) :
    List RowDisposition :=
  let ordered := pairs.insertionSort fun p q =>
    p.1.eventDate < q.1.eventDate ∨ p.1.eventDate = q.1.eventDate ∧ p.1.marketId ≤ q.1.marketId
  let cut := max 1 (truncate (ordered.length * (1 - s.holdoutFraction)))
  (ordered.drop cut.toNat).map Prod.snd

/-- `_score_rows` (eval.py:317–479). -/
def scoreRows (normalCdf : ℚ → ℚ) (s : EvalSettings) (rows : List ResolvedWeatherRow) :
    PrintMetrics × List RowDisposition :=
  let items := dispositions normalCdf s rows
  let pairs := eligible normalCdf s rows
  let scored := pairs.map Prod.snd
  let treatment := total (·.conservativePnl) scored
  let fade := total (·.fadePnl) scored
  let midfill := total (·.midfillPnl) scored
  let nWould := count .wouldTrade scored
  let held := if minRowsForHoldout ≤ pairs.length then some (holdout s pairs) else none
  let failClosed :=
    if rows = [] then some "empty_print"
    else if pairs = [] then some "no_eligible_rows"
    else if nWould < minTradesPerPrint then some "below_min_trades"
    else if pairs.length < minEligiblePerPrint then some "below_min_eligible"
    else none
  ({ printId := s.printId
     nRows := rows.length
     nCityBlocked := count .cityBlocked items
     nLookaheadDropped := count .lookahead items
     nStationDropped := count .stationUnmatched items
     nMidDropped := count .midOutOfBounds items
     nUnparsed := count .unparsed items
     nEligible := pairs.length
     nWouldTrade := nWould
     nBelowEdge := count .belowEdge scored
     treatmentPnl := treatment
     fadePnl := fade
     holdPnl := 0
     midfillTreatmentPnl := midfill
     treatmentExcessVsHold := treatment
     treatmentExcessVsFade := treatment - fade
     midfillExcessVsHold := midfill
     holdoutN := held.map List.length
     holdoutWouldTrade := held.map (count .wouldTrade)
     holdoutTreatmentExcessVsHold := held.map (total (·.conservativePnl))
     holdoutTreatmentExcessVsFade := held.map fun items =>
       total (·.conservativePnl) items - total (·.fadePnl) items
     failClosedReason := failClosed
     usedMidFillAsPrimary := false
     halfSpreadDefaultUsed := pairs.countP fun p => p.1.halfSpread = none }, items)

/-! ## The totals -/

section Totals

variable {normalCdf : ℚ → ℚ} {s : EvalSettings} (hspread : 0 ≤ s.defaultHalfSpread)

theorem calculateEdge_fee {market : ParsedTemperatureMarket} {forecast : ForecastPoint}
    {mid fee : ℚ} {edge : EdgeCalculation}
    (h : calculateEdge normalCdf market forecast mid fee = .ok edge) : 0 ≤ fee ∧ fee < 1 := by
  unfold calculateEdge at h
  split_ifs at h with hmid hfee
  exact hfee

/-- A row that is scored has been priced under an admissible fee. -/
theorem scored_of_scoreRow {row : ResolvedWeatherRow} {d : RowDisposition}
    (h : scoreRow normalCdf s row = .ok d) :
    0 ≤ s.feeHaircut ∧ ∃ edge won, d = scored s row edge won := by
  unfold scoreRow at h
  split at h
  · cases h
  · dsimp only at h
    split at h
    · cases h
    · rename_i edge won hedge hwon
      cases hforecast : asForecast s row with
      | error text =>
        rw [hforecast] at hedge
        cases hedge
      | ok forecast =>
        rw [hforecast] at hedge
        exact ⟨(calculateEdge_fee hedge).1, edge, won, (Except.ok.inj h).symm⟩
    · cases h

include hspread

theorem tradedHalfSpread_nonneg (row : ResolvedWeatherRow) : 0 ≤ tradedHalfSpread s row := by
  cases h : row.halfSpread with
  | none =>
    rw [tradedHalfSpread, h]
    exact hspread
  | some halfSpread =>
    rw [tradedHalfSpread, h]
    exact (row.halfSpread_bounds halfSpread h).1

/-- A scored row earns no more than at the mid, and the two sides together lose both fees where
the row is traded. -/
theorem flatters_of_scored (row : ResolvedWeatherRow) (edge : EdgeCalculation) (won : Bool) :
    let d := scored s row edge won
    d.conservativePnl.getD 0 ≤ d.midfillPnl.getD 0 ∧
      (d.status = .wouldTrade →
        d.conservativePnl.getD 0 + d.fadePnl.getD 0 ≤ -(s.feeHaircut + s.feeHaircut)) ∧
      (d.status ≠ .wouldTrade → d.conservativePnl.getD 0 + d.fadePnl.getD 0 = 0) := by
  have hhalf := tradedHalfSpread_nonneg hspread row
  have hworse := midEntry_le_conservativeEntry row.marketMid_price hhalf edge.side
  have hboth := one_le_conservativeEntry_add row.marketMid_price hhalf edge.side
  intro d
  by_cases hedge : s.minEdge ≤ edge.netEdge
  · have hd : d = scored s row edge won := rfl
    rw [scored, if_pos hedge] at hd
    rw [hd]
    refine ⟨realizedPnl_le (by linarith) _, fun _ => ?_, fun h => absurd rfl h⟩
    dsimp only [Option.getD_some]
    rw [realizedPnl_add_opposite]
    linarith
  · have hd : d = scored s row edge won := rfl
    rw [scored, if_neg hedge] at hd
    rw [hd]
    refine ⟨le_rfl, fun h => ?_, fun _ => add_zero 0⟩
    cases h

/-- What every scored disposition of a print satisfies. -/
theorem flatters_of_mem {rows : List ResolvedWeatherRow} {d : RowDisposition}
    (h : d ∈ (eligible normalCdf s rows).map Prod.snd) :
    0 ≤ s.feeHaircut ∧ d.conservativePnl.getD 0 ≤ d.midfillPnl.getD 0 ∧
      (d.status = .wouldTrade →
        d.conservativePnl.getD 0 + d.fadePnl.getD 0 ≤ -(s.feeHaircut + s.feeHaircut)) ∧
      (d.status ≠ .wouldTrade → d.conservativePnl.getD 0 + d.fadePnl.getD 0 = 0) := by
  obtain ⟨⟨row, d'⟩, hpair, rfl⟩ := List.mem_map.mp h
  obtain ⟨r, -, hr⟩ := List.mem_filterMap.mp hpair
  obtain ⟨d'', hd'', hr⟩ := Option.map_eq_some_iff.mp hr
  cases hr
  cases hscore : scoreRow normalCdf s row with
  | error e =>
    rw [hscore] at hd''
    cases hd''
  | ok e =>
    rw [hscore] at hd''
    cases hd''
    obtain ⟨hfee, edge, won, rfl⟩ := scored_of_scoreRow hscore
    exact ⟨hfee, flatters_of_scored hspread row edge won⟩

/-- **The totals of a print**: the treatment earns no more than the fill at the mid, and the
treatment and the fade together earn nothing. -/
theorem scoreRows_flatters (rows : List ResolvedWeatherRow) :
    let metrics := (scoreRows normalCdf s rows).1
    metrics.treatmentPnl ≤ metrics.midfillTreatmentPnl ∧
      metrics.treatmentPnl + metrics.fadePnl ≤ 0 := by
  dsimp only [scoreRows, total]
  constructor
  · exact List.sum_le_sum fun d hd => (flatters_of_mem hspread hd).2.1
  · rw [← List.sum_map_add]
    refine (List.sum_le_card_nsmul _ 0 ?_).trans_eq (nsmul_zero _)
    intro p hp
    obtain ⟨d, hd, rfl⟩ := List.mem_map.mp hp
    obtain ⟨hfee, -, htraded, hother⟩ := flatters_of_mem hspread hd
    by_cases hstatus : d.status = .wouldTrade
    · linarith [htraded hstatus]
    · exact (hother hstatus).le

end Totals

end Weather

end TraderStack
