import TraderStack.Polymarket.WeatherEval

/-!
# The crypto-wedge evaluation (polymarket/crypto_eval.py)

A row of the tape is scored when its wedge is large, nothing adverse is known and its market is
settled. The treatment sells the rich side, the fade buys it, and each pays the taker fee of its
own entry: a fee that falls as the price moves away from one half, so the worse entry may carry
the smaller fee.

- `add_entryFee_mono`: price and fee together rise with the price;
- `flatters_of_traded`: a scored row;
- `scorePrint_flatters`: **the totals of a print**;
- `conservative_never_flatters`: **both evaluators**.
-/

namespace TraderStack

open Lib

/-! ## Fees -/

/-- `POLYMARKET_CRYPTO_TAKER_FEE_RATE`. -/
def polymarketCryptoTakerFeeRate : ℚ := 7 / 100

/-- `POLYMARKET_CRYPTO_TAKER_FEE_CAP_PER_100_SHARES`. -/
def polymarketCryptoTakerFeeCapPer100Shares : ℚ := 7 / 4

/-- `SHARES_NOTIONAL`. -/
def sharesNotional : ℚ := 100

/-- `polymarket_taker_fee` (crypto_eval.py:118–123). -/
def polymarketTakerFee (price shares : ℚ) : ℚ :=
  let p := clip01 price
  let raw := shares * polymarketCryptoTakerFeeRate * p * (1 - p)
  let cap := polymarketCryptoTakerFeeCapPer100Shares * (shares / 100)
  min raw cap

/-- The fee of an entry, per dollar of notional. -/
def entryFee (entry : ℚ) : ℚ := polymarketTakerFee entry sharesNotional / sharesNotional

theorem entryFee_eq {p : ℚ} (h : IsPrice p) :
    entryFee p = min (7 / 100 * (p * (1 - p))) (7 / 400) := by
  have hraw : sharesNotional * polymarketCryptoTakerFeeRate * p * (1 - p) / sharesNotional =
      7 / 100 * (p * (1 - p)) := by
    rw [sharesNotional, polymarketCryptoTakerFeeRate]
    ring
  have hcap : polymarketCryptoTakerFeeCapPer100Shares * (sharesNotional / 100) / sharesNotional =
      7 / 400 := by
    norm_num [sharesNotional, polymarketCryptoTakerFeeCapPer100Shares]
  rw [entryFee, polymarketTakerFee, clip01_of_isPrice h]
  rw [← min_div_div_right (by norm_num [sharesNotional]), hraw, hcap]

theorem entryFee_nonneg {p : ℚ} (h : IsPrice p) : 0 ≤ entryFee p := by
  rw [entryFee_eq h]
  have hprod : 0 ≤ p * (1 - p) := mul_nonneg h.1 (sub_nonneg.mpr h.2)
  exact le_min (by linarith) (by norm_num)

/-- Below the cap a higher price saves at most 7 cents of fee a dollar, so price and fee together
rise. -/
theorem add_entryFee_mono {p q : ℚ} (hp : IsPrice p) (hq : IsPrice q) (h : p ≤ q) :
    p + entryFee p ≤ q + entryFee q := by
  rw [entryFee_eq hp, entryFee_eq hq, ← min_add_add_left, ← min_add_add_left]
  refine min_le_min ?_ (by linarith)
  have hslope : 0 ≤ (q - p) * (1 + 7 / 100 * (1 - p - q)) :=
    mul_nonneg (sub_nonneg.mpr h) (by linarith [hp.2, hq.2])
  linarith

/-! ## Rows -/

namespace Wedge

/-- `CryptoAsset`. -/
inductive CryptoAsset where
  | btc
  | eth
deriving DecidableEq, Repr

/-- `str(asset)`. -/
def CryptoAsset.text : CryptoAsset → String
  | .btc => "BTC"
  | .eth => "ETH"

/-- `WedgeRowStatus`. -/
inductive WedgeRowStatus where
  | ok
  | stalePolymarket
  | staleDeribit
  | noTwoSidedBook
  | noOptionProbability
deriving DecidableEq, Repr

/-- `str(status)`. -/
def WedgeRowStatus.text : WedgeRowStatus → String
  | .ok => "ok"
  | .stalePolymarket => "stale_polymarket"
  | .staleDeribit => "stale_deribit"
  | .noTwoSidedBook => "no_two_sided_book"
  | .noOptionProbability => "no_option_probability"

/-- `CrucixStatus`. -/
inductive CrucixStatus where
  | clear
  | adverse
  | unavailable
  | notConfigured
deriving DecidableEq, Repr

/-- `str(crucix_status)`. -/
def CrucixStatus.text : CrucixStatus → String
  | .clear => "clear"
  | .adverse => "adverse"
  | .unavailable => "unavailable"
  | .notConfigured => "not_configured"

/-- A mid that may be absent. -/
def IsPriceField (p : Option ℚ) : Prop := ∀ v ∈ p, IsPrice v

/-- `CryptoWedgeRow` (crypto_models.py:69–102). -/
structure CryptoWedgeRow where
  status : WedgeRowStatus
  marketId : String
  asset : CryptoAsset
  resolvesAt : Time
  observedAt : Time
  polyMid : Option ℚ
  polyBestBid : Option ℚ
  polyBestAsk : Option ℚ
  wedge : Option ℚ
  crucixStatus : CrucixStatus
  polyMid_price : IsPriceField polyMid

/-- `SettlementRow`. -/
structure SettlementRow where
  marketId : String
  yesWon : Bool

/-- What becomes of a row. -/
inductive RowStatus where
  | nonOk
  | lookahead
  | standAside
  | belowThreshold
  | unsettled
  | wouldTrade
deriving DecidableEq, Repr

/-- `RowDisposition` (crypto_eval.py:53–66). -/
structure RowDisposition where
  marketId : String
  printId : String
  asset : String
  resolvesOn : Option ℤ
  status : RowStatus
  reason : Option String
  side : Option ContractSide
  wedge : Option ℚ
  conservativePnl : Option ℚ
  fadePnl : Option ℚ
  midfillPnl : Option ℚ
  yesResolved : Option Bool

/-- The keyword arguments of `_score_print`. -/
structure EvalSettings where
  printId : String
  wedgeThreshold : ℚ
  holdoutFraction : ℚ
  defaultHalfSpread : ℚ

/-- `half_spread_from_row` (crypto_eval.py:126–131). -/
def halfSpreadFromRow (row : CryptoWedgeRow) : Option ℚ :=
  match row.polyBestBid, row.polyBestAsk with
  | some bid, some ask => if ask < bid then none else some ((ask - bid) / 2)
  | _, _ => none

/-- `treatment_side` (crypto_eval.py:145–149): sell what Polymarket prices above Deribit. -/
def treatmentSide (wedge : ℚ) : ContractSide := if 0 < wedge then .no else .yes

/-- `stand_aside` (crypto_gate.py:32–35). -/
def standAside (status : CrucixStatus) : Bool := status ≠ .clear

/-- The disposition of a row that is not scored. -/
def dropped (s : EvalSettings) (row : CryptoWedgeRow) (resolvesOn : Option ℤ) (status : RowStatus)
    (reason : Option String) (wedge : Option ℚ) : RowDisposition :=
  ⟨row.marketId, s.printId, row.asset.text, resolvesOn, status, reason, none, wedge, none, none,
    none, none⟩

/-- The spread a row is filled at. -/
def tradedHalfSpread (s : EvalSettings) (row : CryptoWedgeRow) : ℚ :=
  (halfSpreadFromRow row).getD s.defaultHalfSpread

/-- The disposition of a row that is traded (crypto_eval.py:337–365). -/
def traded (s : EvalSettings) (row : CryptoWedgeRow) (mid wedge : ℚ) (wonYes : Bool) :
    RowDisposition :=
  let side := treatmentSide wedge
  let halfSpread := tradedHalfSpread s row
  let pnl (entry : ℚ) (side : ContractSide) :=
    realizedPnl entry (sideWon side wonYes) (entryFee entry)
  let treatPnl := pnl (conservativeEntry side mid halfSpread) side
  let fadePnl := pnl (conservativeEntry side.opposite mid halfSpread) side.opposite
  let midPnl := pnl (midEntry side mid) side
  ⟨row.marketId, s.printId, row.asset.text, some (utcDate row.resolvesAt), .wouldTrade, none,
    some side, some wedge, some treatPnl, some fadePnl, some midPnl, some wonYes⟩

/-- The loop's body (crypto_eval.py:264–367): the disposition of a row, as an error where the row
is not traded. -/
def scoreRow (s : EvalSettings) (settlements : Dict String SettlementRow) (row : CryptoWedgeRow) :
    Except RowDisposition RowDisposition :=
  let day := some (utcDate row.resolvesAt)
  if row.status ≠ .ok then .error (dropped s row none .nonOk row.status.text none)
  else if row.resolvesAt ≤ row.observedAt then
    .error (dropped s row none .lookahead (some "observed_at_ge_resolves_at") none)
  else
    match row.wedge, row.polyMid with
    | some wedge, some mid =>
      if standAside row.crucixStatus then
        .error (dropped s row day .standAside row.crucixStatus.text wedge)
      else if |wedge| < s.wedgeThreshold then
        .error (dropped s row day .belowThreshold none wedge)
      else
        match settlements.get? row.marketId with
        | none =>
          .error (dropped s row day .unsettled (some "settlement_missing_skip_not_invent") wedge)
        | some settlement => .ok (traded s row mid wedge settlement.yesWon)
    | _, _ => .error (dropped s row none .nonOk (some "missing_wedge_or_mid") none)

/-! ## Prints -/

/-- `PrintMetrics` (crypto_eval.py:69–92). -/
structure PrintMetrics where
  printId : String
  nRows : ℕ
  nDecision : ℕ
  nLookahead : ℕ
  nNonOk : ℕ
  nStandAside : ℕ
  nBelowThreshold : ℕ
  nUnsettled : ℕ
  nEligible : ℕ
  nWouldTrade : ℕ
  treatmentPnl : ℚ
  fadePnl : ℚ
  holdPnl : ℚ
  midfillTreatmentPnl : ℚ
  treatmentExcessVsHold : ℚ
  treatmentExcessVsFade : ℚ
  holdoutN : Option ℕ
  holdoutWouldTrade : Option ℕ
  holdoutTreatmentExcessVsHold : Option ℚ
  holdoutTreatmentExcessVsFade : Option ℚ
  failClosedReason : Option String
  usedMidFillAsPrimary : Bool
  hedgedStatus : String

/-- `MIN_ROWS_PER_PRINT`. -/
def minRowsPerPrint : ℕ := 20

/-- `MIN_TRADES_PER_PRINT`. -/
def minTradesPerPrint : ℕ := 8

/-- `MIN_ROWS_FOR_HOLDOUT`. -/
def minRowsForHoldout : ℕ := 10

/-- The rows that are traded, with their dispositions. -/
def eligible (s : EvalSettings) (settlements : Dict String SettlementRow)
    (rows : List CryptoWedgeRow) : List (CryptoWedgeRow × RowDisposition) :=
  rows.filterMap fun row => (scoreRow s settlements row).toOption.map (row, ·)

/-- One disposition a row, in the order of the rows. -/
def dispositions (s : EvalSettings) (settlements : Dict String SettlementRow)
    (rows : List CryptoWedgeRow) : List RowDisposition :=
  rows.map fun row => match scoreRow s settlements row with | .ok d | .error d => d

/-- How many dispositions have a status. -/
def count (status : RowStatus) (items : List RowDisposition) : ℕ :=
  items.countP fun d => d.status = status

/-- `sum(d.conservative_pnl or 0.0)` and its like. -/
def total (pnl : RowDisposition → Option ℚ) (items : List RowDisposition) : ℚ :=
  (items.map fun d => (pnl d).getD 0).sum

/-- The eligible rows after the cut, by resolution and market (crypto_eval.py:380–386). -/
def holdout (s : EvalSettings) (pairs : List (CryptoWedgeRow × RowDisposition)) :
    List RowDisposition :=
  let ordered := pairs.insertionSort fun p q =>
    p.1.resolvesAt < q.1.resolvesAt ∨
      p.1.resolvesAt = q.1.resolvesAt ∧ p.1.marketId ≤ q.1.marketId
  let cut := max 1 (truncate (ordered.length * (1 - s.holdoutFraction)))
  (ordered.drop cut.toNat).map Prod.snd

/-- `_score_print` (crypto_eval.py:237–430). -/
def scorePrint (s : EvalSettings) (settlements : Dict String SettlementRow)
    (rows : List CryptoWedgeRow) : PrintMetrics × List RowDisposition :=
  let items := dispositions s settlements rows
  let pairs := eligible s settlements rows
  let traded := pairs.map Prod.snd
  let nWould := pairs.length
  let treatment := total (·.conservativePnl) traded
  let fade := total (·.fadePnl) traded
  let midfill := total (·.midfillPnl) traded
  let held := if minRowsForHoldout ≤ pairs.length then some (holdout s pairs) else none
  let nUnsettled := count .unsettled items
  let failClosed :=
    if rows = [] then some "empty_print"
    else if nWould = 0 ∧ 0 < nUnsettled ∧
        count .standAside items + count .belowThreshold items = 0 then
      some "no_settlements_skip_not_invent"
    else if nWould = 0 then some "no_eligible_trades"
    else if nWould < minTradesPerPrint then some "below_min_trades"
    else if nWould < minRowsPerPrint then some "below_min_eligible"
    else none
  ({ printId := s.printId
     nRows := rows.length
     nDecision := rows.countP fun row => row.status = .ok
     nLookahead := count .lookahead items
     nNonOk := count .nonOk items
     nStandAside := count .standAside items
     nBelowThreshold := count .belowThreshold items
     nUnsettled := nUnsettled
     nEligible := nWould
     nWouldTrade := nWould
     treatmentPnl := treatment
     fadePnl := fade
     holdPnl := 0
     midfillTreatmentPnl := midfill
     treatmentExcessVsHold := treatment
     treatmentExcessVsFade := treatment - fade
     holdoutN := held.map List.length
     holdoutWouldTrade := held.map List.length
     holdoutTreatmentExcessVsHold := held.map (total (·.conservativePnl))
     holdoutTreatmentExcessVsFade := held.map fun items =>
       total (·.conservativePnl) items - total (·.fadePnl) items
     failClosedReason := failClosed
     usedMidFillAsPrimary := false
     hedgedStatus := "skipped_not_invented" }, items)

/-! ## The totals -/

section Totals

/-- The two fees of a traded row: each side pays that of its own entry. -/
def bothFees (s : EvalSettings) (row : CryptoWedgeRow) (mid wedge : ℚ) : ℚ :=
  let side := treatmentSide wedge
  let halfSpread := tradedHalfSpread s row
  entryFee (conservativeEntry side mid halfSpread) +
    entryFee (conservativeEntry side.opposite mid halfSpread)

theorem bothFees_nonneg (s : EvalSettings) (row : CryptoWedgeRow) (mid wedge : ℚ) :
    0 ≤ bothFees s row mid wedge :=
  add_nonneg (entryFee_nonneg (conservativeEntry_isPrice _ _ _))
    (entryFee_nonneg (conservativeEntry_isPrice _ _ _))

theorem halfSpreadFromRow_nonneg {row : CryptoWedgeRow} {halfSpread : ℚ}
    (h : halfSpreadFromRow row = some halfSpread) : 0 ≤ halfSpread := by
  unfold halfSpreadFromRow at h
  split at h
  · split_ifs at h with hcross
    have hle := not_lt.mp hcross
    have hhalf := Option.some.inj h
    linarith
  · cases h

/-- A row that is scored has a wedge, a mid and a settlement. -/
theorem traded_of_scoreRow {s : EvalSettings} {settlements : Dict String SettlementRow}
    {row : CryptoWedgeRow} {d : RowDisposition} (h : scoreRow s settlements row = .ok d) :
    ∃ mid wedge settlement, row.polyMid = some mid ∧ row.wedge = some wedge ∧
      settlements.get? row.marketId = some settlement ∧
      d = traded s row mid wedge settlement.yesWon := by
  unfold scoreRow at h
  dsimp only at h
  split at h
  · cases h
  · split at h
    · cases h
    · split at h
      · rename_i wedge mid hwedge hmid
        split at h
        · cases h
        · split at h
          · cases h
          · split at h
            · cases h
            · rename_i settlement hsettlement
              exact ⟨mid, wedge, settlement, hmid, hwedge, hsettlement, (Except.ok.inj h).symm⟩
      · cases h

variable {s : EvalSettings} {settlements : Dict String SettlementRow}
  (hspread : 0 ≤ s.defaultHalfSpread)
include hspread

theorem tradedHalfSpread_nonneg (row : CryptoWedgeRow) : 0 ≤ tradedHalfSpread s row := by
  cases h : halfSpreadFromRow row with
  | none =>
    rw [tradedHalfSpread, h]
    exact hspread
  | some halfSpread =>
    rw [tradedHalfSpread, h]
    exact halfSpreadFromRow_nonneg h

/-- A traded row earns no more than at the mid, and its two sides together lose both fees. -/
theorem flatters_of_traded (row : CryptoWedgeRow) {mid : ℚ} (hmid : IsPrice mid) (wedge : ℚ)
    (wonYes : Bool) :
    let d := traded s row mid wedge wonYes
    d.conservativePnl.getD 0 ≤ d.midfillPnl.getD 0 ∧
      d.conservativePnl.getD 0 + d.fadePnl.getD 0 ≤ -bothFees s row mid wedge := by
  have hhalf := tradedHalfSpread_nonneg hspread row
  have hworse := midEntry_le_conservativeEntry hmid hhalf (treatmentSide wedge)
  have hboth := one_le_conservativeEntry_add hmid hhalf (treatmentSide wedge)
  intro d
  constructor
  · exact realizedPnl_le (add_entryFee_mono (midEntry_isPrice hmid _)
      (conservativeEntry_isPrice _ _ _) hworse) _
  · dsimp only [d, traded, Option.getD_some, bothFees]
    rw [realizedPnl_add_opposite]
    linarith

/-- What every traded disposition of a print satisfies. -/
theorem flatters_of_mem {rows : List CryptoWedgeRow} {d : RowDisposition}
    (h : d ∈ (eligible s settlements rows).map Prod.snd) :
    d.conservativePnl.getD 0 ≤ d.midfillPnl.getD 0 ∧
      d.conservativePnl.getD 0 + d.fadePnl.getD 0 ≤ 0 := by
  obtain ⟨⟨row, d'⟩, hpair, rfl⟩ := List.mem_map.mp h
  obtain ⟨r, -, hr⟩ := List.mem_filterMap.mp hpair
  obtain ⟨d'', hd'', hr⟩ := Option.map_eq_some_iff.mp hr
  cases hr
  cases hscore : scoreRow s settlements row with
  | error e =>
    rw [hscore] at hd''
    cases hd''
  | ok e =>
    rw [hscore] at hd''
    cases hd''
    obtain ⟨mid, wedge, settlement, hmid, -, -, rfl⟩ := traded_of_scoreRow hscore
    obtain ⟨hmidfill, hfees⟩ := flatters_of_traded hspread row (row.polyMid_price mid hmid) wedge
      settlement.yesWon
    exact ⟨hmidfill, hfees.trans (neg_nonpos.mpr (bothFees_nonneg s row mid wedge))⟩

/-- **The totals of a print**: the treatment earns no more than the fill at the mid, and the
treatment and the fade together earn nothing. -/
theorem scorePrint_flatters (rows : List CryptoWedgeRow) :
    let metrics := (scorePrint s settlements rows).1
    metrics.treatmentPnl ≤ metrics.midfillTreatmentPnl ∧
      metrics.treatmentPnl + metrics.fadePnl ≤ 0 := by
  dsimp only [scorePrint, total]
  constructor
  · exact List.sum_le_sum fun d hd => (flatters_of_mem hspread hd).1
  · rw [← List.sum_map_add]
    refine (List.sum_le_card_nsmul _ 0 ?_).trans_eq (nsmul_zero _)
    intro p hp
    obtain ⟨d, hd, rfl⟩ := List.mem_map.mp hp
    exact (flatters_of_mem hspread hd).2

end Totals

end Wedge

/-! ## Both evaluators -/

/-- **Conservative fills never flatter**: in either evaluator a scored row earns no more than at
the mid, and its two sides together lose both fees; so the treatment of a print earns no more than
the fill at the mid, and treatment and fade do not both earn. -/
theorem conservative_never_flatters (normalCdf : ℚ → ℚ) (s : Weather.EvalSettings)
    (hs : 0 ≤ s.defaultHalfSpread) (rows : List ResolvedWeatherRow) (t : Wedge.EvalSettings)
    (ht : 0 ≤ t.defaultHalfSpread) (settlements : Dict String Wedge.SettlementRow)
    (tape : List Wedge.CryptoWedgeRow) :
    let weather := (Weather.scoreRows normalCdf s rows).1
    let wedge := (Wedge.scorePrint t settlements tape).1
    (∀ row ∈ rows, ∀ d, Weather.scoreRow normalCdf s row = .ok d →
      d.conservativePnl.getD 0 ≤ d.midfillPnl.getD 0 ∧
        (d.status = .wouldTrade →
          d.conservativePnl.getD 0 + d.fadePnl.getD 0 ≤ -(s.feeHaircut + s.feeHaircut))) ∧
    weather.treatmentPnl ≤ weather.midfillTreatmentPnl ∧
    ¬(0 < weather.treatmentPnl ∧ 0 < weather.fadePnl) ∧
    (∀ row ∈ tape, ∀ d, Wedge.scoreRow t settlements row = .ok d →
      ∃ mid difference, row.polyMid = some mid ∧ row.wedge = some difference ∧
        d.conservativePnl.getD 0 ≤ d.midfillPnl.getD 0 ∧
        d.conservativePnl.getD 0 + d.fadePnl.getD 0 ≤ -Wedge.bothFees t row mid difference) ∧
    wedge.treatmentPnl ≤ wedge.midfillTreatmentPnl ∧
    ¬(0 < wedge.treatmentPnl ∧ 0 < wedge.fadePnl) := by
  intro weather wedge
  obtain ⟨hweather, hweatherBoth⟩ := Weather.scoreRows_flatters hs rows
  obtain ⟨hwedge, hwedgeBoth⟩ := Wedge.scorePrint_flatters ht tape
  refine ⟨?_, hweather, ?_, ?_, hwedge, ?_⟩
  · intro row _ d hd
    obtain ⟨-, edge, won, rfl⟩ := Weather.scored_of_scoreRow hd
    obtain ⟨hmid, hfees, -⟩ := Weather.flatters_of_scored hs row edge won
    exact ⟨hmid, hfees⟩
  · rintro ⟨htreatment, hfade⟩
    exact absurd hweatherBoth (not_le.mpr (add_pos htreatment hfade))
  · intro row _ d hd
    obtain ⟨mid, difference, settlement, hmid, hdifference, -, rfl⟩ := Wedge.traded_of_scoreRow hd
    exact ⟨mid, difference, hmid, hdifference, Wedge.flatters_of_traded ht row
      (row.polyMid_price mid hmid) difference settlement.yesWon⟩
  · rintro ⟨htreatment, hfade⟩
    exact absurd hwedgeBoth (not_le.mpr (add_pos htreatment hfade))

namespace Clipped

/-- Two cents of fee and a spread of one cent where the row has none. -/
def weather : Weather.EvalSettings :=
  ⟨1 / 20, 2 / 100, 3, 1 / 100, 1 / 5, ["miami"], 2 / 100, 98 / 100, "a", ""⟩

def wedge : Wedge.EvalSettings := ⟨"a", 1 / 20, 1 / 5, 1 / 100⟩

theorem price : Wedge.IsPriceField (some (99 / 100)) := by
  intro p hp
  cases hp
  exact ⟨by norm_num, by norm_num⟩

/-- Cheap against Deribit at 99 cents, quoted two cents to either side: the entry is clipped. -/
def tape : List Wedge.CryptoWedgeRow :=
  [⟨.ok, "m", .btc, 2, 1, some (99 / 100), some (97 / 100), some 1, some (-1 / 10), .clear, price⟩]

def settlements : Dict String Wedge.SettlementRow := Dict.ofList [("m", ⟨"m", true⟩)]

end Clipped

open Clipped in
/-- A clipped entry pays no fee, and still earns less than the fill at 99 cents. -/
theorem conservative_never_flatters_clipped :
    (Wedge.scorePrint wedge settlements tape).1.treatmentPnl = 0 ∧
      (Wedge.scorePrint wedge settlements tape).1.treatmentPnl ≤
        (Wedge.scorePrint wedge settlements tape).1.midfillTreatmentPnl :=
  ⟨by decide +kernel, (conservative_never_flatters (fun _ => 0) weather (by decide +kernel) []
    wedge (by decide +kernel) settlements tape).2.2.2.2.1⟩

end TraderStack
