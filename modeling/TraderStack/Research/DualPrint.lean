import TraderStack.Research.SecondPrint

/-!
# Two prints of one search (dual_print_search.py)

A candidate passes a dual-print search if it clears the harder gates on the Kraken histories
and on a second venue's slice that ends where the Kraken print begins. The slice ends where the
Kraken *BTC* history begins; a Kraken ETH history that begins earlier shares its first days with
the second print.

The gates of `run_harder_gates` are an argument: what the two prints are does not depend on how
they are scored. The texts of the report are left out.

- `failsClosed_of_unavailable`: a print that is not scored passes nobody;
- `prints_apart_iff`: when the two prints share no day.
-/

namespace TraderStack

open Lib MilesSearch

/-! ## The search -/

/-- A candidate of the catalogue, with what its rows are labelled. -/
structure PrintCandidate where
  candidate : MilesSearch.SearchCandidate
  family : String
  label : String

/-- `SliceMeta` (second_print.py:240–253), its times not yet written as text. -/
structure SliceMeta where
  rule : String
  venue : String
  available : Bool
  barsBtc : ℕ
  barsEth : ℕ
  barsSol : ℕ
  first : Option Time
  last : Option Time
  overlapsPrimaryWindow : Bool
  overlapsPrimaryHoldout : Bool
  failClosedReason : Option String

/-- The fields of `CandidateHarderResult` that a print row reads (harder_gates.py:341–391). -/
structure CandidateHarderResult where
  candidateId : String
  wfRank : Option ℕ
  combinedRank : Option ℕ
  eligible96 : Bool
  meanHoldoutExcess : Option ℚ
  baselineBtcWf : Option ℚ
  baselineEthWf : Option ℚ
  baselineBtcHoldout : Option ℚ
  baselineEthHoldout : Option ℚ
  baselineSolHoldout : Option ℚ
  holdoutMagnitudeRatio : Option ℚ
  gateAPass : Bool
  gateBPass : Bool
  gateCPass : Bool
  combined : Bool
  printKind : Option String
  trialCount : Option ℕ
  deflatedSharpe : Option ℚ
  catalogPbo : Option ℚ
  sharpeCiLow : Option ℚ
  sharpeCiHigh : Option ℚ
  expectancyCiLow : Option ℚ
  expectancyCiHigh : Option ℚ
  bootstrapTradeFloor : Option ℕ
  evidenceGatePass : Bool
  evidenceGateReasons : List String

/-- `_empty_harder_row` (dual_print_search.py:321–327). -/
def CandidateHarderResult.empty (candidateId : String) : CandidateHarderResult where
  candidateId := candidateId
  wfRank := none
  combinedRank := none
  eligible96 := false
  meanHoldoutExcess := none
  baselineBtcWf := none
  baselineEthWf := none
  baselineBtcHoldout := none
  baselineEthHoldout := none
  baselineSolHoldout := none
  holdoutMagnitudeRatio := none
  gateAPass := false
  gateBPass := false
  gateCPass := false
  combined := false
  printKind := none
  trialCount := none
  deflatedSharpe := none
  catalogPbo := none
  sharpeCiLow := none
  sharpeCiHigh := none
  expectancyCiLow := none
  expectancyCiHigh := none
  bootstrapTradeFloor := none
  evidenceGatePass := false
  evidenceGateReasons := []

/-- `DualPrintRow` (dual_print_search.py:114–160): the row of either print, and what the search
adds. -/
structure DualPrintRow where
  candidateId : String
  family : String
  label : String
  kraken : CandidateHarderResult
  binance : CandidateHarderResult
  dualPrint : Bool
  dualPrintRank : Option ℕ
  selected : Bool
  canPromote : Bool

/-- `_merge_row` (dual_print_search.py:330–382). -/
def mergeRow (candidate : PrintCandidate) (kraken binance : Option CandidateHarderResult) :
    DualPrintRow :=
  let krakenRow := kraken.getD (.empty candidate.candidate.candidateId)
  let binanceRow := binance.getD (.empty candidate.candidate.candidateId)
  { candidateId := candidate.candidate.candidateId
    family := candidate.family
    label := candidate.label
    kraken := krakenRow
    binance := binanceRow
    dualPrint := krakenRow.combined && binanceRow.combined
    dualPrintRank := none
    selected := false
    canPromote := false }

/-- The order of `rank_dual_print_passers`: by Kraken's mean holdout excess, the highest first
and a missing one last, then by id. -/
def ranksBefore (a b : DualPrintRow) : Bool :=
  let key : DualPrintRow → WithBot ℚ := fun row => row.kraken.meanHoldoutExcess
  key b < key a || (key a == key b && a.candidateId ≤ b.candidateId)

/-- `rank_dual_print_passers` (dual_print_search.py:208–225), each passer with its place among
the rows. -/
def rankDualPrintPassers (rows : List DualPrintRow) : List (DualPrintRow × ℕ) :=
  ((rows.zipIdx.filter (·.1.dualPrint)).insertionSort
    fun a b => ranksBefore a.1 b.1 = true).zipIdx.map fun e => ({ e.1.1 with
      dualPrintRank := some (e.2 + 1), selected := e.2 == 0, canPromote := false }, e.1.2)

/-- The rows, the passers among them ranked in place. -/
def rankedRows (rows : List DualPrintRow) : List DualPrintRow :=
  rows.zipIdx.map fun e =>
    (((rankDualPrintPassers rows).find? fun passer => passer.2 == e.2).map Prod.fst).getD e.1

/-- `_kraken_only` (dual_print_search.py:228–235). -/
def krakenOnly (histories : Histories) : Histories :=
  histories.filter fun candles =>
    candles.head?.any fun first =>
      !isYahooSymbol first.symbol && (binanceToScoreSymbol (Text.upper first.symbol)).isNone

/-- `BINANCE_SLICE_RULE`. -/
def binanceSliceRule : String := "older_720_ending_before_primary_first_bar"

/-- `_binance_slice_meta` (dual_print_search.py:274–318). -/
def binanceSliceMeta (rawBinance remapped : Histories) (primaryFirst : Time)
    (binanceSource : Option String) : SliceMeta :=
  let scoreBtc := remapped.get? "BTC/USD@1d"
  let scoreEth := remapped.get? "ETH/USD@1d"
  let scoreSol := remapped.get? "SOL/USD@1d"
  let bars := fun candles : Option (List Candle) => (candles.getD []).length
  let short := decide (bars scoreBtc < secondPrintBars ∨ bars scoreEth < secondPrintBars)
  let overlap := overlapsPrimary (scoreBtc.getD []) primaryFirst
  let reason :=
    if rawBinance.entries.isEmpty then
      some "Binance Spot daily missing or failed (empty print is success)"
    else if short then
      some ("Binance slice shorter than " ++ toString secondPrintBars ++ " committed bars (BTC="
        ++ toString (bars scoreBtc) ++ ", ETH=" ++ toString (bars scoreEth) ++ "); fail closed")
    else if overlap then some "Binance slice overlaps the primary Kraken window; rejected"
    else none
  { rule := binanceSliceRule
    venue := binanceSource.getD "binance_spot"
    available := reason.isNone && !short && !overlap
    barsBtc := bars scoreBtc
    barsEth := bars scoreEth
    barsSol := bars scoreSol
    first := (scoreBtc.bind List.head?).map (·.openedAt)
    last := (scoreBtc.bind List.getLast?).map (·.openedAt)
    overlapsPrimaryWindow := overlap
    overlapsPrimaryHoldout := false
    failClosedReason := reason }

/-- The keyword arguments of `run_dual_print_search` that it hands to the gates. -/
structure DualPrintCosts where
  feeBps : ℚ
  slippageBps : ℚ
  startingEquity : ℚ
  trainSize : ℕ
  testSize : ℕ
  stepSize : ℕ
  holdoutFraction : ℚ
  minTrades : ℕ

/-- What `_score` hands to `run_harder_gates` (dual_print_search.py:238–271). -/
structure HarderGatesCall where
  histories : Histories
  costs : DualPrintCosts
  candidates : List PrintCandidate
  venuePrintAvailable : Bool
  venueLabel : String

/-- What a dual-print search depends on besides its histories. `harderGates` is
`run_harder_gates`, and `candidates` is `dual_print_candidates`, given the BTC overlay. -/
structure DualPrintArgs where
  costs : DualPrintCosts
  binanceSource : Option String
  candidates : Option (List Candle) → List PrintCandidate
  harderGates : HarderGatesCall → Except ResearchError (List CandidateHarderResult)

/-- `DualPrintReport` (dual_print_search.py:163–205). -/
structure DualPrintReport where
  catalogIds : List String
  primaryFirst : Time
  primaryFirstSource : String
  primaryLast : Option Time
  primaryBars : Option ℕ
  binanceSlice : SliceMeta
  rows : List DualPrintRow
  dualPrintPasserIds : List String
  krakenCombinedPasserIds : List String
  binanceCombinedPasserIds : List String
  selectedCandidateId : Option String
  recommendedPromoteFlag : Option String
  anyDualPrintPasser : Bool

/-- The second venue's histories as they are scored: sliced at the cutoff, under the symbols
of the scorer. -/
def secondPrint (kraken rawBinance : Histories) : Histories :=
  remapBinanceForScoring
    (rawBinance.map fun _ => sliceEndingBefore (primaryFirstOpenedAt kraken).1)

/-- The rows by their candidate: a later row takes an earlier one's place. -/
def rowsById (rows : List CandidateHarderResult) : Dict String CandidateHarderResult :=
  Dict.ofList (rows.map fun row => (row.candidateId, row))

/-- The order of the Kraken combined passers. -/
def combinedBefore (a b : DualPrintRow) : Bool :=
  let key : DualPrintRow → ℕ := fun row => row.kraken.combinedRank.getD (10 ^ 9)
  key a < key b || (key a == key b && a.candidateId ≤ b.candidateId)

/-- The report of the scored prints (dual_print_search.py:517–603). -/
def DualPrintReport.of (kraken : Histories) (slice : SliceMeta) (catalog : List PrintCandidate)
    (krakenById binanceById : Dict String CandidateHarderResult) : DualPrintReport :=
  let btc := krakenDailyCandles kraken "BTC/USD"
  let rows := catalog.map fun candidate =>
    mergeRow candidate (krakenById.get? candidate.candidate.candidateId)
      (binanceById.get? candidate.candidate.candidateId)
  let passers := (rankDualPrintPassers rows).map Prod.fst
  { catalogIds := catalog.map (·.candidate.candidateId)
    primaryFirst := (primaryFirstOpenedAt kraken).1
    primaryFirstSource := (primaryFirstOpenedAt kraken).2
    primaryLast := (btc.bind List.getLast?).map (·.openedAt)
    primaryBars := btc.map List.length
    binanceSlice := slice
    rows := rankedRows rows
    dualPrintPasserIds := passers.map (·.candidateId)
    krakenCombinedPasserIds :=
      ((rows.filter (·.kraken.combined)).insertionSort fun a b => combinedBefore a b = true).map
        (·.candidateId)
    binanceCombinedPasserIds := (rows.filter (·.binance.combined)).map (·.candidateId)
    selectedCandidateId := passers.head?.map (·.candidateId)
    recommendedPromoteFlag :=
      passers.head?.map fun row => "PAPER_PROMOTE_" ++ Text.upper row.candidateId
    anyDualPrintPasser := !passers.isEmpty }

/-- `run_dual_print_search` (dual_print_search.py:434–603). -/
def runDualPrintSearch (args : DualPrintArgs) (krakenHistories rawBinance : Histories) :
    Except ResearchError DualPrintReport :=
  let kraken := krakenOnly krakenHistories
  if kraken.entries.isEmpty then .error .noHistories
  else
    let catalog := args.candidates (krakenDailyCandles kraken "BTC/USD")
    let remapped := secondPrint kraken rawBinance
    let slice :=
      binanceSliceMeta rawBinance remapped (primaryFirstOpenedAt kraken).1 args.binanceSource
    (args.harderGates ⟨kraken, args.costs, catalog, slice.available, "kraken_spot"⟩).bind
      fun krakenRows =>
        if slice.available then
          (args.harderGates ⟨remapped, args.costs,
            args.candidates (remapped.get? "BTC/USD@1d"), false, "scored_venue"⟩).map
            fun binanceRows =>
              DualPrintReport.of kraken slice catalog (rowsById krakenRows) (rowsById binanceRows)
        else .ok (DualPrintReport.of kraken slice catalog (rowsById krakenRows) Dict.empty)

/-! ## A print that is not scored -/

section

variable {args : DualPrintArgs} {kraken rawBinance : Histories} {report : DualPrintReport}

/-- The second print is long enough. -/
theorem binanceSliceMeta_available_iff (rawBinance remapped : Histories) (primaryFirst : Time)
    (binanceSource : Option String) :
    (binanceSliceMeta rawBinance remapped primaryFirst binanceSource).available = true ↔
      rawBinance.entries ≠ [] ∧
      secondPrintBars ≤ ((remapped.get? "BTC/USD@1d").getD []).length ∧
      secondPrintBars ≤ ((remapped.get? "ETH/USD@1d").getD []).length ∧
      overlapsPrimary ((remapped.get? "BTC/USD@1d").getD []) primaryFirst = false := by
  unfold binanceSliceMeta
  dsimp only
  rw [← List.isEmpty_eq_false_iff]
  cases rawBinance.entries.isEmpty with
  | true => simp
  | false =>
    cases overlapsPrimary ((remapped.get? "BTC/USD@1d").getD []) primaryFirst with
    | true =>
      rw [if_neg Bool.false_ne_true]
      simp
    | false =>
      by_cases hshort : ((remapped.get? "BTC/USD@1d").getD []).length < secondPrintBars ∨
          ((remapped.get? "ETH/USD@1d").getD []).length < secondPrintBars
      · rw [decide_eq_true hshort, if_neg Bool.false_ne_true, if_pos rfl]
        rcases hshort with h | h
        · simp [h]
        · simp [h]
      · rw [decide_eq_false hshort, if_neg Bool.false_ne_true, if_neg Bool.false_ne_true]
        rw [not_or, not_lt, not_lt] at hshort
        simp [hshort.1, hshort.2]

/-- A slice never reaches its own cutoff. -/
theorem overlapsPrimary_secondPrint {key : String} :
    overlapsPrimary (((secondPrint kraken rawBinance).get? key).getD [])
      (primaryFirstOpenedAt kraken).1 = false := by
  rw [overlapsPrimary, List.any_eq_false]
  intro bar hbar
  rw [decide_eq_true_eq, not_le]
  cases hget : (secondPrint kraken rawBinance).get? key with
  | none =>
    rw [hget] at hbar
    cases hbar
  | some bars =>
    rw [hget] at hbar
    exact bars_of_remapped hget bar hbar

/-- The metadata of the second print in a search. -/
def sliceOf (args : DualPrintArgs) (kraken rawBinance : Histories) : SliceMeta :=
  binanceSliceMeta rawBinance (secondPrint kraken rawBinance) (primaryFirstOpenedAt kraken).1
    args.binanceSource

/-- What a search that returns has done. -/
theorem exists_report (hrun : runDualPrintSearch args kraken rawBinance = .ok report) :
    ∃ krakenById binanceById,
      report = DualPrintReport.of (krakenOnly kraken) (sliceOf args (krakenOnly kraken) rawBinance)
        (args.candidates (krakenDailyCandles (krakenOnly kraken) "BTC/USD")) krakenById
        binanceById ∧
      ((sliceOf args (krakenOnly kraken) rawBinance).available = false →
        binanceById = Dict.empty) := by
  unfold runDualPrintSearch at hrun
  dsimp only at hrun
  split at hrun
  · cases hrun
  · generalize args.harderGates _ = scored at hrun
    cases scored with
    | error e => cases hrun
    | ok krakenRows =>
      replace hrun : (if (sliceOf args (krakenOnly kraken) rawBinance).available then _ else _)
          = Except.ok report := hrun
      split at hrun
      · rename_i havailable
        generalize args.harderGates _ = scored at hrun
        cases scored with
        | error e => cases hrun
        | ok binanceRows =>
          cases hrun
          exact ⟨_, _, rfl, fun h => absurd (h.symm.trans havailable) Bool.false_ne_true⟩
      · cases hrun
        exact ⟨_, _, rfl, fun _ => rfl⟩

/-- A search whose gates return does. -/
theorem returns_of_gates (hkraken : (krakenOnly kraken).entries.isEmpty = false)
    (hgates : ∀ call, ∃ rows, args.harderGates call = .ok rows) :
    ∃ report, runDualPrintSearch args kraken rawBinance = .ok report := by
  unfold runDualPrintSearch
  dsimp only
  rw [hkraken, if_neg Bool.false_ne_true]
  obtain ⟨krakenRows, hkrakenRows⟩ := hgates ⟨krakenOnly kraken, args.costs,
    args.candidates (krakenDailyCandles (krakenOnly kraken) "BTC/USD"),
    (sliceOf args (krakenOnly kraken) rawBinance).available, "kraken_spot"⟩
  obtain ⟨binanceRows, hbinanceRows⟩ := hgates ⟨secondPrint (krakenOnly kraken) rawBinance,
    args.costs, args.candidates ((secondPrint (krakenOnly kraken) rawBinance).get? "BTC/USD@1d"),
    false, "scored_venue"⟩
  unfold sliceOf at hkrakenRows
  rw [hkrakenRows, hbinanceRows]
  by_cases h : (binanceSliceMeta rawBinance (secondPrint (krakenOnly kraken) rawBinance)
      (primaryFirstOpenedAt (krakenOnly kraken)).1 args.binanceSource).available = true
  · exact ⟨_, if_pos h⟩
  · exact ⟨_, if_neg h⟩

theorem slice_of_run (hrun : runDualPrintSearch args kraken rawBinance = .ok report) :
    report.binanceSlice = sliceOf args (krakenOnly kraken) rawBinance := by
  obtain ⟨krakenById, binanceById, rfl, -⟩ := exists_report hrun
  rfl

theorem rankDualPrintPassers_eq_nil {rows : List DualPrintRow}
    (h : ∀ row ∈ rows, row.dualPrint = false) : rankDualPrintPassers rows = [] := by
  have hnone : rows.zipIdx.filter (·.1.dualPrint) = [] := by
    rw [List.filter_eq_nil_iff]
    rintro ⟨row, i⟩ hmem
    rw [h row (List.fst_mem_of_mem_zipIdx hmem)]
    exact Bool.false_ne_true
  rw [rankDualPrintPassers, hnone]
  rfl

/-- **A print that is not scored** passes nobody, and nobody is selected. -/
theorem failsClosed_of_unavailable (hrun : runDualPrintSearch args kraken rawBinance = .ok report)
    (hclosed : report.binanceSlice.available = false) :
    report.dualPrintPasserIds = [] ∧ report.selectedCandidateId = none := by
  obtain ⟨krakenById, binanceById, rfl, hempty⟩ := exists_report hrun
  rw [hempty hclosed]
  -- without a second row no candidate clears both prints
  have hnone : rankDualPrintPassers ((args.candidates
      (krakenDailyCandles (krakenOnly kraken) "BTC/USD")).map fun candidate =>
        mergeRow candidate (krakenById.get? candidate.candidate.candidateId)
          ((Dict.empty : Dict String CandidateHarderResult).get? candidate.candidate.candidateId))
      = [] := by
    refine rankDualPrintPassers_eq_nil fun row hrow => ?_
    obtain ⟨candidate, -, rfl⟩ := List.mem_map.mp hrow
    rw [Dict.get?_empty]
    exact Bool.and_false _
  constructor
  · show ((rankDualPrintPassers _).map Prod.fst).map _ = []
    rw [hnone]
    rfl
  · show ((rankDualPrintPassers _).map Prod.fst).head?.map _ = none
    rw [hnone]
    rfl

end

/-! ## Two prints apart -/

/-- The assets of the gates. -/
def printAssets : List String := ["BTC/USD", "ETH/USD"]

/-- The daily BTC and ETH histories of the Kraken print. -/
def primaryHistories (krakenHistories : Histories) : List (List Candle) :=
  (krakenOnly krakenHistories).values.filter fun candles =>
    printAssets.any fun asset => isHistoryOf asset "1d" candles

/-- The daily series of an asset on the second print. -/
def secondSeries (krakenHistories rawBinance : Histories) (asset : String) : Option (List Candle) :=
  (secondPrint (krakenOnly krakenHistories) rawBinance).get? (asset ++ "@1d")

/-- A bar of the second print opens before every Kraken bar. -/
def Precedes (krakenHistories : Histories) (bar : Candle) : Prop :=
  ∀ candles ∈ primaryHistories krakenHistories, ∀ item ∈ candles, bar.openedAt < item.openedAt

/-- The second print lacks a series, has a short one, or shares a day with the Kraken print. -/
inductive Unusable (krakenHistories rawBinance : Histories) : Prop where
  | missing (asset : String) (hasset : asset ∈ printAssets)
      (h : secondSeries krakenHistories rawBinance asset = none)
  | short (asset : String) (hasset : asset ∈ printAssets) (bars : List Candle)
      (h : secondSeries krakenHistories rawBinance asset = some bars)
      (hshort : bars.length < secondPrintBars)
  | overlapping (asset : String) (hasset : asset ∈ printAssets) (bars : List Candle)
      (h : secondSeries krakenHistories rawBinance asset = some bars) (bar : Candle)
      (hbar : bar ∈ bars) (hoverlap : ¬Precedes krakenHistories bar)

/-- The two prints of a search share no day. -/
structure PrintsApart (krakenHistories rawBinance : Histories) (report : DualPrintReport) :
    Prop where
  scored : report.binanceSlice.available = true → ∀ asset ∈ printAssets,
    ∃ bars, secondSeries krakenHistories rawBinance asset = some bars ∧
      secondPrintBars ≤ bars.length ∧ ∀ bar ∈ bars, Precedes krakenHistories bar
  closed : Unusable krakenHistories rawBinance →
    report.dualPrintPasserIds = [] ∧ report.selectedCandidateId = none

/-- The last bar of each series on the second print opens before the first bar of every Kraken
history. -/
def EndsBeforeKraken (krakenHistories rawBinance : Histories) : Prop :=
  ∀ asset ∈ printAssets, ∀ bars, secondSeries krakenHistories rawBinance asset = some bars →
    ∀ last ∈ bars.getLast?, ∀ candles ∈ primaryHistories krakenHistories,
      ∀ first ∈ candles.head?, last.openedAt < first.openedAt

/-- Both second-venue series have the bars that a second print needs. -/
def LongEnough (krakenHistories rawBinance : Histories) : Prop :=
  ∀ asset ∈ printAssets, ∃ bars, secondSeries krakenHistories rawBinance asset = some bars ∧
    secondPrintBars ≤ bars.length

section

variable {args : DualPrintArgs} {kraken rawBinance : Histories} {report : DualPrintReport}

theorem le_length_getD_iff (series : Option (List Candle)) :
    secondPrintBars ≤ (series.getD []).length ↔
      ∃ bars, series = some bars ∧ secondPrintBars ≤ bars.length := by
  cases series with
  | none => simp [secondPrintBars]
  | some bars => simp

theorem available_iff :
    (sliceOf args (krakenOnly kraken) rawBinance).available = true ↔
      LongEnough kraken rawBinance := by
  have hlong : LongEnough kraken rawBinance ↔
      secondPrintBars
          ≤ (((secondPrint (krakenOnly kraken) rawBinance).get? "BTC/USD@1d").getD []).length ∧
        secondPrintBars
          ≤ (((secondPrint (krakenOnly kraken) rawBinance).get? "ETH/USD@1d").getD []).length := by
    rw [le_length_getD_iff, le_length_getD_iff, LongEnough, printAssets, List.forall_mem_cons,
      List.forall_mem_singleton]
    exact Iff.rfl
  rw [sliceOf, binanceSliceMeta_available_iff, hlong]
  constructor
  · rintro ⟨-, hbtc, heth, -⟩
    exact ⟨hbtc, heth⟩
  · rintro ⟨hbtc, heth⟩
    refine ⟨?_, hbtc, heth, overlapsPrimary_secondPrint⟩
    -- a series comes from a history
    intro hempty
    have hnone : secondPrint (krakenOnly kraken) rawBinance = Dict.empty := by
      have hvalues : (rawBinance.map fun _ =>
          sliceEndingBefore (primaryFirstOpenedAt (krakenOnly kraken)).1).values = [] := by
        show (rawBinance.entries.map _).map Prod.snd = []
        rw [hempty]
        rfl
      rw [secondPrint, remapBinanceForScoring, hvalues]
      rfl
    rw [hnone, Dict.get?_empty] at hbtc
    exact absurd hbtc (by decide)

/-- In a sorted series the last bar is the latest. -/
theorem le_last_of_sorted {bars : List Candle}
    (hsorted : bars.Pairwise fun a b => a.openedAt ≤ b.openedAt) {bar : Candle}
    (hbar : bar ∈ bars) :
    ∃ last ∈ bars.getLast?, bar.openedAt ≤ last.openedAt := by
  rcases List.eq_nil_or_concat bars with rfl | ⟨before, last, rfl⟩
  · cases hbar
  · rw [List.concat_eq_append] at hbar hsorted ⊢
    refine ⟨last, List.getLast?_concat, ?_⟩
    rcases List.mem_append.mp hbar with hmem | hmem
    · exact (List.pairwise_append.mp hsorted).2.2 bar hmem last (List.mem_singleton_self _)
    · rw [List.mem_singleton.mp hmem]

theorem first_le_of_sorted {bars : List Candle}
    (hsorted : bars.Pairwise fun a b => a.openedAt ≤ b.openedAt) {bar : Candle}
    (hbar : bar ∈ bars) :
    ∃ first ∈ bars.head?, first.openedAt ≤ bar.openedAt := by
  cases bars with
  | nil => cases hbar
  | cons first bars =>
    refine ⟨first, rfl, ?_⟩
    rcases List.mem_cons.mp hbar with rfl | hmem
    · exact le_refl _
    · exact (List.pairwise_cons.mp hsorted).1 bar hmem

/-- Sorted histories are apart when their ends are. -/
theorem endsBefore_iff
    (hkraken : ∀ candles ∈ kraken.values, candles.Pairwise fun a b => a.openedAt ≤ b.openedAt)
    (hbinance : ∀ candles ∈ rawBinance.values,
      candles.Pairwise fun a b => a.openedAt ≤ b.openedAt) :
    EndsBeforeKraken kraken rawBinance ↔
      ∀ asset ∈ printAssets, ∀ bars, secondSeries kraken rawBinance asset = some bars →
        ∀ bar ∈ bars, Precedes kraken bar := by
  constructor
  · intro hends asset hasset bars hbars bar hbar candles hcandles item hitem
    have hsource : candles ∈ kraken.values := by
      obtain ⟨hmem, -⟩ := List.mem_filter.mp hcandles
      obtain ⟨e, he, rfl⟩ := List.mem_map.mp hmem
      exact List.mem_map_of_mem (List.mem_filter.mp he).1
    obtain ⟨last, hlast, hle⟩ := le_last_of_sorted (sorted_of_remapped hbinance hbars) hbar
    obtain ⟨first, hfirst, hge⟩ := first_le_of_sorted (hkraken candles hsource) hitem
    exact (hle.trans_lt (hends asset hasset bars hbars last hlast candles hcandles first
      hfirst)).trans_le hge
  · intro hapart asset hasset bars hbars last hlast candles hcandles first hfirst
    exact hapart asset hasset bars hbars last (List.mem_of_mem_getLast? hlast) candles hcandles
      first (List.mem_of_mem_head? hfirst)

end

/-! ### An ETH history that begins before the BTC one -/

namespace Sooner

theorem one_pos : (0 : ℚ) < 1 := by norm_num

def bar (symbol : String) (day : ℕ) : Candle where
  symbol := symbol
  interval := "1d"
  openedAt := 86400 * day
  openPrice := 1
  high := 1
  low := 1
  close := 1
  volume := 1
  open_pos := one_pos
  high_pos := one_pos
  low_pos := one_pos
  close_pos := one_pos
  volume_nonneg := unit_nonneg
  high_contains := unit_high
  low_contains := unit_low

/-- The bars of some days in a row. -/
def days (symbol : String) (first count : ℕ) : List Candle :=
  (List.range count).map fun i => bar symbol (first + i)

/-- BTC begins a day after ETH. -/
def kraken : Histories :=
  Dict.ofList [("BTC/USD@1d", days "BTC/USD" 721 2), ("ETH/USD@1d", days "ETH/USD" 720 3)]

/-- The second venue has as many bars as a second print needs, up to the day before. -/
def binance : Histories :=
  Dict.ofList [("BTCUSDT@1d", days "BTCUSDT" 1 720), ("ETHUSDT@1d", days "ETHUSDT" 1 720)]

/-- A candidate that never trades. -/
def silent : PrintCandidate where
  candidate := ⟨"silent", fun _ regime => .ok ⟨"silent", "", none, 0, 0, regime, ""⟩, false, false⟩
  family := "control"
  label := "never trades"

/-- It clears no gate on either print. -/
def args : DualPrintArgs where
  costs := ⟨10, 5, 10000, 180, 60, 60, 1 / 5, 3⟩
  binanceSource := none
  candidates := fun _ => [silent]
  harderGates := fun call => .ok (call.candidates.map fun c => .empty c.candidate.candidateId)

/-- The slices of the second venue end with day 720, on which the Kraken print has a bar. -/
theorem cutoff_kraken : (primaryFirstOpenedAt (krakenOnly kraken)).1 = 86400 * 721 ∧
    ((primaryHistories kraken).any fun candles =>
      candles.any fun item => item.openedAt == 86400 * (1 + 719 : ℕ)) = true := by
  decide +kernel

theorem scoreSymbols : binanceToScoreSymbol (Text.upper "BTCUSDT") = some "BTC/USD" ∧
    binanceToScoreSymbol (Text.upper "ETHUSDT") = some "ETH/USD" := by
  decide

theorem slice_days (symbol : String) :
    sliceEndingBefore (86400 * 721) (days symbol 1 720) = days symbol 1 720 := by
  have hall : ((days symbol 1 720).filter fun item => item.openedAt < 86400 * 721)
      = days symbol 1 720 := by
    refine List.filter_eq_self.mpr fun item hitem => decide_eq_true ?_
    obtain ⟨i, hi, rfl⟩ := List.mem_map.mp hitem
    have hi' := List.mem_range.mp hi
    have hlt : ((1 + i : ℕ) : ℚ) < (721 : ℕ) := Nat.cast_lt.mpr (by omega)
    rw [Nat.cast_ofNat] at hlt
    show 86400 * ((1 + i : ℕ) : ℚ) < 86400 * 721
    linarith
  have hlength : (days symbol 1 720).length ≤ secondPrintBars := by
    rw [days, List.length_map, List.length_range]
    exact le_refl 720
  unfold sliceEndingBefore
  rw [hall, if_pos hlength]

theorem remapOne_cons (remapped : Histories) {target : String} {first : Candle}
    {rest : List Candle}
    (h : binanceToScoreSymbol (Text.upper first.symbol) = some target) :
    remapOne remapped (first :: rest) = remapped.set (target ++ "@" ++ first.interval)
      ((first :: rest).map fun item => { item with symbol := target }) := by
  simp only [remapOne, h]

theorem remapOne_days (remapped : Histories) {symbol target : String} (first count : ℕ)
    (h : binanceToScoreSymbol (Text.upper symbol) = some target) :
    remapOne remapped (days symbol first (count + 1))
      = remapped.set (target ++ "@" ++ "1d") (days target first (count + 1)) := by
  have hcons : ∀ name : String, days name first (count + 1) = bar name (first + 0)
      :: ((List.range count).map Nat.succ).map fun i => bar name (first + i) := by
    intro name
    rw [days, List.range_succ_eq_map, List.map_cons]
  have hmap : ∀ l : List ℕ, (l.map fun i => bar symbol (first + i)).map
      (fun item => { item with symbol := target }) = l.map fun i => bar target (first + i) := by
    intro l
    rw [List.map_map]
    rfl
  rw [hcons symbol, hcons target, @remapOne_cons remapped _ (bar symbol (first + 0)) _ h,
    List.map_cons, hmap]
  rfl

theorem remapped_binance :
    remapBinanceForScoring (binance.map fun _ => sliceEndingBefore (86400 * 721))
      = (Dict.empty.set "BTC/USD@1d" (days "BTC/USD" 1 720)).set "ETH/USD@1d"
          (days "ETH/USD" 1 720) := by
  have hvalues : ∀ (f : List Candle → List Candle) (btc eth : List Candle),
      ((Dict.ofList [("BTCUSDT@1d", btc), ("ETHUSDT@1d", eth)]).map fun _ => f).values
        = [f btc, f eth] :=
    fun _ _ _ => rfl
  have hkeys : "BTC/USD" ++ "@" ++ "1d" = "BTC/USD@1d" ∧
      "ETH/USD" ++ "@" ++ "1d" = "ETH/USD@1d" := by decide
  rw [remapBinanceForScoring, binance, hvalues, slice_days, slice_days, List.foldl_cons,
    List.foldl_cons, List.foldl_nil, remapOne_days _ 1 719 scoreSymbols.1,
    remapOne_days _ 1 719 scoreSymbols.2, hkeys.1, hkeys.2]

theorem secondSeries_binance {histories : Histories}
    (hcutoff : (primaryFirstOpenedAt (krakenOnly histories)).1 = 86400 * 721) :
    secondSeries histories binance "BTC/USD" = some (days "BTC/USD" 1 720) ∧
      secondSeries histories binance "ETH/USD" = some (days "ETH/USD" 1 720) := by
  have hkeys : "BTC/USD" ++ "@1d" = "BTC/USD@1d" ∧ "ETH/USD" ++ "@1d" = "ETH/USD@1d" := by
    decide
  unfold secondSeries secondPrint
  rw [hcutoff, remapped_binance, hkeys.1, hkeys.2]
  exact ⟨by rw [Dict.get?_set_of_ne _ (by decide), Dict.get?_set_self], Dict.get?_set_self _ _ _⟩

theorem longEnough {histories : Histories}
    (hcutoff : (primaryFirstOpenedAt (krakenOnly histories)).1 = 86400 * 721) :
    LongEnough histories binance := by
  obtain ⟨hbtc, heth⟩ := secondSeries_binance hcutoff
  have hlength : ∀ symbol, secondPrintBars ≤ (days symbol 1 720).length := by
    intro symbol
    rw [days, List.length_map, List.length_range]
    exact le_refl 720
  intro asset hasset
  rcases List.mem_cons.mp hasset with rfl | hasset
  · exact ⟨_, hbtc, hlength _⟩
  · obtain rfl := List.mem_singleton.mp hasset
    exact ⟨_, heth, hlength _⟩

theorem getLast?_days (symbol : String) :
    (days symbol 1 720).getLast? = some (bar symbol (1 + 719)) := by
  rw [days, List.range_succ, List.map_append, List.map_singleton, List.getLast?_concat]

end Sooner

/-- **The prints can overlap.** The second print's last day is the first of the Kraken ETH
history, and it is scored. -/
theorem eth_first_day_scored_twice :
    ∃ report, runDualPrintSearch Sooner.args Sooner.kraken Sooner.binance = .ok report ∧
      ¬PrintsApart Sooner.kraken Sooner.binance report := by
  obtain ⟨report, hrun⟩ : ∃ report,
      runDualPrintSearch Sooner.args Sooner.kraken Sooner.binance = .ok report :=
    returns_of_gates (by decide +kernel) fun _ => ⟨_, rfl⟩
  refine ⟨report, hrun, fun hapart => ?_⟩
  obtain ⟨hcutoff, hday⟩ := Sooner.cutoff_kraken
  have hscored : report.binanceSlice.available = true := by
    rw [slice_of_run hrun]
    exact available_iff.mpr (Sooner.longEnough hcutoff)
  obtain ⟨bars, hbars, -, hprecedes⟩ := hapart.scored hscored "ETH/USD" (by decide)
  rw [Option.some.inj (hbars.symm.trans (Sooner.secondSeries_binance hcutoff).2)] at hprecedes
  have hlast : Sooner.bar "ETH/USD" (1 + 719) ∈ Sooner.days "ETH/USD" 1 720 :=
    List.mem_of_getLast? (Sooner.getLast?_days "ETH/USD")
  obtain ⟨candles, hcandles, hfirst⟩ := List.any_eq_true.mp hday
  obtain ⟨item, hitem, hsame⟩ := List.any_eq_true.mp hfirst
  have hlt : 86400 * ((1 + 719 : ℕ) : ℚ) < item.openedAt :=
    hprecedes _ hlast candles hcandles item hitem
  rw [eq_of_beq hsame] at hlt
  exact lt_irrefl _ hlt

/-- **When the two prints share no day.** Of a search over sorted histories that returns, the
prints are apart, and an unusable second print passes nobody, exactly when the second print is
not scored, for want of a series or of bars, or the last bar of each of its series opens before
the first bar of every daily Kraken BTC and ETH history. -/
theorem prints_apart_iff (args : DualPrintArgs) (kraken rawBinance : Histories)
    (hkraken : ∀ candles ∈ kraken.values, candles.Pairwise fun a b => a.openedAt ≤ b.openedAt)
    (hbinance : ∀ candles ∈ rawBinance.values,
      candles.Pairwise fun a b => a.openedAt ≤ b.openedAt)
    {report : DualPrintReport} (hrun : runDualPrintSearch args kraken rawBinance = .ok report) :
    PrintsApart kraken rawBinance report ↔
      (LongEnough kraken rawBinance → EndsBeforeKraken kraken rawBinance) := by
  have havailable : report.binanceSlice.available = true ↔ LongEnough kraken rawBinance := by
    rw [slice_of_run hrun]
    exact available_iff
  rw [endsBefore_iff hkraken hbinance]
  constructor
  · intro hapart hlong asset hasset bars hbars bar hbar
    obtain ⟨bars', hbars', -, hprecedes⟩ := hapart.scored (havailable.mpr hlong) asset hasset
    cases hbars.symm.trans hbars'
    exact hprecedes bar hbar
  · intro hends
    constructor
    · intro hscored asset hasset
      have hlong := havailable.mp hscored
      obtain ⟨bars, hbars, hlength⟩ := hlong asset hasset
      exact ⟨bars, hbars, hlength, fun bar hbar => hends hlong asset hasset bars hbars bar hbar⟩
    · intro hunusable
      refine failsClosed_of_unavailable hrun ?_
      -- an unusable print is too short: one that is long enough ends in time
      rw [← Bool.not_eq_true, havailable]
      intro hlong
      cases hunusable with
      | missing asset hasset h =>
        obtain ⟨bars, hbars, -⟩ := hlong asset hasset
        cases h.symm.trans hbars
      | short asset hasset bars h hshort =>
        obtain ⟨bars', hbars', hlength⟩ := hlong asset hasset
        cases h.symm.trans hbars'
        exact absurd hlength (not_le.mpr hshort)
      | overlapping asset hasset bars h bar hbar hoverlap =>
        exact hoverlap (hends hlong asset hasset bars h bar hbar)

namespace Sooner

/-- BTC alone. -/
def later : Histories := Dict.ofList [("BTC/USD@1d", days "BTC/USD" 721 2)]

theorem cutoff_later : (primaryFirstOpenedAt (krakenOnly later)).1 = 86400 * 721 ∧
    ((primaryHistories later).all fun candles => candles.head?.all fun first =>
      86400 * ((1 + 719 : ℕ) : ℚ) < first.openedAt) = true := by
  decide +kernel

theorem sorted_days (symbol : String) (first count : ℕ) :
    (days symbol first count).Pairwise fun a b => a.openedAt ≤ b.openedAt := by
  refine List.pairwise_map.mpr (List.pairwise_lt_range.imp fun {i j} hij => ?_)
  show (86400 * ((first + i : ℕ) : ℚ)) ≤ 86400 * ((first + j : ℕ) : ℚ)
  have hle : ((first + i : ℕ) : ℚ) ≤ ((first + j : ℕ) : ℚ) := by exact_mod_cast (by omega)
  linarith

theorem sorted_later :
    ∀ candles ∈ later.values, candles.Pairwise fun a b => a.openedAt ≤ b.openedAt := by
  have hvalues : later.values = [days "BTC/USD" 721 2] := rfl
  rw [hvalues, List.forall_mem_singleton]
  exact sorted_days _ _ _

theorem sorted_binance :
    ∀ candles ∈ binance.values, candles.Pairwise fun a b => a.openedAt ≤ b.openedAt := by
  have hvalues : ∀ btc eth : List Candle,
      (Dict.ofList [("BTCUSDT@1d", btc), ("ETHUSDT@1d", eth)]).values = [btc, eth] :=
    fun _ _ => rfl
  rw [binance, hvalues, List.forall_mem_cons, List.forall_mem_singleton]
  exact ⟨sorted_days _ _ _, sorted_days _ _ _⟩

end Sooner

theorem prints_apart_iff_later :
    ∃ report, runDualPrintSearch Sooner.args Sooner.later Sooner.binance = .ok report ∧
      PrintsApart Sooner.later Sooner.binance report := by
  obtain ⟨report, hrun⟩ : ∃ report,
      runDualPrintSearch Sooner.args Sooner.later Sooner.binance = .ok report :=
    returns_of_gates (by decide +kernel) fun _ => ⟨_, rfl⟩
  refine ⟨report, hrun, (prints_apart_iff Sooner.args Sooner.later Sooner.binance
    Sooner.sorted_later Sooner.sorted_binance hrun).mpr fun _ => ?_⟩
  obtain ⟨hcutoff, hends⟩ := Sooner.cutoff_later
  obtain ⟨hbtc, heth⟩ := Sooner.secondSeries_binance hcutoff
  have hlater : ∀ symbol, ∀ last ∈ (Sooner.days symbol 1 720).getLast?,
      ∀ candles ∈ primaryHistories Sooner.later, ∀ first ∈ candles.head?,
        last.openedAt < first.openedAt := by
    intro symbol last hlast candles hcandles first hfirst
    rw [Sooner.getLast?_days] at hlast
    cases hlast
    have hends' := List.all_eq_true.mp hends candles hcandles
    rw [Option.mem_def.mp hfirst, Option.all_some] at hends'
    exact of_decide_eq_true hends'
  intro asset hasset bars hbars
  rcases List.mem_cons.mp hasset with rfl | hasset
  · rw [Option.some.inj (hbars.symm.trans hbtc)]
    exact hlater _
  · obtain rfl := List.mem_singleton.mp hasset
    rw [Option.some.inj (hbars.symm.trans heth)]
    exact hlater _

end TraderStack
