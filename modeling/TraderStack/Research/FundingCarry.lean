import TraderStack.Research.CarryGates
import TraderStack.Research.SecondPrint

/-!
# The funding carry search (funding_carry.py)

One or two funding prints are scored, with a basis on both or on neither, and the run reports
whether it can promote. The promotion bar asks for two prints, for enough aligned daily bars that
the hard gates *could* be evaluated, for a basis on both prints, and for a candidate that is
eligible on both; the verdicts of the hard gates are reported beside it.

The spot search over funding-z voters is `run_search`, an argument here. Notes, probes and texts
of the report are left out.

- `runFundingCarry_ok_iff`: what a run reports.
-/

namespace TraderStack

open Lib

/-! ## One print -/

/-- The inputs of one print. -/
structure CarryPrint where
  histories : Histories
  funding : Option Tape
  fundingBySymbol : Option TapeMap
  basis : Option Tape
  basisBySymbol : Option TapeMap

/-- The numbers of `run_funding_carry`. `sqrt` is `math.sqrt`. -/
structure CarryRunArgs where
  sqrt : ℚ → ℚ
  feeBps : ℚ
  slippageBps : ℚ
  startingEquity : ℚ
  sizes : WalkSizes
  holdoutFraction : ℚ
  minTrades : ℕ
  interval : String

/-- A row of `CARRY_CATALOG`. -/
structure CarryCandidate where
  candidateId : String
  label : String
  absThreshold : Option ℚ
  zThreshold : Option ℚ

/-- `CARRY_CATALOG` (funding_carry.py:154–159). -/
def carryCatalog : List CarryCandidate :=
  [⟨"carry_hedged_sign", "hedged cash-and-carry; always harvest |rate|", none, none⟩,
    ⟨"carry_hedged_abs_1bp", "hedged carry when |rate|>=1bp", some (1 / 10000), none⟩,
    ⟨"carry_hedged_abs_3bp", "hedged carry when |rate|>=3bp", some (3 / 10000), none⟩,
    ⟨"carry_hedged_z_1_5", "hedged carry when |z|>=1.5", none, some (3 / 2)⟩]

/-- `CONTROL_IDS`. -/
def controlIds : List String := ["ma_cross_10_30"]

/-- The thresholds of a candidate at the costs of a run. -/
def CarryRunArgs.carryArgs (args : CarryRunArgs) (candidate : CarryCandidate) : CarryArgs where
  sqrt := args.sqrt
  absThreshold := candidate.absThreshold
  zThreshold := candidate.zThreshold
  feeBps := args.feeBps
  slippageBps := args.slippageBps
  legs := carryLegs

/-- `CarryCandidateResult` (funding_carry.py:1024–1040). -/
structure CarryCandidateResult where
  candidateId : String
  label : String
  basisModeled : Bool
  perAsset : List (String × CarryMetrics)
  meanWfTotalReturn : Option ℚ
  meanHoldoutTotalReturn : Option ℚ
  fullSampleTotalReturn : Option ℚ
  rankable : Bool
  eligible : Bool
  ineligibleReasons : List String

namespace CarryPrint

/-- The tapes of the print, resampled on a daily interval (funding_carry.py:1242–1278). -/
def resampled (interval : String) (print : CarryPrint) : CarryPrint :=
  if interval = "1d" then
    { print with
      funding := print.funding.map resampleFundingToDaily
      fundingBySymbol := print.fundingBySymbol.map fun m => m.map fun _ => resampleFundingToDaily }
  else print

/-- The print has a usable funding series. -/
def usable (print : CarryPrint) : Bool := fundingUsable print.funding print.fundingBySymbol

/-- The symbols that are scored: the required ones, or one shared series. -/
def symbols (print : CarryPrint) : List String :=
  if hasEntries print.fundingBySymbol then requiredSymbols else ["ALL"]

/-- The funding series of a symbol. -/
def seriesOf (print : CarryPrint) (symbol : String) : Option Tape :=
  if symbol = "ALL" then print.funding else lookupSeries print.fundingBySymbol symbol

/-- The print has a usable basis. -/
def hasBasis (print : CarryPrint) : Bool :=
  basisUsable print.basis print.basisBySymbol print.fundingBySymbol.isSome

/-- The print as it is scored: with its basis, or without one. -/
def withBasis (applied : Bool) (print : CarryPrint) : CarryPrint :=
  { print with
    basis := if applied then print.basis else none
    basisBySymbol := if applied then print.basisBySymbol else none }

/-- `slice_to_funding_overlap` (funding_carry.py:456–464). -/
def overlap (series : Option Tape) (candles : List Candle) : List Candle :=
  match series.bind List.head?, series.bind List.getLast? with
  | some first, some last => candles.filter fun c => first.1 ≤ c.openedAt ∧ c.openedAt ≤ last.1
  | _, _ => []

/-- The funding series of a history: that of its symbol, or the shared one. -/
def seriesFor (print : CarryPrint) (candles : List Candle) : Option Tape :=
  let own := candles.head?.bind fun first => lookupSeries print.fundingBySymbol first.symbol
  if own.any fun series => !series.isEmpty then own else print.funding

/-- `slice_histories_to_funding` (funding_carry.py:467–481). -/
def sliced (print : CarryPrint) (histories : Histories) : List (String × List Candle) :=
  (histories.entries.map fun e => (e.1, overlap (print.seriesFor e.2) e.2)).filter
    fun e => !e.2.isEmpty

/-- The shortest of the sliced histories, on a usable print. -/
def alignedBars (print : CarryPrint) (histories : Histories) : ℕ :=
  if print.usable then
    (((print.sliced histories).map fun e => e.2.length).min?).getD 0
  else 0

/-- A candidate's row (funding_carry.py:1108–1157). -/
def scoreCandidate (args : CarryRunArgs) (sizes : WalkSizes) (print : CarryPrint)
    (candidate : CarryCandidate) : CarryCandidateResult :=
  let perAsset := print.symbols.filterMap fun symbol =>
    (print.seriesOf symbol).map fun series =>
      (symbol, scoreHedgedCarry (args.carryArgs candidate) args.holdoutFraction sizes args.minTrades
        (basisFor symbol print.basis print.basisBySymbol) series)
  let meanWf := meanOption (perAsset.filterMap fun e => e.2.meanWfTotalReturn)
  let meanHoldout := meanOption (perAsset.filterMap fun e => e.2.meanHoldoutTotalReturn)
  let reasons :=
    floorReasons "walkforward_missing" "walkforward_total_return_not_positive" 0 meanWf
      ++ floorReasons "holdout_missing" "holdout_excess_return_not_positive" 0 meanHoldout
  { candidateId := candidate.candidateId
    label := candidate.label
    basisModeled :=
      (print.basis.any (fun b => !b.isEmpty) || hasEntries print.basisBySymbol) &&
        perAsset.any fun e => e.2.basisModeled
    perAsset := perAsset
    meanWfTotalReturn := meanWf
    meanHoldoutTotalReturn := meanHoldout
    fullSampleTotalReturn := meanOption (perAsset.filterMap fun e => e.2.fullSampleTotalReturn)
    rankable := meanWf.isSome
    eligible := reasons.isEmpty
    ineligibleReasons := reasons }

/-- `_score_carry_catalog` (funding_carry.py:1086–1200). -/
def scoreCarryCatalog (args : CarryRunArgs) (sizes : WalkSizes) (print : CarryPrint) :
    List CarryCandidateResult :=
  carryCatalog.map (print.scoreCandidate args sizes)

/-- `evaluate_carry_hard_gates` on the print, for a candidate. -/
def gates (args : CarryRunArgs) (candidate : CarryCandidate) (print : CarryPrint) :
    CarryHardGates :=
  evaluateCarryHardGates (args.carryArgs candidate) args.holdoutFraction print.fundingBySymbol
    print.basis print.basisBySymbol

end CarryPrint

/-! ## The run -/

/-- What the spot search is run on. -/
structure SpotCall where
  histories : List (String × List Candle)
  funding : Option Tape
  fundingBySymbol : Option TapeMap
  sizes : WalkSizes

/-- What is read of a spot search: which candidates are eligible, and the one selected. -/
structure SpotReport where
  candidates : List (String × Bool)
  selectedCandidateId : Option String

/-- `run_search` on the funding-z voters and overlays of a print. -/
abbrev SpotSearch := SpotCall → Except ResearchError SpotReport

/-- `FundingCarryReport` (funding_carry.py:1043–1084), as far as it is not text. -/
structure FundingCarryReport where
  dualPrint : Bool
  primaryAlignedBars : ℕ
  secondAlignedBars : ℕ
  hardGatesAvailable : Bool
  primaryCarryHardGates : Option CarryHardGates
  secondCarryHardGates : Option CarryHardGates
  basisOk : Bool
  paperPathReady : Bool
  wfAdapted : Bool
  sizes : WalkSizes
  canPromote : Bool
  search : Option SpotReport
  carry : List CarryCandidateResult
  secondSearch : Option SpotReport
  secondCarry : List CarryCandidateResult
  selectedCandidateId : Option String
  dualPrintPasserIds : List String
  anyPromoted : Bool

/-- `PAPER_CARRY_PATH_READY`. -/
def paperCarryPathReady : Bool := true

/-- `hard_gates_available` (funding_carry.py:400–413). -/
def hardGatesAvailable (interval : String) (alignedBars : ℕ) (secondAlignedBars : Option ℕ) :
    Bool :=
  if interval ≠ "1d" ∨ alignedBars < hardGateMinDailyBars then false
  else secondAlignedBars.all fun bars => hardGateMinDailyBars ≤ bars

/-- The spot search of a print, where there is something to search. -/
def spotSearchOn (spotSearch : SpotSearch) (print : CarryPrint) (histories : Histories)
    (sizes : WalkSizes) : Except ResearchError (Option SpotReport) :=
  let voters :=
    print.funding.any (fun series => !series.isEmpty) || hasEntries print.fundingBySymbol
  let sliced := if print.usable then print.sliced histories else []
  if voters && !sliced.isEmpty then
    (spotSearch ⟨sliced, print.funding, print.fundingBySymbol, sizes⟩).map some
  else .ok none

/-- The ids that are eligible on a print, controls apart. -/
def eligibleIds (search : Option SpotReport) (carry : List CarryCandidateResult) : List String :=
  (search.elim [] fun report =>
    (report.candidates.filter fun row => row.2 && !controlIds.contains row.1).map Prod.fst)
    ++ (carry.filter (·.eligible)).map (·.candidateId)

/-- The two prints of a run. -/
structure PrintPair where
  primary : CarryPrint
  second : CarryPrint

namespace PrintPair

/-- Both prints on the interval of a run (funding_carry.py:1236–1264). -/
def resampled (interval : String) (pair : PrintPair) : PrintPair :=
  ⟨pair.primary.resampled interval, pair.second.resampled interval⟩

/-- Two usable prints. -/
def dual (pair : PrintPair) : Bool := pair.primary.usable && pair.second.usable

/-- `second_histories or histories`. -/
def secondHistories (pair : PrintPair) : Histories :=
  if pair.second.histories.entries.isEmpty then pair.primary.histories else pair.second.histories

/-- `aligned_bars`. -/
def primaryBars (pair : PrintPair) : ℕ := pair.primary.alignedBars pair.primary.histories

/-- `second_aligned_bars`. -/
def secondBars (pair : PrintPair) : ℕ := pair.second.alignedBars pair.secondHistories

/-- `gates_ok`. -/
def gatesOk (interval : String) (pair : PrintPair) : Bool :=
  hardGatesAvailable interval pair.primaryBars
    (if pair.second.usable then some pair.secondBars else none)

/-- What `choose_walkforward` finds for the primary print. -/
def chosenSizes (args : CarryRunArgs) (pair : PrintPair) : Option WalkSizes :=
  chooseWalkforward ⌊pair.primaryBars * (1 - args.holdoutFraction)⌋.toNat args.sizes

/-- The sizes that a run walks forward with: those that fit its primary print, or its own. -/
def sizes (args : CarryRunArgs) (pair : PrintPair) : WalkSizes :=
  (pair.chosenSizes args).getD args.sizes

/-- `basis_status` is ok: the primary print has a basis, and of two prints both have. -/
def basisOk (pair : PrintPair) : Bool :=
  pair.primary.hasBasis && (!pair.dual || pair.second.hasBasis)

/-- The prints as they are scored: both with their basis or both without. -/
def scored (pair : PrintPair) : PrintPair :=
  ⟨pair.primary.withBasis pair.basisOk, pair.second.withBasis pair.basisOk⟩

/-- The spot search of the primary print. -/
def primarySearch (args : CarryRunArgs) (spotSearch : SpotSearch) (pair : PrintPair) :
    Except ResearchError (Option SpotReport) :=
  spotSearchOn spotSearch pair.primary pair.primary.histories (pair.sizes args)

/-- The spot search of the second print, of two usable ones. -/
def secondSearch (args : CarryRunArgs) (spotSearch : SpotSearch) (pair : PrintPair) :
    Except ResearchError (Option SpotReport) :=
  if pair.dual then spotSearchOn spotSearch pair.second pair.secondHistories (pair.sizes args)
  else .ok none

/-- The carry rows of the primary print. -/
def primaryCarry (args : CarryRunArgs) (pair : PrintPair) : List CarryCandidateResult :=
  if pair.primary.usable then pair.scored.primary.scoreCarryCatalog args (pair.sizes args) else []

/-- The carry rows of the second print, of two usable ones. -/
def secondCarry (args : CarryRunArgs) (pair : PrintPair) : List CarryCandidateResult :=
  if pair.dual then pair.scored.second.scoreCarryCatalog args (pair.sizes args) else []

/-- `dual_passers`: whoever is eligible on both prints. -/
def passers (args : CarryRunArgs) (search secondSearch : Option SpotReport) (pair : PrintPair) :
    List String :=
  if pair.dual then
    ((eligibleIds search (pair.primaryCarry args)).filter fun id =>
      (eligibleIds secondSearch (pair.secondCarry args)).contains id).dedup.insertionSort (· ≤ ·)
  else []

/-- The gates of `carry_hedged_sign` on a usable daily print. -/
def reportedGates (args : CarryRunArgs) (print scored : CarryPrint) : Option CarryHardGates :=
  if print.usable && args.interval == "1d" then
    some (scored.gates args ⟨"carry_hedged_sign", "", none, none⟩)
  else none

/-- The report on the resampled prints (funding_carry.py:1453–1545). -/
def report (args : CarryRunArgs) (pair : PrintPair) (search secondSearch : Option SpotReport) :
    FundingCarryReport where
  dualPrint := pair.dual
  primaryAlignedBars := pair.primaryBars
  secondAlignedBars := pair.secondBars
  hardGatesAvailable := pair.gatesOk args.interval
  primaryCarryHardGates := reportedGates args pair.primary pair.scored.primary
  secondCarryHardGates := reportedGates args pair.second pair.scored.second
  basisOk := pair.basisOk
  paperPathReady := paperCarryPathReady
  wfAdapted := (pair.chosenSizes args).elim pair.primary.usable fun chosen => chosen ≠ args.sizes
  sizes := pair.sizes args
  -- the verdicts of the gates are not asked for, only whether they could be evaluated
  canPromote := pair.dual && pair.gatesOk args.interval && pair.basisOk && paperCarryPathReady &&
    !(pair.passers args search secondSearch).isEmpty
  search := search
  carry := pair.primaryCarry args
  secondSearch := secondSearch
  secondCarry := pair.secondCarry args
  selectedCandidateId := search.bind (·.selectedCandidateId)
  dualPrintPasserIds := pair.passers args search secondSearch
  anyPromoted := false

end PrintPair

/-- `run_funding_carry` (funding_carry.py:1203–1545). -/
def runFundingCarry (args : CarryRunArgs) (spotSearch : SpotSearch) (pair : PrintPair) :
    Except ResearchError FundingCarryReport :=
  if pair.primary.histories.entries.isEmpty then .error .noHistories
  else
    let pair := pair.resampled args.interval
    (pair.primarySearch args spotSearch).bind fun search =>
      (pair.secondSearch args spotSearch).map fun secondSearch =>
        pair.report args search secondSearch

theorem runFundingCarry_ok_iff {args : CarryRunArgs} {spotSearch : SpotSearch} {pair : PrintPair}
    {report : FundingCarryReport} :
    runFundingCarry args spotSearch pair = .ok report ↔
      pair.primary.histories.entries ≠ [] ∧
        ∃ search secondSearch,
          (pair.resampled args.interval).primarySearch args spotSearch = .ok search ∧
            (pair.resampled args.interval).secondSearch args spotSearch = .ok secondSearch ∧
            (pair.resampled args.interval).report args search secondSearch = report := by
  unfold runFundingCarry
  by_cases hempty : pair.primary.histories.entries = []
  · simp [hempty]
  · rw [if_neg (by simpa using hempty), and_iff_right hempty]
    dsimp only
    cases (pair.resampled args.interval).primarySearch args spotSearch with
    | error e => simp [Except.bind]
    | ok search =>
      cases (pair.resampled args.interval).secondSearch args spotSearch with
      | error e => simp [Except.bind, Except.map]
      | ok secondSearch => simp [Except.bind, Except.map]

end TraderStack
