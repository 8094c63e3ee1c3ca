import TraderStack.Research.HedgedCarry
import TraderStack.Research.WalkForward

/-!
# Scoring a carry tape (funding_carry.py)

A candidate harvests a tape at its thresholds. Its nets are walked forward and held out; the hard
gates ask for both on BTC and on ETH (#96), for holdouts of like size (A), for recent windows
(B), and for the same at stressed costs (C).

- `resampleFundingToDaily_of_daily`: a daily tape is its own resample;
- `combined_gates`: what the gates combine.
-/

namespace TraderStack

open Lib

/-! ## Tapes and symbols -/

/-- `REQUIRED_SYMBOLS`. -/
def requiredSymbols : List String := ["BTC/USD", "ETH/USD"]

/-- `MIN_FUNDING_POINTS`. -/
def minFundingPoints : ℕ := 20

/-- `HARD_GATE_MIN_DAILY_BARS`. -/
def hardGateMinDailyBars : ℕ := 720

/-- Tapes by symbol. -/
abbrev TapeMap := Dict String Tape

/-- A mapping that is there and has entries. -/
def hasEntries (mapping : Option TapeMap) : Bool := mapping.any fun m => !m.entries.isEmpty

/-- `_lookup_series` (funding_carry.py:259–272). -/
def lookupSeries (mapping : Option TapeMap) (symbol : String) : Option Tape :=
  mapping.bind fun m =>
    (m.get? (Text.upper symbol)).or
      ((m.entries.find? fun e => Text.upper e.1 == Text.upper symbol).map Prod.snd)

/-- `funding_usable` (funding_carry.py:275–290), with its defaults. -/
def fundingUsable (funding : Option Tape) (fundingBySymbol : Option TapeMap) : Bool :=
  if hasEntries fundingBySymbol then
    requiredSymbols.all fun symbol =>
      (lookupSeries fundingBySymbol symbol).any fun series => minFundingPoints ≤ series.length
  else funding.any fun series => minFundingPoints ≤ series.length

/-- `basis_usable` (funding_carry.py:322–340). -/
def basisUsable (basis : Option Tape) (basisBySymbol : Option TapeMap) (perSymbolFunding : Bool) :
    Bool :=
  if basisBySymbol.isSome then
    perSymbolFunding && requiredSymbols.all fun symbol =>
      (lookupSeries basisBySymbol symbol).any fun series => !series.isEmpty
  else basis.any fun series => !series.isEmpty

/-- `_basis_for` (funding_carry.py:343–352). -/
def basisFor (symbol : String) (basis : Option Tape) (basisBySymbol : Option TapeMap) :
    Option Tape :=
  if basisBySymbol.isSome then
    if symbol = "ALL" then none else lookupSeries basisBySymbol symbol
  else basis

/-- `resample_funding_to_daily` (funding_carry.py:420–430): the sums of the UTC days. -/
def resampleFundingToDaily (series : Tape) : Tape :=
  let buckets : Dict Time ℚ := series.foldl
    (fun buckets e =>
      buckets.set (utcDayOpen e.1) ((buckets.get? (utcDayOpen e.1)).getD 0 + e.2)) Dict.empty
  buckets.entries.insertionSort fun a b => a.1 ≤ b.1

/-! ## Walk-forward sizes -/

/-- The sizes of a walk-forward: train, test, step and warm-up. -/
@[ext]
structure WalkSizes where
  trainSize : ℕ
  testSize : ℕ
  stepSize : ℕ
  warmup : ℕ
  step_pos : 0 < stepSize

/-- Sizes compare one by one. -/
instance : DecidableEq WalkSizes := fun _ _ => decidable_of_iff' _ WalkSizes.ext_iff

/-- `DEFAULT_TRAIN_SIZE`, `DEFAULT_TEST_SIZE` and `DEFAULT_STEP_SIZE`. -/
def WalkSizes.default (warmup : ℕ) : WalkSizes := ⟨180, 60, 60, warmup, by decide⟩

/-- `SHORT_TRAIN_SIZE` and its like. -/
def WalkSizes.short : WalkSizes := ⟨80, 40, 40, 31, by decide⟩

/-- `choose_walkforward` (funding_carry.py:378–398). -/
def chooseWalkforward (nResearch : ℕ) (sizes : WalkSizes) : Option WalkSizes :=
  if sizes.trainSize + sizes.testSize ≤ nResearch ∧ sizes.warmup < sizes.trainSize ∧
      sizes.warmup < sizes.testSize then some sizes
  else if WalkSizes.short.trainSize + WalkSizes.short.testSize ≤ nResearch then some WalkSizes.short
  else none

/-- `_compound` (funding_carry.py:707–711). -/
def compound (returns : List ℚ) : ℚ := (returns.map fun item => 1 + item).prod - 1

/-- The totals of the folds that fit. -/
def foldTotals (sizes : Option WalkSizes) (returns : List ℚ) : List ℚ :=
  match sizes with
  | none => []
  | some sizes =>
    (foldStarts sizes.trainSize sizes.testSize sizes.stepSize returns.length).map fun start =>
      compound ((returns.drop (start + sizes.trainSize)).take sizes.testSize)

/-! ## Scores -/

/-- What `score_hedged_carry` returns (funding_carry.py:794–866). -/
structure CarryMetrics where
  printCount : ℕ
  researchPrints : ℕ
  holdoutPrints : ℕ
  flips : ℕ
  skippedReason : Option String
  meanWfTotalReturn : Option ℚ
  meanHoldoutTotalReturn : Option ℚ
  fullSampleTotalReturn : Option ℚ
  totalWfTrades : ℕ
  totalHoldoutTrades : ℕ
  foldCount : ℕ
  basisDaysApplied : ℕ
  basisModeled : Bool

/-- How many prints are held out of so many. -/
def carryHoldoutSize (length : ℕ) (holdoutFraction : ℚ) : ℕ :=
  let size := max (holdoutSize length holdoutFraction) 1
  if length ≤ size then max 1 (length / 5) else size

/-- The prints that are walked forward, and those held out. -/
def splitPrints (holdoutFraction : ℚ) (perPrint : List ℚ) : List ℚ × List ℚ :=
  let size := carryHoldoutSize perPrint.length holdoutFraction
  (perPrint.take (perPrint.length - size), perPrint.drop (perPrint.length - size))

/-- The totals of the folds of some research prints. -/
def researchTotals (sizes : WalkSizes) (research : List ℚ) : List ℚ :=
  foldTotals (chooseWalkforward research.length { sizes with warmup := 0 }) research

/-- `score_hedged_carry` (funding_carry.py:760–866). -/
def scoreHedgedCarry (args : CarryArgs) (holdoutFraction : ℚ) (sizes : WalkSizes) (minTrades : ℕ)
    (basis : Option Tape) (series : Tape) : CarryMetrics :=
  let (perPrint, flips, basisDays) := hedgedCarryPerPrint args basis series
  if perPrint.length < 2 then
    { printCount := series.length, researchPrints := 0, holdoutPrints := 0, flips := flips
      skippedReason := some "funding tape too short to score", meanWfTotalReturn := none
      meanHoldoutTotalReturn := none, fullSampleTotalReturn := none, totalWfTrades := 0
      totalHoldoutTrades := 0, foldCount := 0, basisDaysApplied := basisDays
      basisModeled := false }
  else
    let (research, holdout) := splitPrints holdoutFraction perPrint
    let totals := researchTotals sizes research
    { printCount := series.length
      researchPrints := research.length
      holdoutPrints := holdout.length
      flips := flips
      skippedReason := if totals = [] then some "walkforward_insufficient_prints" else none
      meanWfTotalReturn := meanOption totals
      meanHoldoutTotalReturn := if holdout = [] then none else some (compound holdout)
      fullSampleTotalReturn := some (compound perPrint)
      totalWfTrades := if totals = [] then 0 else flips
      totalHoldoutTrades := if holdout = [] then 0 else minTrades
      foldCount := totals.length
      basisDaysApplied := basisDays
      basisModeled := (basis.any fun b => !b.isEmpty) && 0 < basisDays }

/-- `_window_wf_mean` (funding_carry.py:869–896). -/
def windowWfMean (perPrint : List ℚ) : Option ℚ :=
  meanOption (foldTotals (chooseWalkforward perPrint.length (WalkSizes.default 0)) perPrint)

/-- `_asset_sign` (funding_carry.py:899–901). -/
def assetSign (value : Option ℚ) : Bool := value.any fun v => 0 < v

/-! ## The hard gates -/

/-- `MULTIWINDOW_COUNT`. -/
def multiwindowCount : ℕ := 3

/-- `MULTIWINDOW_BARS`. -/
def multiwindowBars : ℕ := 240

/-- `MULTIWINDOW_MIN_PASSES`. -/
def multiwindowMinPasses : ℕ := 2

/-- `FEE_STRESS_MULTIPLIER`. -/
def carryStressMultiplier : ℚ := 2

/-- `MAGNITUDE_RATIO_MIN`. -/
def magnitudeRatioMin : ℚ := 25 / 100

/-- `CarryHardGates` (funding_carry.py:904–915), without its note. -/
structure CarryHardGates where
  available : Bool
  dailyFundingPoints : ℕ
  eligible96 : Option Bool
  gateA : Option Bool
  gateB : Option Bool
  gateC : Option Bool
  combined : Bool
  magnitudeRatio : Option ℚ
  multiwindowPasses : Option ℕ

/-- Gates that could not be evaluated. -/
def CarryHardGates.unavailable (points : ℕ) : CarryHardGates :=
  ⟨false, points, none, none, none, none, false, none, none⟩

/-- Positive walk-forward and holdout totals on both assets. -/
def bothPositive (btc eth : CarryMetrics) : Bool :=
  (assetSign btc.meanWfTotalReturn && assetSign eth.meanWfTotalReturn) &&
    (assetSign btc.meanHoldoutTotalReturn && assetSign eth.meanHoldoutTotalReturn)

/-- The smaller holdout total as a part of the larger, where both are positive. -/
def magnitudeRatio (btc eth : CarryMetrics) : Option ℚ :=
  match btc.meanHoldoutTotalReturn, eth.meanHoldoutTotalReturn with
  | some b, some e => if 0 < b ∧ 0 < e then some (min b e / max b e) else none
  | _, _ => none

/-- A window of the last prints, the oldest window first. -/
def recentWindow (offset : ℕ) (prints : List ℚ) : List ℚ :=
  (prints.take (prints.length - (multiwindowCount - offset - 1) * multiwindowBars)).drop
    (prints.length - (multiwindowCount - offset) * multiwindowBars)

/-- How many of the recent windows are positive on both assets. -/
def windowPasses (btc eth : List ℚ) : ℕ :=
  (List.range multiwindowCount).countP fun offset =>
    assetSign (windowWfMean (recentWindow offset btc)) &&
      assetSign (windowWfMean (recentWindow offset eth))

/-- What the gates look at on one asset. -/
structure AssetScores where
  base : CarryMetrics
  stress : CarryMetrics
  prints : List ℚ

/-- The same harvest at stressed costs. -/
def CarryArgs.stressed (args : CarryArgs) : CarryArgs :=
  { args with
    feeBps := args.feeBps * carryStressMultiplier
    slippageBps := args.slippageBps * carryStressMultiplier }

/-- The scores of an asset (funding_carry.py:952–985). -/
def assetScores (args : CarryArgs) (holdoutFraction : ℚ) (basis : Option Tape) (series : Tape) :
    AssetScores where
  base := scoreHedgedCarry args holdoutFraction (WalkSizes.default 31) 1 basis series
  stress := scoreHedgedCarry args.stressed holdoutFraction (WalkSizes.default 31) 1 basis series
  prints := (hedgedCarryPerPrint args basis series).1

/-- The verdicts on the scores of the two assets (funding_carry.py:987–1021). -/
def gatesOf (points : ℕ) (btc eth : AssetScores) : CarryHardGates :=
  let eligible96 := bothPositive btc.base eth.base
  let ratio := magnitudeRatio btc.base eth.base
  let gateA := ratio.any fun r => magnitudeRatioMin ≤ r
  let passes := windowPasses btc.prints eth.prints
  let gateB := decide (multiwindowMinPasses ≤ passes)
  let gateC := bothPositive btc.stress eth.stress
  { available := true
    dailyFundingPoints := points
    eligible96 := some eligible96
    gateA := some gateA
    gateB := some gateB
    gateC := some gateC
    combined := eligible96 && gateA && gateB && gateC
    magnitudeRatio := ratio
    multiwindowPasses := some passes }

/-- `evaluate_carry_hard_gates` (funding_carry.py:918–1021). -/
def evaluateCarryHardGates (args : CarryArgs) (holdoutFraction : ℚ)
    (fundingBySymbol : Option TapeMap) (basis : Option Tape) (basisBySymbol : Option TapeMap) :
    CarryHardGates :=
  if fundingUsable none fundingBySymbol then
    match lookupSeries fundingBySymbol "BTC/USD", lookupSeries fundingBySymbol "ETH/USD" with
    | some btc, some eth =>
      let points := min btc.length eth.length
      if points < hardGateMinDailyBars then .unavailable points
      else
        gatesOf points
          (assetScores args holdoutFraction (basisFor "BTC/USD" basis basisBySymbol) btc)
          (assetScores args holdoutFraction (basisFor "ETH/USD" basis basisBySymbol) eth)
    | _, _ => .unavailable 0
  else .unavailable 0

/-! ## What the gates look at -/

section

variable {args : CarryArgs} {holdoutFraction : ℚ} {sizes : WalkSizes} {minTrades : ℕ}
  {basis : Option Tape} {series : Tape}

theorem meanWf_score (h : 2 ≤ (hedgedCarryPerPrint args basis series).1.length) :
    (scoreHedgedCarry args holdoutFraction sizes minTrades basis series).meanWfTotalReturn
      = meanOption (researchTotals sizes
          (splitPrints holdoutFraction (hedgedCarryPerPrint args basis series).1).1) := by
  unfold scoreHedgedCarry
  dsimp only
  rw [if_neg (not_lt.mpr h)]

theorem meanHoldout_score (h : 2 ≤ (hedgedCarryPerPrint args basis series).1.length) :
    (scoreHedgedCarry args holdoutFraction sizes minTrades basis series).meanHoldoutTotalReturn
      = if (splitPrints holdoutFraction (hedgedCarryPerPrint args basis series).1).2 = [] then none
        else some (compound
          (splitPrints holdoutFraction (hedgedCarryPerPrint args basis series).1).2) := by
  unfold scoreHedgedCarry
  dsimp only
  rw [if_neg (not_lt.mpr h)]

/-- **The gates are combined** when all four are passed. -/
theorem combined_gates (fundingBySymbol : Option TapeMap) (basisBySymbol : Option TapeMap) :
    (evaluateCarryHardGates args holdoutFraction fundingBySymbol basis basisBySymbol).combined
        = true ↔
      (evaluateCarryHardGates args holdoutFraction fundingBySymbol basis basisBySymbol).eligible96
          = some true ∧
        (evaluateCarryHardGates args holdoutFraction fundingBySymbol basis basisBySymbol).gateA
          = some true ∧
        (evaluateCarryHardGates args holdoutFraction fundingBySymbol basis basisBySymbol).gateB
          = some true ∧
        (evaluateCarryHardGates args holdoutFraction fundingBySymbol basis basisBySymbol).gateC
          = some true := by
  unfold evaluateCarryHardGates
  split
  · split
    next btc eth _ _ =>
      dsimp only
      by_cases hpoints : min btc.length eth.length < hardGateMinDailyBars
      · simp only [if_pos hpoints]
        simp [CarryHardGates.unavailable]
      · simp only [if_neg hpoints]
        simp [gatesOf, and_assoc]
    next => simp [CarryHardGates.unavailable]
  · simp [CarryHardGates.unavailable]

end

/-! ## A daily tape -/

theorem entries_foldl_set_fresh {κ ν : Type} [DecidableEq κ] (f : Option ν → ν → ν)
    (hf : ∀ v, f none v = v) (l : List (κ × ν)) (d : Dict κ ν)
    (hfresh : ((d.entries ++ l).map Prod.fst).Nodup) :
    (l.foldl (fun d e => d.set e.1 (f (d.get? e.1) e.2)) d).entries = d.entries ++ l := by
  induction l generalizing d with
  | nil => simp
  | cons e l ih =>
    rw [List.map_append, List.map_cons] at hfresh
    have hnew : e.1 ∉ d.entries.map Prod.fst := by
      intro hmem
      exact (List.disjoint_of_nodup_append hfresh) hmem List.mem_cons_self
    have hset : ∀ v, (d.set e.1 v).entries = d.entries ++ [(e.1, v)] :=
      fun v => Assoc.set_of_fresh v hnew
    have hnone : d.get? e.1 = none := Dict.get?_eq_none_iff.mpr hnew
    rw [List.foldl_cons, hnone, hf, ih, hset, List.append_assoc, List.singleton_append]
    rw [hset, List.append_assoc, List.singleton_append, List.map_append, List.map_cons]
    exact hfresh

/-- **A daily tape** is its own resample. -/
theorem resampleFundingToDaily_of_daily {series : Tape}
    (hopen : ∀ e ∈ series, utcDayOpen e.1 = e.1)
    (hsorted : series.Pairwise fun a b => a.1 < b.1) : resampleFundingToDaily series = series := by
  have hkeys : (series.map Prod.fst).Nodup :=
    (List.pairwise_map.mpr hsorted).imp fun h => h.ne
  have hstep : ∀ (l : Tape) (d : Dict Time ℚ), (∀ e ∈ l, utcDayOpen e.1 = e.1) →
      l.foldl (fun d e => d.set (utcDayOpen e.1) ((d.get? (utcDayOpen e.1)).getD 0 + e.2)) d
        = l.foldl (fun d e => d.set e.1 ((d.get? e.1).getD 0 + e.2)) d := by
    intro l
    induction l with
    | nil => exact fun _ _ => rfl
    | cons e l ih =>
      intro d hl
      rw [List.forall_mem_cons] at hl
      rw [List.foldl_cons, List.foldl_cons, hl.1, ih _ hl.2]
  have hentries := entries_foldl_set_fresh (fun old v => old.getD 0 + v) (fun v => zero_add v)
    series Dict.empty hkeys
  unfold resampleFundingToDaily
  dsimp only
  rw [hstep series Dict.empty hopen, hentries]
  exact (hsorted.imp fun h => h.le).insertionSort_eq

end TraderStack
