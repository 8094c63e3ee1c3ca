import TraderStack.Lib.TopLevels
import TraderStack.Research.TradeFloor

/-!
# The probability of backtest overfitting (research/overfitting.py)

`cscv_pbo` cuts the rows of a matrix of trial returns into blocks. For every choice of half of
the blocks the trial with the best score there is ranked by its score on the other blocks. The
square root and the logarithm are parameters.

Both the winner and its rank resolve ties by the place of a column: the first of the best
trials wins, and a trial after the winner that ties with it counts as worse.

- `oosRank_eq`: the rank in terms of the worse trials and of the ties after the winner;
- `combinations_permuted`: how many combinations there are does not depend on the columns;
- `cscvPbo_permuted`: **a new order of the trials that keeps the ties** gives the same result;
- `tiesKept_of_distinct`: where no two trials tie, every order keeps the ties.
-/

namespace TraderStack

open Lib Overfitting

/-! ## The statistic -/

/-- `MIN_CSCV_SPLITS`. -/
def minCscvSplits : ℕ := 4

/-- `DEFAULT_CSCV_SPLITS`. -/
def defaultCscvSplits : ℤ := 8

/-- `_percentile` (lines 536–546), of a nonempty sorted list. -/
def percentile (sortedValues : List ℚ) (fraction : ℚ) : ℚ :=
  if sortedValues.length = 1 then sortedValues.getD 0 0
  else
    let position := fraction * (sortedValues.length - 1)
    let lower := ⌊position⌋.toNat
    let upper := ⌈position⌉.toNat
    if lower = upper then sortedValues.getD lower 0
    else
      let weight := position - lower
      sortedValues.getD lower 0 * (1 - weight) + sortedValues.getD upper 0 * weight

/-- `_column_sharpe` (lines 803–810). -/
def columnSharpe (sqrt : ℚ → ℚ) (trialReturns : List (List ℚ)) (rows : List ℕ) (column : ℕ) : ℚ :=
  let values := rows.map fun row => (trialReturns.getD row []).getD column 0
  match sharpeRatio sqrt values with
  | some result => result
  -- no dispersion: the trial is ordered by its mean
  | none => (mean values).getD 0

/-- `_choose_splits` (lines 813–827): of the even block counts, the one that wastes the fewest
rows, and of those the largest. -/
def chooseSplits (observations : ℕ) (splits : ℤ) : Option ℕ :=
  let ceiling := min splits observations
  let candidates := (List.range (ceiling + 1).toNat).filter fun size =>
    minCscvSplits ≤ size ∧ size % 2 = 0
  candidates.argmin fun size => toLex (((observations % size : ℕ) : ℚ), -(size : ℚ))

/-- `itertools.combinations`, in the order of the positions. -/
def combinations {α : Type*} : List α → ℕ → List (List α)
  | _, 0 => [[]]
  | [], _ + 1 => []
  | a :: l, k + 1 => (combinations l k).map (a :: ·) ++ combinations l (k + 1)

example : combinations [0, 1, 2, 3] 2 = [[0, 1], [0, 2], [0, 3], [1, 2], [1, 3], [2, 3]] := rfl

/-- The rows of a block; the oldest rows are left out so that all blocks have one length. -/
def blockRows (observations usable index : ℕ) : List ℕ :=
  let blockSize := observations / usable
  let offset := observations - blockSize * usable
  List.range' (offset + index * blockSize) blockSize

/-- The in-sample and the out-of-sample rows of every combination that has two of each. -/
def rowHalves (observations usable : ℕ) : List (List ℕ × List ℕ) :=
  ((combinations (List.range usable) (usable / 2)).map fun chosen =>
    (chosen.flatMap (blockRows observations usable),
      ((List.range usable).filter (· ∉ chosen)).flatMap (blockRows observations usable))).filter
    fun rows => 2 ≤ rows.1.length ∧ 2 ≤ rows.2.length

/-- The key `(scores[column], -column)`. -/
def byScore (scores : ℕ → ℚ) (column : ℕ) : ℚ ×ₗ ℚ := toLex (scores column, -(column : ℚ))

/-- `best` (line 892). -/
def bestColumn (scores : ℕ → ℚ) (trials : ℕ) : ℕ :=
  ((List.range trials).argmax (byScore scores)).getD 0

/-- `rank` (lines 896–897): 1 is the worst trial. -/
def oosRank (scores : ℕ → ℚ) (trials best : ℕ) : ℕ :=
  (ranked (byScore scores) (List.range trials)).idxOf best + 1

/-- `relative` (line 898), the rank of one combination's winner. -/
def relativeRank (sqrt : ℚ → ℚ) (trialReturns : List (List ℚ)) (trials : ℕ)
    (rows : List ℕ × List ℕ) : ℚ :=
  let best := bestColumn (columnSharpe sqrt trialReturns rows.1) trials
  oosRank (columnSharpe sqrt trialReturns rows.2) trials best / (trials + 1)

/-- `skipped_reason` of a `PboResult`. -/
inductive PboSkip where
  | fewerThanTwoTrials
  | raggedMatrix
  | fewerRowsThanMinimumSplits
  | noUsableCombinations
deriving DecidableEq, Repr

/-- `PboResult` (lines 787–800). -/
structure PboResult where
  computed : Bool
  skippedReason : Option PboSkip
  trials : ℕ
  observations : ℕ
  splits : ℕ
  combinations : ℕ
  pbo : Option ℚ
  medianLogit : Option ℚ
  oosOutperformanceRate : Option ℚ
deriving DecidableEq

/-- A result without a statistic. -/
def PboResult.skipped (trials observations splits : ℕ) (reason : PboSkip) : PboResult :=
  ⟨false, some reason, trials, observations, splits, 0, none, none, none⟩

/-- What is reported of the winners' relative ranks (lines 899–918). -/
def PboResult.ofRanks (log : ℚ → ℚ) (trials observations splits : ℕ) (ranks : List ℚ) : PboResult :=
  if ranks = [] then .skipped trials observations splits .noUsableCombinations
  else
    let logits := ranks.map fun relative => log (relative / (1 - relative))
    let belowMedian := ranks.countP fun relative => relative ≤ 1 / 2
    let pbo : ℚ := belowMedian / logits.length
    ⟨true, none, trials, observations, splits, logits.length, some pbo,
      some (percentile (logits.insertionSort (· ≤ ·)) (1 / 2)), some (1 - pbo)⟩

/-- `cscv_pbo` (lines 830–918). -/
def cscvPbo (sqrt log : ℚ → ℚ) (trialReturns : List (List ℚ)) (splits : ℤ) : PboResult :=
  let observations := trialReturns.length
  let trials := (trialReturns.getD 0 []).length
  if trials < 2 then .skipped trials observations 0 .fewerThanTwoTrials
  else if ∃ row ∈ trialReturns, row.length ≠ trials then
    .skipped trials observations 0 .raggedMatrix
  else
    match chooseSplits observations splits with
    | none => .skipped trials observations 0 .fewerRowsThanMinimumSplits
    | some usable =>
      .ofRanks log trials observations usable
        ((rowHalves observations usable).map (relativeRank sqrt trialReturns trials))

/-! ## The winner and its rank -/

/-- A column is the first of those with the best score. -/
def FirstBest (trials : ℕ) (scores : ℕ → ℚ) (best : ℕ) : Prop :=
  best < trials ∧
    ∀ column < trials, scores column < scores best ∨ (scores column = scores best ∧ best ≤ column)

instance (trials : ℕ) (scores : ℕ → ℚ) (best : ℕ) : Decidable (FirstBest trials scores best) :=
  inferInstanceAs (Decidable (_ ∧ _))

/-- How many columns after the winner tie with it. -/
def tiesAfter (trials : ℕ) (scores : ℕ → ℚ) (best : ℕ) : ℕ :=
  (List.range trials).countP fun column => best < column ∧ scores column = scores best

/-- How many columns have a worse score. -/
def worse (trials : ℕ) (scores : ℕ → ℚ) (score : ℚ) : ℕ :=
  (List.range trials).countP fun column => scores column < score

variable {trials : ℕ} {scores : ℕ → ℚ} {sqrt log : ℚ → ℚ} {trialReturns : List (List ℚ)}

theorem firstBest_unique {a b : ℕ} (ha : FirstBest trials scores a)
    (hb : FirstBest trials scores b) : a = b := by
  obtain ⟨hlta, hbesta⟩ := ha
  obtain ⟨hltb, hbestb⟩ := hb
  rcases hbesta b hltb with hless | ⟨heq, hle⟩
  · rcases hbestb a hlta with hless' | ⟨heq', -⟩
    · exact absurd hless hless'.not_gt
    · exact absurd heq' hless.ne'
  · rcases hbestb a hlta with hless' | ⟨-, hle'⟩
    · exact absurd heq hless'.ne'
    · omega

/-- The winner is the first of the best. -/
theorem firstBest_bestColumn (scores : ℕ → ℚ) (h : 0 < trials) :
    FirstBest trials scores (bestColumn scores trials) := by
  have hsome : ∃ best, (List.range trials).argmax (byScore scores) = some best := by
    rw [← Option.isSome_iff_exists, Option.isSome_iff_ne_none, ne_eq, List.argmax_eq_none,
      List.range_eq_nil]
    omega
  obtain ⟨best, hbest⟩ := hsome
  have hcol : bestColumn scores trials = best := by rw [bestColumn, hbest, Option.getD_some]
  rw [hcol]
  refine ⟨List.mem_range.mp (List.argmax_mem hbest), fun column hlt => ?_⟩
  have hle := List.le_of_mem_argmax (List.mem_range.mpr hlt) hbest
  rcases Prod.Lex.toLex_le_toLex.mp hle with hless | ⟨heq, hneg⟩
  · exact .inl hless
  · exact .inr ⟨heq, by simpa using hneg⟩

/-- No column ties with one whose score is its own. -/
theorem tiesAfter_eq_zero {best : ℕ}
    (h : ∀ column < trials, scores column = scores best → column = best) :
    tiesAfter trials scores best = 0 := by
  refine List.countP_eq_zero.mpr fun column hmem => ?_
  simp only [decide_eq_true_eq, not_and]
  intro hlt heq
  have := h column (List.mem_range.mp hmem) heq
  omega

/-- Columns have distinct keys. -/
theorem nodup_byScore : ((List.range trials).map (byScore scores)).Nodup := by
  refine List.nodup_range.map fun a b hab => ?_
  have hneg := congrArg (fun key => (ofLex key).2) hab
  have hcast : (a : ℚ) = b := neg_injective hneg
  exact_mod_cast hcast

/-- **The rank**: the worse columns and the ties after the winner are below it. -/
theorem oosRank_eq {best : ℕ} (h : best < trials) :
    oosRank scores trials best
      = worse trials scores (scores best) + tiesAfter trials scores best + 1 := by
  have hahead : ahead (byScore scores) (List.range trials) (byScore scores best)
      = (List.range trials).filter fun column =>
          scores column < scores best ∨ (best < column ∧ scores column = scores best) := by
    refine List.filter_congr fun column _ => ?_
    rw [decide_eq_decide, byScore, byScore, Prod.Lex.toLex_lt_toLex]
    constructor
    · rintro (hless | ⟨heq, hneg⟩)
      · exact .inl hless
      · exact .inr ⟨by simpa using hneg, heq⟩
    · rintro (hless | ⟨hlt, heq⟩)
      · exact .inl hless
      · exact .inr ⟨heq, by simpa using hlt⟩
  rw [oosRank, idxOf_ranked nodup_byScore (List.mem_range.mpr h), hahead,
    ← List.countP_eq_length_filter, countP_or_disjoint _ _ fun a hless htie => hless.ne htie.2]
  rfl

/-! ## Another order of the trials -/

/-- The matrix with its columns in the order `perm`. -/
def permuted (perm : List ℕ) (trialReturns : List (List ℚ)) : List (List ℚ) :=
  trialReturns.map fun row => perm.map fun column => row.getD column 0

/-- For one choice of rows the ties are kept: the first of the best trials is the same trial in
the new order, and as many trials after it tie with it out of sample. -/
def TiesKeptOn (sqrt : ℚ → ℚ) (trialReturns : List (List ℚ)) (perm : List ℕ) (trials : ℕ)
    (rows : List ℕ × List ℕ) : Prop :=
  ∀ best < trials, FirstBest trials (columnSharpe sqrt (permuted perm trialReturns) rows.1) best →
    FirstBest trials (columnSharpe sqrt trialReturns rows.1) (perm.getD best 0) ∧
      tiesAfter trials (columnSharpe sqrt (permuted perm trialReturns) rows.2) best
        = tiesAfter trials (columnSharpe sqrt trialReturns rows.2) (perm.getD best 0)

/-- The ties are kept for every combination of blocks. -/
def TiesKept (sqrt : ℚ → ℚ) (trialReturns : List (List ℚ)) (splits : ℤ) (perm : List ℕ)
    (trials : ℕ) : Prop :=
  ∀ usable ∈ chooseSplits trialReturns.length splits,
    ∀ rows ∈ rowHalves trialReturns.length usable, TiesKeptOn sqrt trialReturns perm trials rows

variable {perm : List ℕ} {splits : ℤ} {rows : List ℕ × List ℕ}

@[simp] theorem length_permuted : (permuted perm trialReturns).length = trialReturns.length :=
  List.length_map _

theorem getD_of_lt {column : ℕ} (h : column < perm.length) : perm.getD column 0 = perm[column] := by
  rw [List.getD_eq_getElem?_getD, List.getElem?_eq_getElem h, Option.getD_some]

/-- A column of the new order scores what its trial scored. -/
theorem columnSharpe_permuted (rows : List ℕ) {column : ℕ} (h : column < perm.length) :
    columnSharpe sqrt (permuted perm trialReturns) rows column
      = columnSharpe sqrt trialReturns rows (perm.getD column 0) := by
  have hentry : ∀ row, ((permuted perm trialReturns).getD row []).getD column 0
      = (trialReturns.getD row []).getD (perm.getD column 0) 0 := by
    intro row
    rw [permuted, List.getD_eq_getElem?_getD (l := trialReturns.map _), List.getElem?_map,
      List.getD_eq_getElem?_getD (l := trialReturns)]
    cases trialReturns[row]? with
    | none => simp
    | some values =>
      simp only [Option.map_some, Option.getD_some]
      rw [List.getD_eq_getElem?_getD, List.getElem?_map, List.getElem?_eq_getElem h,
        Option.map_some, Option.getD_some, getD_of_lt h]
  simp only [columnSharpe, hentry]

/-- A new order of the columns has every column. -/
theorem map_getD_perm (hperm : perm.Perm (List.range trials)) :
    (List.range trials).map (fun column => perm.getD column 0) = perm := by
  have hlen : perm.length = trials := by rw [hperm.length_eq, List.length_range]
  refine List.ext_getElem (by simp [hlen]) fun i hi hi' => ?_
  rw [List.getElem_map, List.getElem_range, getD_of_lt hi']

theorem getD_perm_inj (hperm : perm.Perm (List.range trials)) {a b : ℕ} (ha : a < trials)
    (hb : b < trials) (h : perm.getD a 0 = perm.getD b 0) : a = b := by
  have hlen : perm.length = trials := by rw [hperm.length_eq, List.length_range]
  rw [getD_of_lt (by omega), getD_of_lt (by omega)] at h
  exact (hperm.nodup_iff.mpr List.nodup_range).getElem_inj_iff.mp h

theorem getD_perm_lt (hperm : perm.Perm (List.range trials)) {column : ℕ} (h : column < trials) :
    perm.getD column 0 < trials := by
  have hlen : perm.length = trials := by rw [hperm.length_eq, List.length_range]
  rw [getD_of_lt (by omega)]
  exact List.mem_range.mp (hperm.mem_iff.mp (List.getElem_mem _))

/-- Counting over all columns does not depend on their order. -/
theorem countP_permuted (hperm : perm.Perm (List.range trials)) {p q : ℕ → Bool}
    (h : ∀ column < trials, p column = q (perm.getD column 0)) :
    (List.range trials).countP p = (List.range trials).countP q := by
  have hcongr : (List.range trials).countP p
      = (List.range trials).countP (q ∘ fun column => perm.getD column 0) :=
    List.countP_congr fun column hmem => by simp [h column (List.mem_range.mp hmem)]
  rw [hcongr, ← List.countP_map, map_getD_perm hperm, hperm.countP_eq]

/-- As many columns are worse than a score, in every order. -/
theorem worse_permuted (hperm : perm.Perm (List.range trials)) (rows : List ℕ) (score : ℚ) :
    worse trials (columnSharpe sqrt (permuted perm trialReturns) rows) score
      = worse trials (columnSharpe sqrt trialReturns rows) score := by
  have hlen : perm.length = trials := by rw [hperm.length_eq, List.length_range]
  refine countP_permuted hperm fun column hlt => ?_
  rw [columnSharpe_permuted rows (by omega)]

/-- Where the ties are kept the winner has the same relative rank. -/
theorem relativeRank_permuted (hperm : perm.Perm (List.range trials)) (htrials : 0 < trials)
    (hties : TiesKeptOn sqrt trialReturns perm trials rows) :
    relativeRank sqrt (permuted perm trialReturns) trials rows
      = relativeRank sqrt trialReturns trials rows := by
  have hlen : perm.length = trials := by rw [hperm.length_eq, List.length_range]
  have hnew := firstBest_bestColumn (columnSharpe sqrt (permuted perm trialReturns) rows.1) htrials
  obtain ⟨hfirst, hafter⟩ := hties _ hnew.1 hnew
  -- the winners are one trial
  have hbest := firstBest_unique (firstBest_bestColumn _ htrials) hfirst
  have hold := (firstBest_bestColumn (columnSharpe sqrt trialReturns rows.1) htrials).1
  simp only [relativeRank]
  rw [oosRank_eq hnew.1, oosRank_eq hold, hafter, hbest, worse_permuted hperm,
    columnSharpe_permuted rows.2 (by have := hnew.1; omega)]

/-- Rows of one length stay so. -/
theorem length_of_mem_permuted (trialReturns : List (List ℚ))
    (hperm : perm.Perm (List.range trials)) :
    ∀ row ∈ permuted perm trialReturns, row.length = trials := by
  intro row hmem
  obtain ⟨old, -, rfl⟩ := List.mem_map.mp hmem
  rw [List.length_map, hperm.length_eq, List.length_range]

/-- The number of combinations is that of the halves with two rows of each kind. -/
theorem combinations_ofRanks (trials observations splits : ℕ) (ranks : List ℚ) :
    (PboResult.ofRanks log trials observations splits ranks).combinations = ranks.length := by
  unfold PboResult.ofRanks
  split
  · next h =>
    rw [h]
    rfl
  · exact List.length_map _

/-- The statistic of a matrix whose rows have one length. -/
theorem cscvPbo_regular (hrows : ∀ row ∈ trialReturns, row.length = trials)
    (hfirst : (trialReturns.getD 0 []).length = trials) (htrials : 2 ≤ trials) :
    cscvPbo sqrt log trialReturns splits =
      match chooseSplits trialReturns.length splits with
      | none => .skipped trials trialReturns.length 0 .fewerRowsThanMinimumSplits
      | some usable => .ofRanks log trials trialReturns.length usable
          ((rowHalves trialReturns.length usable).map (relativeRank sqrt trialReturns trials)) := by
  have hregular : ¬∃ row ∈ trialReturns, row.length ≠ trials := by
    rintro ⟨row, hmem, hne⟩
    exact hne (hrows row hmem)
  simp only [cscvPbo, hfirst, if_neg hregular, if_neg (show ¬trials < 2 by omega)]

/-- **Where no two trials tie**, in sample or out of sample, every order keeps the ties. -/
theorem tiesKept_of_distinct (hperm : perm.Perm (List.range trials))
    (hdistinct : ∀ usable ∈ chooseSplits trialReturns.length splits,
      ∀ rows ∈ rowHalves trialReturns.length usable, ∀ a < trials, ∀ b < trials,
        columnSharpe sqrt trialReturns rows.1 a = columnSharpe sqrt trialReturns rows.1 b ∨
          columnSharpe sqrt trialReturns rows.2 a = columnSharpe sqrt trialReturns rows.2 b →
        a = b) : TiesKept sqrt trialReturns splits perm trials := by
  intro usable husable rows hrows best hlt hbest
  have hlen : perm.length = trials := by rw [hperm.length_eq, List.length_range]
  have hinj := hdistinct usable husable rows hrows
  have hwin := getD_perm_lt hperm hlt
  refine ⟨⟨hwin, fun column hcolumn => ?_⟩, ?_⟩
  · -- the trial of a column stands somewhere in the new order
    have hmem : column ∈ perm := hperm.mem_iff.mpr (List.mem_range.mpr hcolumn)
    obtain ⟨place, hplace, rfl⟩ := List.getElem_of_mem hmem
    rw [hlen] at hplace
    have hscore := hbest.2 place hplace
    rw [columnSharpe_permuted _ (by omega), columnSharpe_permuted _ (by omega),
      getD_of_lt (hlen ▸ hplace)] at hscore
    rcases hscore with hless | ⟨heq, -⟩
    · exact .inl hless
    · have hsame := hinj _ hcolumn _ hwin (.inl heq)
      exact .inr ⟨heq, by omega⟩
  · have hnew : tiesAfter trials (columnSharpe sqrt (permuted perm trialReturns) rows.2) best
        = 0 := by
      refine tiesAfter_eq_zero fun place hplace heq => ?_
      rw [columnSharpe_permuted _ (by omega), columnSharpe_permuted _ (by omega)] at heq
      exact getD_perm_inj hperm hplace hlt
        (hinj _ (getD_perm_lt hperm hplace) _ hwin (.inr heq))
    have hold : tiesAfter trials (columnSharpe sqrt trialReturns rows.2) (perm.getD best 0)
        = 0 := tiesAfter_eq_zero fun column hcolumn heq => hinj _ hcolumn _ hwin (.inr heq)
    rw [hnew, hold]

/-- **PBO and the order of the catalog**: the number of combinations does not depend on it, and
nothing of the result does where the ties are kept. -/
theorem cscvPbo_permuted (sqrt log : ℚ → ℚ) (trials : ℕ) (trialReturns : List (List ℚ))
    (splits : ℤ) (perm : List ℕ) (hrows : ∀ row ∈ trialReturns, row.length = trials)
    (hperm : perm.Perm (List.range trials)) :
    (cscvPbo sqrt log (permuted perm trialReturns) splits).combinations
        = (cscvPbo sqrt log trialReturns splits).combinations ∧
      (TiesKept sqrt trialReturns splits perm trials →
        cscvPbo sqrt log (permuted perm trialReturns) splits
          = cscvPbo sqrt log trialReturns splits) := by
  rcases trialReturns with _ | ⟨row, rest⟩
  · exact ⟨rfl, fun _ => rfl⟩
  have hfirst : ((row :: rest).getD 0 []).length = trials := hrows row List.mem_cons_self
  have hrows' := length_of_mem_permuted (row :: rest) hperm
  have hfirst' : ((permuted perm (row :: rest)).getD 0 []).length = trials :=
    hrows' _ List.mem_cons_self
  by_cases htrials : trials < 2
  · -- both are skipped
    have hsame : cscvPbo sqrt log (permuted perm (row :: rest)) splits
        = cscvPbo sqrt log (row :: rest) splits := by
      simp only [cscvPbo, hfirst, hfirst', if_pos htrials, length_permuted]
    exact ⟨by rw [hsame], fun _ => hsame⟩
  · rw [cscvPbo_regular hrows' hfirst' (by omega), cscvPbo_regular hrows hfirst (by omega),
      length_permuted]
    cases husable : chooseSplits (row :: rest).length splits with
    | none => exact ⟨rfl, fun _ => rfl⟩
    | some usable =>
      refine ⟨by simp only [combinations_ofRanks, List.length_map], fun hties => ?_⟩
      have hranks : ∀ rows ∈ rowHalves (row :: rest).length usable,
          relativeRank sqrt (permuted perm (row :: rest)) trials rows
            = relativeRank sqrt (row :: rest) trials rows := fun rows hmem =>
        relativeRank_permuted hperm (by omega) (hties usable husable rows hmem)
      simp only [List.map_congr_left hranks]

/-! ## A trial that never trades, and one that trades late -/

namespace Idle

/-- The square root of the only variance here. -/
def root (variance : ℚ) : ℚ := if variance = 1 / 2 then 6369051672525773 / 2 ^ 53 else 0

/-- The logarithm of 2 and of 1/2. -/
def logarithm (odds : ℚ) : ℚ :=
  if odds = 2 then 6243314768165359 / 2 ^ 53
  else if odds = 1 / 2 then -(6243314768165359 / 2 ^ 53)
  else 0

/-- The idle trial first. -/
def late : List (List ℚ) := [[0, 0], [0, 0], [0, 1], [0, 1]]

/-- Two trials that never tie. -/
def apart : List (List ℚ) := [[1, 0], [1, 0], [1, 0], [1, 0]]

end Idle

/-- With the idle trial first it wins where both are flat, and the late trial beats it out of
sample; with the late trial first no winner is ever below the median. -/
theorem pbo_depends_on_order :
    (∀ row ∈ Idle.late, row.length = 2) ∧ [1, 0].Perm (List.range 2) ∧
      (cscvPbo Idle.root Idle.logarithm Idle.late 4).pbo = some (1 / 3) ∧
      (cscvPbo Idle.root Idle.logarithm (permuted [1, 0] Idle.late) 4).pbo = some 0 := by
  decide +kernel

theorem cscvPbo_permuted_apart :
    TiesKept Idle.root Idle.apart 4 [1, 0] 2 ∧
      cscvPbo Idle.root Idle.logarithm (permuted [1, 0] Idle.apart) 4
        = cscvPbo Idle.root Idle.logarithm Idle.apart 4 := by
  have hperm : [1, 0].Perm (List.range 2) := by decide
  have hties : TiesKept Idle.root Idle.apart 4 [1, 0] 2 :=
    tiesKept_of_distinct hperm (by decide +kernel)
  exact ⟨hties, (cscvPbo_permuted Idle.root Idle.logarithm 2 Idle.apart 4 [1, 0]
    (by decide) hperm).2 hties⟩

end TraderStack
