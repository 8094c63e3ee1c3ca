import TraderStack.Lib.Stacks
import TraderStack.Research.MilesSearch
import TraderStack.Research.Pbo

/-!
# Selection evidence (research/selection_evidence.py)

A trial's return sample is the net total return of its walk-forward folds, asset after asset; an
asset without a walk-forward is left out of it. The samples are cut to the shortest one and put
side by side, place by place, as the matrix on which the probability of backtest overfitting is
computed. Bootstrap, deflated Sharpe ratios and the gates on them are left out.

- `cscvMatrix_map`: the matrix of returns is read off a matrix of folds;
- `cscvMatrix_uniform_iff`: the lines of a matrix agree exactly when the shortest sample is a prefix
  of every other one;
- `evidence_aligned_iff`: **the columns of a line come from the same fold of the same asset**
  exactly when the shortest trial has, up to its last asset, the folds of every other trial.
-/

namespace TraderStack

open Lib MilesSearch

/-! ## The samples -/

/-- `EVIDENCE_ASSETS`. -/
def evidenceAssets : List String := ["BTC/USD", "ETH/USD", "SOL/USD"]

/-- The walk-forward folds of an asset: none where its series is missing, was skipped or has no
walk-forward. -/
def foldsOf (interval : String) (row : CandidateSearchResult) (asset : String) :
    List WalkForwardFold :=
  ((seriesForAsset row.perSeries asset interval).bind (·.walkforward)).elim [] (·.folds)

/-- `_fold_returns` (lines 174–208): the folds' total returns, their expectancies where they
traded, and their trades. -/
def foldReturns (row : CandidateSearchResult) (interval : String) (assets : List String) :
    List ℚ × List ℚ × ℕ :=
  let folds := assets.flatMap (foldsOf interval row)
  (folds.map fun fold => fold.metrics.totalReturn,
    (folds.filter fun fold => 0 < fold.metrics.trades).map fun fold => fold.metrics.expectancy,
    (folds.map fun fold => fold.metrics.trades).sum)

section Matrix

variable {α β : Type}

/-- The length of the shortest sample. -/
def shortest (samples : List (List α)) : ℕ := (samples.map List.length).min?.getD 0

/-- `_cscv_matrix` (lines 224–232). It never looks at an entry, so it is stated for any. -/
def cscvMatrix (samples : List (List α)) : List (List α) :=
  let usable := samples.filter (· ≠ [])
  if usable.length < 2 then []
  else
    let rows := shortest usable
    if rows < 2 then [] else (List.range rows).map fun index => usable.filterMap (·[index]?)

end Matrix

/-- The probability of overfitting of a catalog (lines 257–268). -/
def catalogPbo (sqrt log : ℚ → ℚ) (rows : List CandidateSearchResult) (interval : String)
    (assets : List String) (cscvSplits : ℤ) : PboResult :=
  cscvPbo sqrt log (cscvMatrix (rows.map fun row => (foldReturns row interval assets).1))
    cscvSplits

/-! ## Where the entries come from -/

/-- The bars a fold was trained and tested on. -/
def WalkForwardFold.window (fold : WalkForwardFold) : ℕ × ℕ × ℕ × ℕ :=
  (fold.trainStart, fold.trainEnd, fold.testStart, fold.testEnd)

/-- The folds behind a trial's sample, with their assets. -/
def sampleFolds (interval : String) (assets : List String) (row : CandidateSearchResult) :
    List (String × WalkForwardFold) :=
  stack assets (foldsOf interval row)

/-- The asset and the bars of a fold. -/
def foldLabel (e : String × WalkForwardFold) : String × ℕ × ℕ × ℕ × ℕ := (e.1, e.2.window)

section Matrix

variable {α β : Type}

theorem filter_map_map (f : α → β) (samples : List (List α)) :
    (samples.map (List.map f)).filter (· ≠ []) = (samples.filter (· ≠ [])).map (List.map f) := by
  rw [List.filter_map]
  congr 1
  refine List.filter_congr fun sample _ => ?_
  simp

theorem shortest_map (f : α → β) (samples : List (List α)) :
    shortest (samples.map (List.map f)) = shortest samples := by
  rw [shortest, shortest, List.map_map]
  congr 2
  exact List.map_congr_left fun sample _ => List.length_map f

/-- The matrix of what is read off the entries. -/
theorem cscvMatrix_map (f : α → β) (samples : List (List α)) :
    cscvMatrix (samples.map (List.map f)) = (cscvMatrix samples).map (List.map f) := by
  unfold cscvMatrix
  simp only [filter_map_map, List.length_map, shortest_map]
  by_cases hcount : (samples.filter (· ≠ [])).length < 2
  · rw [if_pos hcount, if_pos hcount]
    rfl
  · rw [if_neg hcount, if_neg hcount]
    by_cases hrows : shortest (samples.filter (· ≠ [])) < 2
    · rw [if_pos hrows, if_pos hrows]
      rfl
    · rw [if_neg hrows, if_neg hrows, List.map_map]
      refine List.map_congr_left fun index _ => ?_
      rw [Function.comp_apply, List.map_filterMap, List.filterMap_map]
      refine List.filterMap_congr fun sample _ => ?_
      exact List.getElem?_map

/-- The shortest sample is one of them, and none is shorter. -/
theorem shortest_spec {samples : List (List α)} (h : samples ≠ []) :
    (∃ s ∈ samples, s.length = shortest samples) ∧ ∀ s ∈ samples, shortest samples ≤ s.length := by
  have hne : (samples.map List.length).min? ≠ none := by
    rw [Ne, List.min?_eq_none_iff, List.map_eq_nil_iff]
    exact h
  obtain ⟨least, hleast⟩ := Option.ne_none_iff_exists'.mp hne
  obtain ⟨hmem, hall⟩ := List.min?_eq_some_iff.mp hleast
  have hshortest : shortest samples = least := by rw [shortest, hleast, Option.getD_some]
  obtain ⟨s, hs, hlength⟩ := List.mem_map.mp hmem
  rw [hshortest]
  exact ⟨⟨s, hs, hlength⟩, fun t ht => hall _ (List.mem_map_of_mem ht)⟩

/-- Fewer than two trials with a sample, or one with fewer than two entries: there is no matrix. -/
def TooFew (samples : List (List α)) : Prop :=
  (samples.filter (· ≠ [])).length < 2 ∨ ∃ s ∈ samples, s ≠ [] ∧ s.length < 2

/-- Every shortest sample is a prefix of every other one. -/
def ShortestLeads (samples : List (List α)) : Prop :=
  ∀ s ∈ samples, s ≠ [] → (∀ t ∈ samples, t ≠ [] → s.length ≤ t.length) →
    ∀ t ∈ samples, t ≠ [] → s <+: t

theorem mem_usable {samples : List (List α)} {s : List α} :
    s ∈ samples.filter (· ≠ []) ↔ s ∈ samples ∧ s ≠ [] := by
  rw [List.mem_filter, decide_eq_true_eq]

theorem cscvMatrix_of_tooFew {samples : List (List α)} (h : TooFew samples) :
    cscvMatrix samples = [] := by
  unfold cscvMatrix
  dsimp only
  by_cases hcount : (samples.filter (· ≠ [])).length < 2
  · rw [if_pos hcount]
  · rw [if_neg hcount]
    obtain ⟨s, hs, hne, hlength⟩ := h.resolve_left hcount
    have hmem := mem_usable.mpr ⟨hs, hne⟩
    have hle := (shortest_spec (List.ne_nil_of_mem hmem)).2 s hmem
    rw [if_pos (by omega)]

/-- **The lines of the matrix agree** exactly when there is no matrix or the shortest sample leads
the others. -/
theorem cscvMatrix_uniform_iff (samples : List (List α)) :
    (∀ line ∈ cscvMatrix samples, ∀ x ∈ line, ∀ y ∈ line, x = y) ↔
      TooFew samples ∨ ShortestLeads samples := by
  by_cases hfew : TooFew samples
  · rw [cscvMatrix_of_tooFew hfew]
    exact ⟨fun _ => Or.inl hfew, fun _ line h => absurd h List.not_mem_nil⟩
  · rw [or_iff_right hfew]
    have hcount : ¬(samples.filter (· ≠ [])).length < 2 := fun h => hfew (Or.inl h)
    have hne : samples.filter (· ≠ []) ≠ [] := by
      intro h
      rw [h] at hcount
      exact hcount (by simp)
    obtain ⟨⟨least, hleast, hlength⟩, hall⟩ := shortest_spec hne
    obtain ⟨hmem, hleastNe⟩ := mem_usable.mp hleast
    have hrows : ¬shortest (samples.filter (· ≠ [])) < 2 := fun h =>
      hfew (Or.inr ⟨least, hmem, hleastNe, by omega⟩)
    have hmatrix : cscvMatrix samples =
        (List.range (shortest (samples.filter (· ≠ [])))).map fun index =>
          (samples.filter (· ≠ [])).filterMap (·[index]?) := by
      unfold cscvMatrix
      dsimp only
      rw [if_neg hcount, if_neg hrows]
    rw [hmatrix]
    constructor
    · intro h s hs hsNe hshort t ht htNe
      refine List.prefix_iff_getElem?.mpr fun index hindex => ?_
      have hsle : s.length ≤ shortest (samples.filter (· ≠ [])) :=
        hlength ▸ hshort least hmem hleastNe
      have htlen : index < t.length := hindex.trans_le (hshort t ht htNe)
      have hline := h _ (List.mem_map_of_mem (List.mem_range.mpr (hindex.trans_le hsle)))
      have hsame := hline (s[index]) (List.mem_filterMap.mpr
        ⟨s, mem_usable.mpr ⟨hs, hsNe⟩, List.getElem?_eq_getElem hindex⟩) (t[index])
        (List.mem_filterMap.mpr ⟨t, mem_usable.mpr ⟨ht, htNe⟩, List.getElem?_eq_getElem htlen⟩)
      rw [List.getElem?_eq_getElem htlen, hsame]
    · intro h line hline x hx y hy
      obtain ⟨index, hindex, rfl⟩ := List.mem_map.mp hline
      have hshort : ∀ t ∈ samples, t ≠ [] → least.length ≤ t.length := fun t ht htNe =>
        hlength ▸ hall t (mem_usable.mpr ⟨ht, htNe⟩)
      have hlt : index < least.length := hlength ▸ List.mem_range.mp hindex
      -- every entry of the line is the shortest sample's
      have hentry : ∀ z ∈ (samples.filter (· ≠ [])).filterMap (·[index]?), z = least[index] := by
        intro z hz
        obtain ⟨t, ht, htz⟩ := List.mem_filterMap.mp hz
        obtain ⟨htmem, htNe⟩ := mem_usable.mp ht
        have hlead := List.prefix_iff_getElem?.mp (h least hmem hleastNe hshort t htmem htNe)
          index hlt
        rw [htz] at hlead
        exact Option.some.inj hlead
      rw [hentry x hx, hentry y hy]

end Matrix

/-! ## Alignment -/

section Alignment

variable (interval : String) (assets : List String)

/-- The bars of a trial's folds of an asset. -/
def windowsOf (row : CandidateSearchResult) (asset : String) : List (ℕ × ℕ × ℕ × ℕ) :=
  (foldsOf interval row asset).map WalkForwardFold.window

theorem map_foldLabel (row : CandidateSearchResult) :
    (sampleFolds interval assets row).map foldLabel = stack assets (windowsOf interval row) := by
  rw [sampleFolds, stack, stack, List.map_flatMap]
  refine List.flatMap_congr fun asset _ => ?_
  rw [windowsOf, List.map_map, List.map_map]
  rfl

/-- The matrix of returns shows the returns of the matrix of folds. -/
theorem cscvMatrix_returns (rows : List CandidateSearchResult) :
    cscvMatrix (rows.map fun row => (foldReturns row interval assets).1) =
      (cscvMatrix (rows.map (sampleFolds interval assets))).map
        (List.map fun e => e.2.metrics.totalReturn) := by
  rw [← cscvMatrix_map, List.map_map]
  congr 1
  refine List.map_congr_left fun row _ => ?_
  rw [Function.comp_apply, sampleFolds, stack, List.map_flatMap, foldReturns, List.map_flatMap]
  refine List.flatMap_congr fun asset _ => ?_
  rw [List.map_map]
  rfl

/-- Every line of the matrix shows, for all of its columns, the same fold of the same asset. -/
def Aligned (rows : List CandidateSearchResult) : Prop :=
  ∀ line ∈ cscvMatrix (rows.map (sampleFolds interval assets)),
    ∀ a ∈ line, ∀ b ∈ line, foldLabel a = foldLabel b

/-- A trial with folds, of which no other trial with folds has fewer. -/
def Shortest (rows : List CandidateSearchResult) (s : CandidateSearchResult) : Prop :=
  s ∈ rows ∧ sampleFolds interval assets s ≠ [] ∧
    ∀ t ∈ rows, sampleFolds interval assets t ≠ [] →
      (sampleFolds interval assets s).length ≤ (sampleFolds interval assets t).length

theorem aligned_iff_labels (rows : List CandidateSearchResult) :
    Aligned interval assets rows ↔
      ∀ line ∈ cscvMatrix (rows.map fun row => stack assets (windowsOf interval row)),
        ∀ x ∈ line, ∀ y ∈ line, x = y := by
  have hlabels : (rows.map fun row => stack assets (windowsOf interval row)) =
      (rows.map (sampleFolds interval assets)).map (List.map foldLabel) := by
    rw [List.map_map]
    exact List.map_congr_left fun row _ => (map_foldLabel interval assets row).symm
  rw [hlabels, cscvMatrix_map, Aligned]
  constructor
  · intro h line hline x hx y hy
    obtain ⟨folds, hfolds, rfl⟩ := List.mem_map.mp hline
    obtain ⟨a, ha, rfl⟩ := List.mem_map.mp hx
    obtain ⟨b, hb, rfl⟩ := List.mem_map.mp hy
    exact h folds hfolds a ha b hb
  · intro h line hline a ha b hb
    exact h _ (List.mem_map_of_mem hline) _ (List.mem_map_of_mem ha) _ (List.mem_map_of_mem hb)

theorem labels_ne_nil_iff (row : CandidateSearchResult) :
    stack assets (windowsOf interval row) ≠ [] ↔ sampleFolds interval assets row ≠ [] := by
  rw [← map_foldLabel, Ne, List.map_eq_nil_iff]

theorem length_labels (row : CandidateSearchResult) :
    (stack assets (windowsOf interval row)).length = (sampleFolds interval assets row).length := by
  rw [← map_foldLabel, List.length_map]

theorem tooFew_labels_iff (rows : List CandidateSearchResult) :
    TooFew (rows.map fun row => stack assets (windowsOf interval row)) ↔
      TooFew (rows.map (sampleFolds interval assets)) := by
  unfold TooFew
  simp only [List.filter_map, List.length_map, List.mem_map, exists_exists_and_eq_and,
    labels_ne_nil_iff, length_labels, Function.comp_def]

theorem shortestLeads_labels_iff (hnodup : assets.Nodup) (rows : List CandidateSearchResult) :
    ShortestLeads (rows.map fun row => stack assets (windowsOf interval row)) ↔
      ∀ s, Shortest interval assets rows s → ∀ t ∈ rows, sampleFolds interval assets t ≠ [] →
        Leads (windowsOf interval s) (windowsOf interval t) assets := by
  unfold ShortestLeads Shortest
  simp only [List.forall_mem_map, labels_ne_nil_iff, length_labels, stack_prefix_iff hnodup]
  constructor
  · rintro h s ⟨hs, hne, hshort⟩
    exact h s hs hne hshort
  · intro h s hs hne hshort
    exact h s ⟨hs, hne, hshort⟩

end Alignment

/-! ## A trial without the first asset -/

namespace Shifted

def metrics (starting : ℚ) (h : 0 < starting) : BacktestMetrics where
  startingEquity := starting
  endingEquity := starting
  totalReturn := 0
  benchmarkReturn := 0
  excessReturn := 0
  maxDrawdown := 0
  trades := 0
  profitFactor := 0
  expectancy := 0
  turnover := 0
  totalFees := 0
  tradeLog := []
  starting_pos := h
  ending_pos := h
  maxDrawdown_nonneg := zero_nonneg
  turnover_nonneg := zero_nonneg
  totalFees_nonneg := zero_nonneg

/-- The fold that is tested on one bar. -/
def fold (bar : ℕ) : WalkForwardFold where
  trainStart := bar
  trainEnd := bar + 1
  testStart := bar + 1
  testEnd := bar + 2
  metrics := metrics 1 unit_pos
  trainEnd_pos := bar.succ_pos
  testEnd_pos := (bar + 1).succ_pos

/-- A daily series with so many folds; with none there is no walk-forward. -/
def series (asset : String) (folds : ℕ) : AssetCandidateMetrics where
  asset := asset
  interval := "1d"
  candleCount := 9
  researchBars := 8
  holdoutBars := 1
  walkforward := if folds = 0 then none else some ⟨(List.range folds).map fold, 0, 0, 0⟩
  walkforwardTrades := 0
  walkforwardMeanExcessReturn := none
  walkforwardMeanTotalReturn := none
  holdout := none
  skippedReason := none

def trial (btc eth : ℕ) : CandidateSearchResult :=
  .ofSeries "trial" [series "BTC/USD" btc, series "ETH/USD" eth] []

/-- The second trial has no walk-forward on the first asset. -/
def rows : List CandidateSearchResult := [trial 2 2, trial 0 2]

/-- The second trial has fewer folds of the last asset only. -/
def trimmed : List CandidateSearchResult := [trial 2 2, trial 2 1]

end Shifted

open Shifted in
/-- Where a trial has no walk-forward on the first asset, its folds of the second stand beside the
other trial's folds of the first. -/
theorem missing_asset_shifts :
    (cscvMatrix (rows.map (sampleFolds "1d" evidenceAssets))).map (List.map Prod.fst) =
        [["BTC/USD", "ETH/USD"], ["BTC/USD", "ETH/USD"]] ∧
      ¬Aligned "1d" evidenceAssets rows := by
  refine ⟨by decide +kernel, fun h => ?_⟩
  have hline : [("BTC/USD", fold 0), ("ETH/USD", fold 0)] ∈
      cscvMatrix (rows.map (sampleFolds "1d" evidenceAssets)) := by decide +kernel
  have hsame := h _ hline _ List.mem_cons_self _ (List.mem_cons_of_mem _ List.mem_cons_self)
  exact absurd (congrArg Prod.fst hsame) (by decide)

/-- **The probability of overfitting compares like with like**: the matrix shows the returns of
folds, and its lines show the same fold of the same asset in all columns exactly when there are too
few folds for a matrix or every shortest trial has, up to its last asset with folds, the folds of
every other trial. -/
theorem evidence_aligned_iff (interval : String) (rows : List CandidateSearchResult) :
    cscvMatrix (rows.map fun row => (foldReturns row interval evidenceAssets).1) =
        (cscvMatrix (rows.map (sampleFolds interval evidenceAssets))).map
          (List.map fun e => e.2.metrics.totalReturn) ∧
    (Aligned interval evidenceAssets rows ↔
      TooFew (rows.map (sampleFolds interval evidenceAssets)) ∨
        ∀ s, Shortest interval evidenceAssets rows s →
          ∀ t ∈ rows, sampleFolds interval evidenceAssets t ≠ [] →
            Leads (windowsOf interval s) (windowsOf interval t) evidenceAssets) := by
  refine ⟨cscvMatrix_returns interval evidenceAssets rows, ?_⟩
  rw [aligned_iff_labels, cscvMatrix_uniform_iff, tooFew_labels_iff,
    shortestLeads_labels_iff interval evidenceAssets (by decide)]

end TraderStack
