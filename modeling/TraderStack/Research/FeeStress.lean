import TraderStack.Research.MilesSearch
import TraderStack.Research.Search

/-!
# The fee stress can only lower a row (miles_search.py, harder_gates.py)

Two searches over the same histories, at two costs. Every backtest of the second is
the backtest of the first at the higher cost, so it raises the same, or it returns and
is no better. That is carried up from backtests to folds, to series, to rows, and to
what gate C reads of them.

- `costs_antitone`: backtests, and the rows of the fee stress.
-/

namespace TraderStack

open Lib

/-! ## Values and backtests -/

/-- The second value is missing where the first is, and otherwise no higher. -/
def NotHigher : Option ℚ → Option ℚ → Prop := Option.Rel fun x y => y ≤ x

theorem notHigher_meanOption {xs ys : List ℚ} (h : List.Forall₂ (fun x y => y ≤ x) xs ys) :
    NotHigher (meanOption xs) (meanOption ys) := by
  have hlength : (xs.length : ℚ) = ys.length := congrArg Nat.cast h.length_eq
  have hsum : ys.sum ≤ xs.sum := List.Forall₂.sum_le_sum h.flip
  cases h with
  | nil => exact .none
  | cons hxy hrest =>
    unfold meanOption
    rw [if_neg (List.cons_ne_nil _ _), if_neg (List.cons_ne_nil _ _), hlength]
    exact .some (div_le_div_of_nonneg_right hsum (Nat.cast_nonneg _))

/-- A backtest that trades as often, and returns no more. -/
structure Trails (m m' : BacktestMetrics) : Prop where
  trades : m'.trades = m.trades
  totalReturn : m'.totalReturn ≤ m.totalReturn
  excessReturn : m'.excessReturn ≤ m.excessReturn

/-- So does a walk-forward. -/
structure WalkTrails (r r' : WalkForwardReport) : Prop where
  trades : r'.trades = r.trades
  meanTotalReturn : r'.meanTotalReturn ≤ r.meanTotalReturn
  meanExcessReturn : r'.meanExcessReturn ≤ r.meanExcessReturn

theorem reportFolds_alike {folds folds' : List WalkForwardFold}
    (h : List.Forall₂ (fun f f' => Trails f.metrics f'.metrics) folds folds') :
    Alike WalkTrails (reportFolds folds) (reportFolds folds') := by
  have hlength := h.length_eq
  have hmean : ∀ field : BacktestMetrics → ℚ,
      (∀ m m', Trails m m' → field m' ≤ field m) →
      ((folds'.map WalkForwardFold.metrics).map field).sum
          / (folds'.map WalkForwardFold.metrics).length
        ≤ ((folds.map WalkForwardFold.metrics).map field).sum
          / (folds.map WalkForwardFold.metrics).length := by
    intro field hfield
    rw [List.length_map, List.length_map, hlength]
    refine div_le_div_of_nonneg_right (List.Forall₂.sum_le_sum ?_) (Nat.cast_nonneg _)
    rw [List.map_map, List.map_map, List.forall₂_map_left_iff, List.forall₂_map_right_iff]
    exact (h.imp fun _ _ hf => hfield _ _ hf).flip
  have htrades : (folds'.map fun f => f.metrics.trades).sum
      = (folds.map fun f => f.metrics.trades).sum :=
    congrArg List.sum (map_eq_of_rel (h.imp fun _ _ hf => hf.trades))
  have htotal := hmean BacktestMetrics.totalReturn fun _ _ hm => hm.totalReturn
  have hexcess := hmean BacktestMetrics.excessReturn fun _ _ hm => hm.excessReturn
  cases h with
  | nil => exact .raised .noFold
  | cons hf hrest => exact .returned ⟨htrades, htotal, hexcess⟩

theorem walkForward_alike {trainSize testSize stepSize length : ℕ}
    {backtest backtest' : ℕ → Except ResearchError BacktestMetrics}
    (h : ∀ start, Alike Trails (backtest start) (backtest' start)) :
    Alike WalkTrails (walkForward trainSize testSize stepSize length backtest)
      (walkForward trainSize testSize stepSize length backtest') := by
  have hfold : ∀ start, Alike (fun f f' : WalkForwardFold => Trails f.metrics f'.metrics)
      ((backtest start).bind (foldAt trainSize testSize start))
      ((backtest' start).bind (foldAt trainSize testSize start)) := by
    intro start
    have hstart := h start
    generalize backtest start = r at hstart
    generalize backtest' start = r' at hstart
    cases hstart with
    | raised e => exact .raised e
    | @returned m m' hm =>
      show Alike _ (foldAt trainSize testSize start m) (foldAt trainSize testSize start m')
      unfold foldAt
      by_cases hpos : 0 < start + trainSize
      · rw [dif_pos hpos, dif_pos hpos]
        exact .returned hm
      · rw [dif_neg hpos, dif_neg hpos]
        exact .raised _
  have hfolds := Alike.collect (foldStarts trainSize testSize stepSize length)
    fun start _ => hfold start
  unfold walkForward
  generalize collect _ _ = folds at hfolds
  generalize collect _ _ = folds' at hfolds
  cases hfolds with
  | raised e => exact .raised e
  | returned hrel => exact reportFolds_alike hrel

/-! ## Series -/

/-- A series scored the same, at no more. -/
structure SeriesTrails (row row' : AssetCandidateMetrics) : Prop where
  asset : row'.asset = row.asset
  interval : row'.interval = row.interval
  trades : row'.walkforwardTrades = row.walkforwardTrades
  meanTotal : NotHigher row.walkforwardMeanTotalReturn row'.walkforwardMeanTotalReturn
  holdout : Option.Rel Trails row.holdout row'.holdout

theorem evaluateSeries_alike {holdoutFraction : ℚ}
    {walkforward walkforward' : List Candle → Except ResearchError WalkForwardReport}
    {hold hold' : List Candle → List Candle → Except ResearchError BacktestMetrics}
    (hwalk : ∀ research, Alike WalkTrails (walkforward research) (walkforward' research))
    (hhold : ∀ research tail, Alike Trails (hold research tail) (hold' research tail))
    (candles : List Candle) :
    Alike SeriesTrails (evaluateSeries holdoutFraction walkforward hold candles)
      (evaluateSeries holdoutFraction walkforward' hold' candles) := by
  unfold evaluateSeries
  split
  · exact .returned ⟨rfl, rfl, rfl, .none, .none⟩
  · rename_i research tail _
    have hw := (hwalk research).catchValueError
    have hh := (hhold research tail).catchValueError
    generalize catchValueError (walkforward research) = w at hw
    generalize catchValueError (walkforward' research) = w' at hw
    generalize catchValueError (hold research tail) = d at hh
    generalize catchValueError (hold' research tail) = d' at hh
    cases hw with
    | raised e => exact .raised e
    | returned hwalked =>
      cases hh with
      | raised e => exact .raised e
      | returned hheld =>
        refine .returned ⟨rfl, rfl, ?_, ?_, hheld.toOption⟩
        · cases hwalked with
          | raised e => rfl
          | returned hreport => exact hreport.trades
        · cases hwalked with
          | raised e => exact .none
          | returned hreport => exact .some hreport.meanTotalReturn

/-! ## Rows -/

/-- A row scored the same, at no more. -/
structure RowTrails (row row' : CandidateSearchResult) : Prop where
  candidateId : row'.candidateId = row.candidateId
  perSeries : List.Forall₂ SeriesTrails row.perSeries row'.perSeries
  trades : row'.totalWfTrades = row.totalWfTrades
  meanTotal : NotHigher row.meanWfTotalReturn row'.meanWfTotalReturn
  meanHoldoutExcess : NotHigher row.meanHoldoutExcessReturn row'.meanHoldoutExcessReturn

theorem rowTrails_ofSeries (candidateId : String)
    {perSeries perSeries' : List AssetCandidateMetrics} (h : List.Forall₂ SeriesTrails perSeries perSeries') {p : AssetCandidateMetrics → Bool}
    (hp : ∀ row row', SeriesTrails row row' → p row = p row') :
    RowTrails (.ofSeries candidateId perSeries (perSeries.filter p))
      (.ofSeries candidateId perSeries' (perSeries'.filter p)) := by
  have hgated : List.Forall₂ SeriesTrails (perSeries.filter p) (perSeries'.filter p) :=
    List.rel_filter (fun row row' hrow => by
      show p row = true ↔ p row' = true
      rw [hp row row' hrow]) h
  refine ⟨rfl, h, ?_, ?_, ?_⟩
  · exact congrArg List.sum (map_eq_of_rel (hgated.imp fun _ _ hrow => hrow.trades))
  · exact notHigher_meanOption (List.rel_filterMap (fun _ _ hrow => hrow.meanTotal) hgated)
  · refine notHigher_meanOption (List.rel_filterMap (fun row row' hrow => ?_) hgated)
    have hholdout := hrow.holdout
    show Option.Rel _ (row.holdout.map _) (row'.holdout.map _)
    generalize row.holdout = m at hholdout
    generalize row'.holdout = m' at hholdout
    cases hholdout with
    | none => exact .none
    | some hm => exact .some hm.excessReturn

/-- Ranking changes nothing of that. -/
theorem rowTrails_rankRows {key : CandidateSearchResult → WithBot ℚ}
    {rows rows' : List CandidateSearchResult} (h : List.Forall₂ RowTrails rows rows') :
    List.Forall₂ RowTrails (rankRows key rows).candidates (rankRows key rows').candidates := by
  show List.Forall₂ _ (rows.zipIdx.map _) (rows'.zipIdx.map _)
  rw [List.forall₂_map_left_iff, List.forall₂_map_right_iff]
  refine (forall₂_zipIdx h 0).imp fun x y hxy => ?_
  obtain ⟨⟨hid, hseries, htrades, htotal, hexcess⟩, -⟩ := hxy
  exact ⟨hid, hseries, htrades, htotal, hexcess⟩

theorem find?_rel {α β : Type} {R : α → β → Prop} {p : α → Bool} {q : β → Bool} {xs : List α}
    {ys : List β} (h : List.Forall₂ R xs ys) (hpq : ∀ x y, R x y → p x = q y) :
    Option.Rel R (xs.find? p) (ys.find? q) := by
  induction h with
  | nil => exact .none
  | @cons x y xs ys hxy _ ih =>
    rw [List.find?_cons, List.find?_cons, hpq x y hxy]
    cases q y with
    | true => exact .some hxy
    | false => exact ih

namespace MilesSearch

/-- Whether a series is one of some assets, both runs agree on. -/
theorem isSeriesOf_congr {interval : String} {assets : List String}
    {row row' : AssetCandidateMetrics} (h : SeriesTrails row row') :
    isSeriesOf interval assets row = isSeriesOf interval assets row' := by
  unfold isSeriesOf
  rw [h.asset, h.interval]

theorem seriesForAsset_rel {row row' : CandidateSearchResult} (h : RowTrails row row')
    (asset interval : String) :
    Option.Rel SeriesTrails (seriesForAsset row.perSeries asset interval)
      (seriesForAsset row'.perSeries asset interval) :=
  find?_rel h.perSeries fun _ _ => isSeriesOf_congr

theorem notHigher_wfTotal {row row' : CandidateSearchResult} (h : RowTrails row row')
    (asset interval : String) :
    NotHigher (wfTotal row asset interval) (wfTotal row' asset interval) := by
  have hseries := seriesForAsset_rel h asset interval
  unfold wfTotal
  generalize seriesForAsset row.perSeries asset interval = s at hseries
  generalize seriesForAsset row'.perSeries asset interval = s' at hseries
  cases hseries with
  | none => exact .none
  | some hs => exact hs.meanTotal

theorem notHigher_holdoutExcess {row row' : CandidateSearchResult} (h : RowTrails row row')
    (asset interval : String) :
    NotHigher (holdoutExcess row asset interval) (holdoutExcess row' asset interval) := by
  have hseries := seriesForAsset_rel h asset interval
  unfold holdoutExcess
  generalize seriesForAsset row.perSeries asset interval = s at hseries
  generalize seriesForAsset row'.perSeries asset interval = s' at hseries
  cases hseries with
  | none => exact .none
  | @some a b hs =>
    have hholdout := hs.holdout
    rw [Option.bind_some, Option.bind_some]
    generalize a.holdout = m at hholdout
    generalize b.holdout = m' at hholdout
    cases hholdout with
    | none => exact .none
    | some hm => exact .some hm.excessReturn

/-- The same check, of a value that is no higher. -/
structure ReadsNoHigher (reading reading' : Reading) : Prop where
  missing : reading'.missing = reading.missing
  notPositive : reading'.notPositive = reading.notPositive
  value : NotHigher reading.value reading'.value

/-- **What gate C reads** of a stressed row is never higher. -/
theorem feeStressReadings_rel {row row' : CandidateSearchResult} (h : RowTrails row row')
    (interval : String) :
    List.Forall₂ ReadsNoHigher (feeStressReadings row interval)
      (feeStressReadings row' interval) := by
  refine .cons ⟨rfl, rfl, h.meanTotal⟩ (.cons ⟨rfl, rfl, h.meanHoldoutExcess⟩ ?_)
  refine .cons ⟨rfl, rfl, notHigher_wfTotal h _ _⟩ (.cons ⟨rfl, rfl, notHigher_wfTotal h _ _⟩ ?_)
  exact .cons ⟨rfl, rfl, notHigher_holdoutExcess h _ _⟩
    (.cons ⟨rfl, rfl, notHigher_holdoutExcess h _ _⟩ .nil)

/-- So a row that passes gate C at the stress would have passed it without. -/
theorem gateC_antitone {row row' : CandidateSearchResult} (h : RowTrails row row')
    (interval : String) (hpass : (evaluateFeeStressGate row' interval).1 = true) :
    (evaluateFeeStressGate row interval).1 = true := by
  unfold evaluateFeeStressGate at hpass ⊢
  have hreadings := feeStressReadings_rel h interval
  rw [List.isEmpty_iff, List.flatMap_eq_nil_iff] at hpass ⊢
  generalize feeStressReadings row interval = readings at hreadings
  generalize feeStressReadings row' interval = readings' at hreadings hpass
  induction hreadings with
  | nil => exact fun _ hreading => absurd hreading List.not_mem_nil
  | @cons a b as bs hab _ ih =>
    intro reading hreading
    rcases List.mem_cons.mp hreading with rfl | hrest
    · have hclears := hpass b List.mem_cons_self
      rw [floorReasons_eq_nil] at hclears ⊢
      have hvalue := hab.value
      generalize reading.value = x at hvalue
      generalize b.value = y at hvalue hclears
      cases hvalue with
      | none => exact hclears
      | some hle =>
        have hlt := of_decide_eq_true hclears
        exact decide_eq_true (hlt.trans_le hle)
    · exact ih (fun x hx => hpass x (List.mem_cons_of_mem b hx)) reading hrest

end MilesSearch

/-! ## The searches -/

section

variable {fee₁ slippage₁ fee₂ slippage₂ : ℚ}

/-- **A backtest** at the higher cost. -/
theorem simulatePositions_alike (hnonneg : 0 ≤ fee₁ + slippage₁)
    (hle : fee₁ + slippage₁ ≤ fee₂ + slippage₂) (hlt : fee₂ + slippage₂ < 10000)
    (args : SimulationArgs) (candles : List Candle) (decide : PositionDecision) :
    Alike Trails (simulatePositions (args.charging fee₁ slippage₁) candles decide)
      (simulatePositions (args.charging fee₂ slippage₂) candles decide) := by
  cases h : simulatePositions (args.charging fee₁ slippage₁) candles decide with
  | error e =>
    have hcharges₁ : SimulationState.Charges (args.charging fee₁ slippage₁).costBps :=
      fun _ _ => ⟨hnonneg, hle.trans_lt hlt⟩
    have hcharges₂ : SimulationState.Charges (args.charging fee₂ slippage₂).costBps :=
      fun _ _ => ⟨hnonneg.trans hle, hlt⟩
    rw [simulatePositions_error hcharges₁ hcharges₂ rfl h]
    exact .raised e
  | ok m =>
    obtain ⟨m', h', hno⟩ := noBetter_of_costs hle hlt h
    rw [h']
    exact .returned ⟨hno.count, hno.totalReturn, hno.excessReturn⟩

theorem trails_stripped {m m' : BacktestMetrics} (h : Trails m m') :
    Trails m.stripped m'.stripped := ⟨h.trades, h.totalReturn, h.excessReturn⟩

namespace MilesSearch.SearchArgs

variable (args : SearchArgs)

theorem runBacktest_alike (hnonneg : 0 ≤ fee₁ + slippage₁)
    (hle : fee₁ + slippage₁ ≤ fee₂ + slippage₂) (hlt : fee₂ + slippage₂ < 10000)
    (candidate : SearchCandidate) (candles : List Candle) (warmup : ℕ) :
    Alike Trails (args.runBacktest fee₁ slippage₁ candidate candles warmup)
      (args.runBacktest fee₂ slippage₂ candidate candles warmup) := by
  -- the arguments differ in the costs only
  have hsimulate := simulatePositions_alike hnonneg hle hlt
    (args.simulationArgs candidate 0 0 warmup) candles
  unfold runBacktest
  by_cases hgarch : candidate.garchSizing = true
  · rw [if_pos hgarch, if_pos hgarch]
    cases args.forecastSeries 120 21 (50 / 100) candles with
    | error e => exact .raised e
    | ok series => exact hsimulate _
  · rw [if_neg hgarch, if_neg hgarch]
    exact hsimulate _

/-- **A candidate on a series.** -/
theorem evaluateCandidateOnSeries_alike (hnonneg : 0 ≤ fee₁ + slippage₁)
    (hle : fee₁ + slippage₁ ≤ fee₂ + slippage₂) (hlt : fee₂ + slippage₂ < 10000)
    (candidate : SearchCandidate) (candles : List Candle) :
    Alike SeriesTrails (args.evaluateCandidateOnSeries fee₁ slippage₁ candidate candles)
      (args.evaluateCandidateOnSeries fee₂ slippage₂ candidate candles) := by
  refine evaluateSeries_alike (fun research => ?_) (fun research holdout => ?_) candles
  · unfold walkforwardWithTrainWarmup
    by_cases hstep : args.stepSize = 0
    · rw [if_pos hstep, if_pos hstep]
      exact .raised _
    · rw [if_neg hstep, if_neg hstep]
      exact walkForward_alike fun start =>
        (args.runBacktest_alike hnonneg hle hlt candidate _ _).map fun _ _ => trails_stripped
  · exact (args.runBacktest_alike hnonneg hle hlt candidate _ _).map fun _ _ => trails_stripped

/-- **A row.** -/
theorem dailyRow_alike (hnonneg : 0 ≤ fee₁ + slippage₁)
    (hle : fee₁ + slippage₁ ≤ fee₂ + slippage₂) (hlt : fee₂ + slippage₂ < 10000)
    (histories : List (String × List Candle)) (candidate : SearchCandidate) :
    Alike RowTrails (args.dailyRow fee₁ slippage₁ histories candidate)
      (args.dailyRow fee₂ slippage₂ histories candidate) := by
  have hseries := Alike.collect histories fun h _ =>
    args.evaluateCandidateOnSeries_alike hnonneg hle hlt candidate h.2
  unfold dailyRow
  generalize collect _ _ = rows at hseries
  generalize collect _ _ = rows' at hseries
  cases hseries with
  | raised e => exact .raised e
  | returned hrel =>
    have hrow := rowTrails_ofSeries candidate.candidateId hrel
      (p := isPromotionSeries args.promotionInterval) fun _ _ => isSeriesOf_congr
    exact .returned ⟨hrow.candidateId, hrow.perSeries, hrow.trades, hrow.meanTotal,
      hrow.meanHoldoutExcess⟩

/-- **A search**: its rows, in the order of the catalog. -/
theorem runDailyRobustness_alike (hnonneg : 0 ≤ fee₁ + slippage₁)
    (hle : fee₁ + slippage₁ ≤ fee₂ + slippage₂) (hlt : fee₂ + slippage₂ < 10000)
    (catalog : List SearchCandidate) (histories : List (String × List Candle)) :
    Alike (fun r r' : SearchReport => List.Forall₂ RowTrails r.candidates r'.candidates)
      (args.runDailyRobustness fee₁ slippage₁ catalog histories)
      (args.runDailyRobustness fee₂ slippage₂ catalog histories) := by
  unfold runDailyRobustness
  by_cases hempty : histories = []
  · rw [if_pos hempty, if_pos hempty]
    exact .raised _
  · rw [if_neg hempty, if_neg hempty]
    have hrows := Alike.collect catalog fun candidate _ =>
      args.dailyRow_alike hnonneg hle hlt histories candidate
    generalize collect _ _ = rows at hrows
    generalize collect _ _ = rows' at hrows
    cases hrows with
    | raised e => exact .raised e
    | returned hrel => exact .returned (rowTrails_rankRows hrel)

end MilesSearch.SearchArgs

end

namespace MilesSearch

/-- The stressed row is no higher than the baseline row of its candidate: the first of
that id, and so the row itself where the ids of the catalog differ. -/
structure NeverHigher (rows : List StressedRow) (row : StressedRow) (base stress :
    CandidateSearchResult) : Prop where
  read : row.stress = some stress
  baseline : (rows.map StressedRow.base).find? (fun b => b.candidateId = row.base.candidateId)
    = some base
  own : ((rows.map StressedRow.base).map CandidateSearchResult.candidateId).Nodup →
    base = row.base
  readings : ∀ interval, List.Forall₂ ReadsNoHigher (feeStressReadings base interval)
    (feeStressReadings stress interval)
  gateC : ∀ interval, (row.gateC interval).1 = true →
    (evaluateFeeStressGate base interval).1 = true

/-- Of rows with different ids, the first with an id is the only one. -/
theorem eq_of_find?_id {rows : List CandidateSearchResult}
    (hnodup : (rows.map CandidateSearchResult.candidateId).Nodup)
    {row found : CandidateSearchResult} (hrow : row ∈ rows) (h : rows.find? (fun b => b.candidateId = row.candidateId) = some found) :
    found = row := by
  have hid : found.candidateId = row.candidateId := by simpa using List.find?_some h
  exact List.inj_on_of_nodup_map hnodup (List.mem_of_find?_eq_some h) hrow hid

/-- **The fee stress**: where the baseline search returns, so does the stressed one, and
no row gate C reads is higher than the baseline row of its candidate. -/
theorem stress_antitone (args : SearchArgs) {feeBps slippageBps : ℚ}
    (hnonneg : 0 ≤ feeBps + slippageBps)
    (hlt : (feeBps + slippageBps) * feeStressMultiplier < 10000) (catalog : List SearchCandidate)
    (histories : List (String × List Candle)) {baseline : SearchReport}
    (hbase : args.runDailyRobustness feeBps slippageBps catalog histories = .ok baseline) :
    ∃ rows, args.feeStress feeBps slippageBps catalog histories = .ok rows ∧
      rows.map StressedRow.base = baseline.candidates ∧
      ∀ row ∈ rows, ∃ base stress, NeverHigher rows row base stress := by
  have hdouble : feeBps * feeStressMultiplier + slippageBps * feeStressMultiplier
      = (feeBps + slippageBps) * feeStressMultiplier := (add_mul _ _ _).symm
  have hle : feeBps + slippageBps
      ≤ feeBps * feeStressMultiplier + slippageBps * feeStressMultiplier := by
    unfold feeStressMultiplier
    linarith
  have hboth := args.runDailyRobustness_alike hnonneg hle (hdouble ▸ hlt) catalog histories
  unfold SearchArgs.feeStress
  rw [hbase] at hboth ⊢
  generalize hstress : args.runDailyRobustness (feeBps * feeStressMultiplier)
    (slippageBps * feeStressMultiplier) catalog histories = r at hboth
  cases hboth with
  | @returned _ stressed hrel =>
    have hbases : (baseline.candidates.map fun base =>
        (⟨base, rowById stressed base.candidateId⟩ : StressedRow)).map StressedRow.base
        = baseline.candidates := by
      rw [List.map_map]
      exact List.map_id _
    refine ⟨_, rfl, hbases, fun row hrow => ?_⟩
    obtain ⟨own, hown, rfl⟩ := List.mem_map.mp hrow
    have hfound := find?_rel (p := fun b => decide (b.candidateId = own.candidateId))
      (q := fun b => decide (b.candidateId = own.candidateId)) hrel fun x y hxy => by
        rw [hxy.candidateId]
    -- the first baseline row of the id, and the first stressed one
    cases hb : baseline.candidates.find? (fun b => b.candidateId = own.candidateId) with
    | none =>
      have hnone := List.find?_eq_none.mp hb own hown
      exact absurd (decide_eq_true rfl) hnone
    | some base =>
      rw [hb] at hfound
      generalize hs : stressed.candidates.find? _ = found at hfound
      cases hfound with
      | @some _ stress htrails =>
        refine ⟨base, stress, hs, ?_, fun hnodup => ?_, feeStressReadings_rel htrails, ?_⟩
        · rw [hbases]
          exact hb
        · rw [hbases] at hnodup
          exact eq_of_find?_id hnodup hown hb
        · intro interval hpass
          have hread : rowById stressed own.candidateId = some stress := hs
          unfold StressedRow.gateC at hpass
          dsimp only at hpass
          rw [hread] at hpass
          exact gateC_antitone htrails interval hpass

end MilesSearch

/-- **Backtest results are antitone in costs.** Of two flat costs, both under 100 % a
fill, the backtest at the higher one makes the same entries and exits, ends with no
more, and falls at least as far; both return where the costs are no gain and every
decision comes. So no row that gate C reads at the doubled costs is higher than the
baseline row of its candidate. -/
theorem costs_antitone (args : SimulationArgs) (candles : List Candle)
    (decide : PositionDecision) (hwarmup : args.warmup < candles.length)
    (fee₁ slippage₁ fee₂ slippage₂ : ℚ) (hle : fee₁ + slippage₁ ≤ fee₂ + slippage₂)
    (hlt : fee₂ + slippage₂ < 10000) :
    (∀ m₁, simulatePositions (args.charging fee₁ slippage₁) candles decide = .ok m₁ →
      ∃ m₂, simulatePositions (args.charging fee₂ slippage₂) candles decide = .ok m₂ ∧
        NoBetter m₁ m₂) ∧
    (0 ≤ fee₁ + slippage₁ → HasInterval candles →
      Decides (args.charging fee₁ slippage₁) candles decide →
      ∃ m₁, simulatePositions (args.charging fee₁ slippage₁) candles decide = .ok m₁) ∧
    ∀ (search : MilesSearch.SearchArgs) (catalog : List MilesSearch.SearchCandidate)
      (histories : List (String × List Candle)) (baseline : SearchReport),
      0 ≤ fee₁ + slippage₁ → (fee₁ + slippage₁) * MilesSearch.feeStressMultiplier < 10000 →
      search.runDailyRobustness fee₁ slippage₁ catalog histories = .ok baseline →
      ∃ rows, search.feeStress fee₁ slippage₁ catalog histories = .ok rows ∧
        rows.map MilesSearch.StressedRow.base = baseline.candidates ∧
        ∀ row ∈ rows, ∃ base stress, MilesSearch.NeverHigher rows row base stress := by
  refine ⟨fun m₁ h => noBetter_of_costs hle hlt h, fun hnonneg hinterval hdecides => ?_,
    fun search catalog histories baseline hnonneg hdouble hbase =>
      MilesSearch.stress_antitone search hnonneg hdouble catalog histories hbase⟩
  exact simulatePositions_returns (fun _ _ => ⟨hnonneg, hle.trans_lt hlt⟩) hwarmup hinterval
    hdecides

/-! ### Four folds and a holdout, at twice the costs -/

namespace Stressed

open Confirmed

/-- Always long. -/
def candidate : MilesSearch.SearchCandidate where
  candidateId := "long"
  strategy := fun _ regime => .ok ⟨"long", "BTC/USD", some .buy, 1, 1, regime, ""⟩
  garchSizing := false
  weightFromScore := false

def search : MilesSearch.SearchArgs where
  classifier := fun _ => .ok .range
  forecastSeries := fun _ _ _ _ => .ok []
  startingEquity := 10000
  trainSize := 2
  testSize := 2
  stepSize := 2
  holdoutFraction := 1 / 5
  minTrades := 3
  requireBalancedHoldout := true
  promotionInterval := "1d"
  starting_pos := capital_pos

end Stressed

theorem costs_antitone_stressed :
    (∃ m₁ m₂, simulatePositions ((Underwater.args 10).charging 10 5) Underwater.candles
        Underwater.long = .ok m₁ ∧
      simulatePositions ((Underwater.args 10).charging 20 10) Underwater.candles
        Underwater.long = .ok m₂ ∧ NoBetter m₁ m₂) ∧
    ∃ rows, Stressed.search.feeStress 10 5 [Stressed.candidate] Confirmed.confirming = .ok rows ∧
      rows ≠ [] ∧ ∀ row ∈ rows, ∃ base stress, MilesSearch.NeverHigher rows row base stress := by
  obtain ⟨hbetter, hreturns, hstress⟩ := costs_antitone (Underwater.args 10) Underwater.candles
    Underwater.long (by decide) 10 5 20 10 (by norm_num) (by norm_num)
  obtain ⟨m₁, hm₁⟩ := hreturns (by norm_num) ⟨_, rfl, _, rfl⟩ fun k _ _ => ⟨_, rfl⟩
  obtain ⟨m₂, hm₂, hno⟩ := hbetter m₁ hm₁
  have hsearch : (Stressed.search.runDailyRobustness 10 5 [Stressed.candidate]
      Confirmed.confirming).toOption.map (fun r => r.candidates.length) = some 1 := by
    decide +kernel
  cases hbase : Stressed.search.runDailyRobustness 10 5 [Stressed.candidate]
      Confirmed.confirming with
  | error e =>
    rw [hbase] at hsearch
    cases hsearch
  | ok baseline =>
    rw [hbase] at hsearch
    obtain ⟨rows, hrows, hbases, hnever⟩ := hstress Stressed.search _ _ baseline (by norm_num)
      (by norm_num [MilesSearch.feeStressMultiplier]) hbase
    refine ⟨⟨m₁, m₂, hm₁, hm₂, hno⟩, rows, hrows, ?_, hnever⟩
    have hone : baseline.candidates.length = 1 := Option.some.inj hsearch
    rintro rfl
    rw [← hbases] at hone
    cases hone

end TraderStack
