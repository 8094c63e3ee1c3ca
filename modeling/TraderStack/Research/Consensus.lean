import TraderStack.Research.Ensemble

/-!
# The consensus as a vote (strategies.py)

The consensus takes the side of the majority, with the averages over the signals of that side.
Where a paper baseline is wired and one agreeing signal is enough, the first signal with the
baseline's id decides the side alone if it takes one.

- `verdict_combineSignals`: side, score and confidence in terms of who supports a side;
- `combineSignals_perm`: the order of the signals does not matter to them;
- `combineSignals_mirrored`: exchanging the sides exchanges the result's side;
- `consensus_symmetric_majority`: **the laws of the consensus**, with and without a baseline.
-/

namespace TraderStack

/-! ## Who supports a side -/

/-- The other side. -/
def Side.opposite : Side → Side
  | .buy => .sell
  | .sell => .buy

@[simp] theorem Side.opposite_opposite (side : Side) : side.opposite.opposite = side := by
  cases side <;> rfl

/-- The signals that take a side. -/
def supporters (side : Side) (signals : List StrategySignal) : List StrategySignal :=
  signals.filter fun signal => signal.side = some side

/-- The side that more signals take, if one is. -/
def majority (signals : List StrategySignal) : Option Side :=
  if (supporters .buy signals).length = (supporters .sell signals).length then none
  else if (supporters .sell signals).length < (supporters .buy signals).length then some .buy
  else some .sell

/-- The score and the confidence of some signals together. -/
def averages (chosen : List StrategySignal) : ℚ × ℚ :=
  (max (-1) (min 1 ((chosen.map StrategySignal.score).sum / chosen.length)),
    (chosen.map StrategySignal.confidence).sum / chosen.length)

/-- What the laws of the consensus speak of. -/
def verdict (r : Except ResearchError (Option StrategySignal)) :
    Except ResearchError (Option (Option Side × ℚ × ℚ)) :=
  r.map (Option.map fun signal => (signal.side, signal.score, signal.confidence))

variable {signals signals' : List StrategySignal}

theorem side_of_mem_supporters {side : Side} {signal : StrategySignal}
    (h : signal ∈ supporters side signals) : signal.side = some side :=
  of_decide_eq_true (List.mem_filter.mp h).2

/-- The majority is the side with more supporters. -/
theorem majority_eq_some_iff {side : Side} : majority signals = some side ↔
    (supporters side.opposite signals).length < (supporters side signals).length := by
  unfold majority
  cases side <;> simp only [Side.opposite] <;> split_ifs <;> simp_all <;> omega

/-- The combination of some signals, of which the first is given. -/
def combined (strategyId : String) (chosen : List StrategySignal) (first : StrategySignal) :
    StrategySignal where
  strategyId := strategyId
  symbol := first.symbol
  side := first.side
  score := (averages chosen).1
  confidence := (averages chosen).2
  regime := first.regime
  rationale := "; ".intercalate (chosen.map StrategySignal.rationale)

/-- A combination is one of the majority's supporters, if there are enough. -/
theorem combineSignals_eq (strategyId : String) (minAgreeing : ℕ) :
    combineSignals signals strategyId minAgreeing =
      if minAgreeing < 1 then .error (.decision "min_agreeing must be >= 1")
      else
        .ok ((majority signals).bind fun side =>
          if (supporters side signals).length < minAgreeing then none
          else (supporters side signals).head?.map
            (combined strategyId (supporters side signals))) := by
  unfold combineSignals majority
  by_cases hmin : minAgreeing < 1
  · rw [if_pos hmin, if_pos hmin]
  · rw [if_neg hmin, if_neg hmin]
    dsimp only
    rw [← supporters, ← supporters]
    by_cases htie : (supporters .buy signals).length = (supporters .sell signals).length
    · rw [if_pos htie, if_pos htie]
      rfl
    · rw [if_neg htie, if_neg htie]
      by_cases hbuy : (supporters .sell signals).length < (supporters .buy signals).length
      · rw [if_pos hbuy, if_pos hbuy, Option.bind_some, apply_ite Except.ok]
        rfl
      · rw [if_neg hbuy, if_neg hbuy, Option.bind_some, apply_ite Except.ok]
        rfl

/-- Side, score and confidence of a combination. -/
theorem verdict_combineSignals (strategyId : String) (minAgreeing : ℕ) :
    verdict (combineSignals signals strategyId minAgreeing) =
      if minAgreeing < 1 then .error (.decision "min_agreeing must be >= 1")
      else
        .ok ((majority signals).bind fun side =>
          if (supporters side signals).length < minAgreeing then none
          else some (some side, averages (supporters side signals))) := by
  rw [combineSignals_eq]
  by_cases hmin : minAgreeing < 1
  · rw [if_pos hmin, if_pos hmin]
    rfl
  · rw [if_neg hmin, if_neg hmin]
    refine congrArg Except.ok ?_
    cases majority signals with
    | none => rfl
    | some side =>
      rw [Option.bind_some, Option.bind_some]
      by_cases hcount : (supporters side signals).length < minAgreeing
      · rw [if_pos hcount, if_pos hcount]
        rfl
      · rw [if_neg hcount, if_neg hcount]
        cases hside : supporters side signals with
        | nil =>
          rw [hside, List.length_nil] at hcount
          omega
        | cons first rest =>
          have hfirst : first.side = some side :=
            side_of_mem_supporters (hside ▸ List.mem_cons_self)
          show some (first.side, _, _) = some (some side, _)
          rw [hfirst]
          rfl

/-! ## The order of the signals -/

theorem supporters_perm (h : signals.Perm signals') (side : Side) :
    (supporters side signals).Perm (supporters side signals') :=
  h.filter _

theorem majority_perm (h : signals.Perm signals') : majority signals = majority signals' := by
  rw [majority, majority, (supporters_perm h .buy).length_eq, (supporters_perm h .sell).length_eq]

theorem averages_perm (h : signals.Perm signals') : averages signals = averages signals' := by
  rw [averages, averages, h.length_eq, (h.map StrategySignal.score).sum_eq,
    (h.map StrategySignal.confidence).sum_eq]

/-- **The order of the signals** does not matter to side, score and confidence. -/
theorem combineSignals_perm (h : signals.Perm signals') (strategyId : String) (minAgreeing : ℕ) :
    verdict (combineSignals signals strategyId minAgreeing) =
      verdict (combineSignals signals' strategyId minAgreeing) := by
  rw [verdict_combineSignals, verdict_combineSignals, majority_perm h]
  congr 2
  refine Option.bind_congr fun side _ => ?_
  rw [(supporters_perm h side).length_eq, averages_perm (supporters_perm h side)]

/-! ## The sides exchanged -/

/-- The signal of the other side. -/
def StrategySignal.mirrored (signal : StrategySignal) : StrategySignal :=
  { signal with side := signal.side.map Side.opposite, score := -signal.score }

theorem map_opposite_eq_iff {taken : Option Side} {side : Side} :
    taken.map Side.opposite = some side ↔ taken = some side.opposite := by
  cases taken with
  | none => simp
  | some taken => cases taken <;> cases side <;> simp [Side.opposite]

theorem supporters_mirrored (side : Side) :
    supporters side (signals.map StrategySignal.mirrored) =
      (supporters side.opposite signals).map StrategySignal.mirrored := by
  rw [supporters, supporters, List.filter_map]
  congr 1
  refine List.filter_congr fun signal _ => ?_
  exact decide_eq_decide.mpr map_opposite_eq_iff

theorem majority_mirrored : majority (signals.map StrategySignal.mirrored) =
    (majority signals).map Side.opposite := by
  refine Option.ext fun side => ?_
  rw [majority_eq_some_iff, supporters_mirrored, supporters_mirrored, List.length_map,
    List.length_map, ← majority_eq_some_iff, Option.map_eq_some_iff]
  constructor
  · intro h
    exact ⟨side.opposite, h, side.opposite_opposite⟩
  · rintro ⟨side', h, rfl⟩
    rwa [Side.opposite_opposite]

theorem clamp_neg (x : ℚ) : max (-1) (min 1 (-x)) = -max (-1) (min 1 x) := by
  simp only [max_def, min_def]
  split_ifs <;> linarith

theorem averages_mirrored (chosen : List StrategySignal) :
    averages (chosen.map StrategySignal.mirrored) =
      (-(averages chosen).1, (averages chosen).2) := by
  have hscore : ((chosen.map StrategySignal.mirrored).map StrategySignal.score).sum =
      -(chosen.map StrategySignal.score).sum := by
    induction chosen with
    | nil => simp
    | cons signal rest ih =>
      simp only [List.map_cons, List.sum_cons, ih, StrategySignal.mirrored]
      ring
  have hconfidence : (chosen.map StrategySignal.mirrored).map StrategySignal.confidence =
      chosen.map StrategySignal.confidence := by
    rw [List.map_map]
    rfl
  rw [averages, averages, hscore, hconfidence, List.length_map, neg_div, clamp_neg]

/-- **Exchanging the sides** exchanges the side of the result and negates its score. -/
theorem combineSignals_mirrored (strategyId : String) (minAgreeing : ℕ) :
    combineSignals (signals.map StrategySignal.mirrored) strategyId minAgreeing =
      (combineSignals signals strategyId minAgreeing).map (Option.map StrategySignal.mirrored) := by
  rw [combineSignals_eq, combineSignals_eq, majority_mirrored]
  by_cases hmin : minAgreeing < 1
  · rw [if_pos hmin, if_pos hmin]
    rfl
  · rw [if_neg hmin, if_neg hmin]
    refine congrArg Except.ok ?_
    cases majority signals with
    | none => rfl
    | some side =>
      rw [Option.map_some, Option.bind_some, Option.bind_some, supporters_mirrored,
        Side.opposite_opposite, List.length_map]
      by_cases hcount : (supporters side signals).length < minAgreeing
      · rw [if_pos hcount, if_pos hcount]
        rfl
      · rw [if_neg hcount, if_neg hcount, List.head?_map, Option.map_map, Option.map_map]
        refine congrArg (Option.map · _) (funext fun first => ?_)
        rw [Function.comp_apply, Function.comp_apply, combined, combined, averages_mirrored]
        simp only [StrategySignal.mirrored, List.map_map]
        rfl

/-! ## The consensus -/

namespace StrategyEnsemble

/-- The side of the first signal with the baseline's id, where a paper baseline is wired and one
agreeing signal is enough. -/
def baselineSide (e : StrategyEnsemble) (signals : List StrategySignal) : Option Side :=
  if e.minAgreeing = 1 then
    (e.paperResearchStrategy.bind fun voter =>
      signals.find? fun signal => signal.strategyId = voter.strategyId).bind StrategySignal.side
  else none

theorem consensus_eq (e : StrategyEnsemble) (signals : List StrategySignal) :
    e.consensus signals =
      match e.baselineSide signals with
      | some side => combineSignals (supporters side signals) "baseline_ensemble_v1" 1
      | none => combineSignals signals "baseline_ensemble_v1" e.minAgreeing :=
  rfl

theorem baselineSide_mirrored (e : StrategyEnsemble) (signals : List StrategySignal) :
    e.baselineSide (signals.map StrategySignal.mirrored) =
      (e.baselineSide signals).map Side.opposite := by
  unfold baselineSide
  split_ifs
  · cases e.paperResearchStrategy with
    | none => rfl
    | some voter =>
      simp only [Option.bind_some, List.find?_map]
      have hid : ((fun signal : StrategySignal => decide (signal.strategyId = voter.strategyId)) ∘
          StrategySignal.mirrored) =
          fun signal => decide (signal.strategyId = voter.strategyId) := rfl
      rw [hid]
      cases signals.find? fun signal => decide (signal.strategyId = voter.strategyId) with
      | none => rfl
      | some baseline => rfl
  · rfl

/-- With equal sides on the baseline's id, every order has the same first one. -/
theorem baselineSide_perm (e : StrategyEnsemble) {signals signals' : List StrategySignal}
    (h : signals.Perm signals')
    (hsame : ∀ voter ∈ e.paperResearchStrategy, ∀ a ∈ signals, ∀ b ∈ signals,
      a.strategyId = voter.strategyId → b.strategyId = voter.strategyId → a.side = b.side) :
    e.baselineSide signals = e.baselineSide signals' := by
  unfold baselineSide
  split_ifs
  · cases hvoter : e.paperResearchStrategy with
    | none => rfl
    | some voter =>
      rw [Option.bind_some, Option.bind_some]
      cases hfirst : signals.find? fun signal => signal.strategyId = voter.strategyId with
      | none =>
        have hnone : (signals'.find? fun signal => signal.strategyId = voter.strategyId) = none :=
          List.find?_eq_none.mpr fun signal hmem =>
            List.find?_eq_none.mp hfirst signal (h.mem_iff.mpr hmem)
        rw [hnone]
      | some first =>
        have hid : first.strategyId = voter.strategyId := by simpa using List.find?_some hfirst
        have hmem := List.mem_of_find?_eq_some hfirst
        cases hfirst' : signals'.find? fun signal => signal.strategyId = voter.strategyId with
        | none =>
          exact absurd (decide_eq_true hid)
            (List.find?_eq_none.mp hfirst' first (h.mem_iff.mp hmem))
        | some first' =>
          have hid' : first'.strategyId = voter.strategyId := by
            simpa using List.find?_some hfirst'
          have hmem' := h.mem_iff.mpr (List.mem_of_find?_eq_some hfirst')
          exact hsame voter hvoter first hmem first' hmem' hid hid'
  · rfl

/-- The side of a combination is the majority's. -/
theorem side_of_combineSignals {signals : List StrategySignal} {strategyId : String}
    {minAgreeing : ℕ} {r : StrategySignal}
    (h : combineSignals signals strategyId minAgreeing = .ok (some r)) :
    ∃ side, r.side = some side ∧ majority signals = some side := by
  have hverdict : verdict (combineSignals signals strategyId minAgreeing) = _ :=
    verdict_combineSignals strategyId minAgreeing
  rw [h] at hverdict
  split_ifs at hverdict
  · cases hverdict
  · have hsome := (Except.ok.inj hverdict).symm
    obtain ⟨side, hmajority, hside⟩ := Option.bind_eq_some_iff.mp hsome
    split_ifs at hside
    exact ⟨side, (congrArg Prod.fst (Option.some.inj hside)).symm, hmajority⟩

end StrategyEnsemble

/-! ## A baseline that is outvoted, and one that votes twice -/

namespace Outvoted

def signal (strategyId : String) (side : Side) : StrategySignal where
  strategyId := strategyId
  symbol := "ETH/USD"
  side := some side
  score := StrategyEnsemble.sideWeight side
  confidence := 1
  regime := .range
  rationale := ""

/-- The ensemble of paper research without optional intelligence. -/
def ensemble : StrategyEnsemble where
  classifier := fun _ => .ok .range
  defaultVoters := []
  paperResearchStrategy := some ⟨"paper_research_baseline_v1", fun _ _ => .error .emptySplit⟩
  minAgreeing := 1
  extraVoters := []
  suppressDefaults := false

def baseline (side : Side) : StrategySignal := signal "paper_research_baseline_v1" side

/-- The baseline buys, two other voters sell. -/
def votes : List StrategySignal := [baseline .buy, signal "a" .sell, signal "b" .sell]

end Outvoted

open Outvoted in
/-- The baseline's side wins against two, and of two signals with its id the first one wins. -/
theorem baseline_overrides_majority :
    (verdict (ensemble.consensus votes) = .ok (some (some .buy, 1, 1)) ∧
      (supporters .buy votes).length < (supporters .sell votes).length) ∧
    verdict (ensemble.consensus [baseline .buy, baseline .sell]) = .ok (some (some .buy, 1, 1)) ∧
    verdict (ensemble.consensus [baseline .sell, baseline .buy]) =
      .ok (some (some .sell, -1, 1)) := by
  refine ⟨⟨?_, by decide⟩, ?_, ?_⟩ <;> exact congrArg Except.ok (by decide +kernel)

/-- **The laws of the consensus**: an order of the signals that leaves the baseline's side does not
change side, score and confidence; exchanging the sides exchanges the result's; and the result's
side is the baseline's own or has more supporters than opponents. -/
theorem consensus_symmetric_majority (e : StrategyEnsemble) (signals : List StrategySignal) :
    (∀ signals', signals.Perm signals' → e.baselineSide signals = e.baselineSide signals' →
      verdict (e.consensus signals) = verdict (e.consensus signals')) ∧
    e.consensus (signals.map StrategySignal.mirrored) =
      (e.consensus signals).map (Option.map StrategySignal.mirrored) ∧
    ∀ r, e.consensus signals = .ok (some r) → ∃ side, r.side = some side ∧
      (e.baselineSide signals = some side ∨
        (supporters side.opposite signals).length < (supporters side signals).length) := by
  refine ⟨fun signals' hperm hbaseline => ?_, ?_, fun r hr => ?_⟩
  · rw [e.consensus_eq, e.consensus_eq, ← hbaseline]
    cases e.baselineSide signals with
    | none => exact combineSignals_perm hperm _ _
    | some side => exact combineSignals_perm (supporters_perm hperm side) _ _
  · rw [e.consensus_eq, e.consensus_eq, e.baselineSide_mirrored]
    cases e.baselineSide signals with
    | none => exact combineSignals_mirrored _ _
    | some side =>
      rw [Option.map_some]
      dsimp only
      rw [supporters_mirrored, Side.opposite_opposite]
      exact combineSignals_mirrored _ _
  · rw [e.consensus_eq] at hr
    cases hbaseline : e.baselineSide signals with
    | none =>
      rw [hbaseline] at hr
      obtain ⟨side, hside, hmajority⟩ := StrategyEnsemble.side_of_combineSignals hr
      exact ⟨side, hside, Or.inr (majority_eq_some_iff.mp hmajority)⟩
    | some side =>
      rw [hbaseline] at hr
      obtain ⟨side', hside, hmajority⟩ := StrategyEnsemble.side_of_combineSignals hr
      -- all who were asked take the baseline's side
      have hsame : side' = side := by
        have hlt := majority_eq_some_iff.mp hmajority
        obtain ⟨first, hfirst⟩ := List.exists_mem_of_length_pos (Nat.zero_lt_of_lt hlt)
        have hmem := List.mem_of_mem_filter hfirst
        have htaken := side_of_mem_supporters hfirst
        rw [side_of_mem_supporters hmem] at htaken
        exact (Option.some.inj htaken).symm
      exact ⟨side', hside, Or.inl (congrArg some hsame.symm)⟩

open Outvoted in
/-- The two sellers can change places, and the baseline's side still wins. -/
theorem consensus_symmetric_outvoted :
    verdict (ensemble.consensus votes) =
      verdict (ensemble.consensus [baseline .buy, signal "b" .sell, signal "a" .sell]) :=
  (consensus_symmetric_majority ensemble votes).1 _ ((List.Perm.swap _ _ _).cons _) (by decide)

end TraderStack
