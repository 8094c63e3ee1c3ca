import TraderStack.Research.BacktestLedger

/-!
# What the drawdown of a backtest is of

A backtest changes its equity at its trades only, and looks at it once a bar. The
drawdown it reports is the greatest decline of what it looked at; what an open
position is worth at the bars it is held through is not part of it.

- `max_drawdown_realised`: the drawdown is that of the realised equity.
-/

namespace TraderStack

open Lib SimulationState

namespace SimulationState

section

variable {args : SimulationArgs} {candles : List Candle} {decide : PositionDecision}
  {s s' : SimulationState}

/-- A state no backtest returns from: the equity is gone, or a position was entered
with less than nothing. -/
def Doomed (s : SimulationState) : Prop :=
  s.equity ≤ 0 ∨ ∃ p, s.position = some p ∧ p.notional < 0

theorem doomed_traded {bar : ℕ} {next : Candle} {d : Decision} (h : Doomed s)
    (hequity : s.equity ≠ 0) (htraded : Traded args bar next d s s') : Doomed s' := by
  -- a position that can be closed was entered with something, so the equity is negative
  have hnegative : ∀ p, s.position = some p → 0 ≤ p.notional → s.equity < 0 := by
    intro p hsome hnotional
    rcases h with h | ⟨p', hsome', hp'⟩
    · exact lt_of_le_of_ne h hequity
    · cases hsome.symm.trans hsome'
      exact absurd hp' (not_lt.mpr hnotional)
  cases htraded with
  | kept => exact h
  | opened hnone hweight =>
    right
    rcases h with h | ⟨p, hsome, -⟩
    · exact ⟨_, rfl, lt_of_le_of_ne h hequity⟩
    · cases hnone.symm.trans hsome
  | closed p hsome hnotional hfees =>
    left
    exact (mul_neg_of_neg_of_pos (hnegative p hsome hnotional) (closeMultiplier_pos _ _ _)).le
  | flipped p hsome hnotional hfees hweight =>
    right
    exact ⟨_, rfl, mul_neg_of_neg_of_pos (hnegative p hsome hnotional) (closeMultiplier_pos _ _ _)⟩

theorem path_traded {bar : ℕ} {next : Candle} {d : Decision}
    (htraded : Traded args bar next d s s') : s'.path = s.path := by
  cases htraded <;> rfl

/-- Every equity of the path is positive, unless the backtest will not return. -/
def PathPositive (s : SimulationState) : Prop := (∀ x ∈ s.path, 0 < x) ∨ Doomed s

theorem pathPositive_observe (h : ∀ x ∈ s.path, 0 < x) : PathPositive s.observe := by
  by_cases hequity : 0 < s.equity
  · left
    intro x hx
    rcases List.mem_append.mp hx with hold | hnew
    · exact h x hold
    · rw [List.mem_singleton.mp hnew]
      exact hequity
  · exact .inr (.inl (not_lt.mp hequity))

theorem pathPositive_bars (rest : List Candle) :
    ∀ seen s, PathPositive s → simulateBars args decide seen rest s = .ok s' →
      PathPositive s' := by
  induction rest with
  | nil =>
    intro seen s h hrun
    rw [simulateBars] at hrun
    cases hrun
    exact h
  | cons next rest ih =>
    intro seen s h hrun
    rw [simulateBars] at hrun
    cases hbar : s.simulateBar args decide seen next with
    | error e =>
      rw [hbar] at hrun
      cases hrun
    | ok s₁ =>
      rw [hbar] at hrun
      refine ih (seen ++ [next]) s₁ ?_ hrun
      obtain ⟨d, s₂, -, htraded, hequity, rfl⟩ := simulateBar_ok hbar
      rcases h with h | h
      · rw [← path_traded htraded] at h
        exact pathPositive_observe h
      · have hdoomed : Doomed s₂ := doomed_traded h hequity htraded
        exact .inr hdoomed

/-- **A backtest that ends with some equity** always had some. -/
theorem path_pos_of_simulate {last : Candle} (hrun : simulate args candles last decide = .ok s)
    (hpos : 0 < s.equity) : ∀ x ∈ s.path, 0 < x := by
  unfold simulate at hrun
  cases hbars : simulateBars args decide (candles.take (args.warmup + 1))
      (candles.drop (args.warmup + 1)) (start args.startingEquity) with
  | error e =>
    rw [hbars] at hrun
    cases hrun
  | ok s₁ =>
    rw [hbars] at hrun
    have hpath : PathPositive s₁ :=
      pathPositive_bars _ _ _ (.inl fun _ hx => absurd hx List.not_mem_nil) hbars
    rcases finish_cases hrun with ⟨hnone, rfl⟩ | ⟨p, hnotional, hfees, hsome, rfl⟩
    · rcases hpath with h | h | ⟨p, hsome, -⟩
      · exact h
      · exact absurd hpos (not_lt.mpr h)
      · cases hnone.symm.trans hsome
    · have hequity : 0 < s₁.equity := by
        by_contra hle
        exact absurd hpos (not_lt.mpr
          (mul_nonpos_of_nonpos_of_nonneg (not_lt.mp hle) (closeMultiplier_pos _ _ _).le))
      have hbefore : ∀ x ∈ s₁.path, 0 < x := by
        rcases hpath with h | h | ⟨p', hsome', hp'⟩
        · exact h
        · exact absurd hequity (not_lt.mpr h)
        · cases hsome.symm.trans hsome'
          exact absurd hp' (not_lt.mpr hnotional)
      intro x hx
      rcases List.mem_append.mp hx with hold | hnew
      · exact hbefore x hold
      · rw [List.mem_singleton.mp hnew]
        exact hpos

theorem keeps_watermark (start : ℚ) :
    Keeps args candles fun _ s => s.watermark = Watermark.along start s.path where
  close := fun _ _ _ _ _ _ _ _ _ _ _ h => h
  enter := fun _ _ _ _ _ _ _ h => h
  observe := by
    intro _ s h
    show s.watermark.observe s.equity = Watermark.along start (s.path ++ [s.equity])
    rw [h, Watermark.along_concat]
  later := fun _ _ _ _ h => h

end

/-- The equity, with the open position marked at a price. -/
def markedEquity (s : SimulationState) (price : ℚ) : ℚ :=
  s.equity * (1 + s.position.elim 0 fun p => p.weight * (price / p.price - 1))

/-- The marked equity at the open of every bar, before and after its trades. -/
def markedPath (args : SimulationArgs) (decide : PositionDecision) :
    List Candle → List Candle → SimulationState → List ℚ
  | _, [], _ => []
  | seen, next :: rest, s =>
    s.markedEquity next.openPrice ::
      match s.simulateBar args decide seen next with
      | .error _ => []
      | .ok s' => s'.markedEquity next.openPrice :: markedPath args decide (seen ++ [next]) rest s'

end SimulationState

/-- The drawdown is at least any decline of the marked equity. -/
def CountsOpenLosses (args : SimulationArgs) (candles : List Candle) (decide : PositionDecision)
    (m : BacktestMetrics) : Prop :=
  ∀ d ∈ Watermark.declines (args.startingEquity :: markedPath args decide
    (candles.take (args.warmup + 1)) (candles.drop (args.warmup + 1))
    (SimulationState.start args.startingEquity)), d ≤ m.maxDrawdown

/-- **What the drawdown is of.** For every decision function and cost model, the
drawdown of a backtest that returns is the greatest decline of its realised equity:
at the start, after the trades of each bar, and after the close at the end. -/
theorem max_drawdown_realised (args : SimulationArgs) (candles : List Candle)
    (decide : PositionDecision) (m : BacktestMetrics)
    (h : simulatePositions args candles decide = .ok m) :
    ∃ s, ReportOf args candles decide m s ∧
      IsGreatest (Watermark.declines (args.startingEquity :: s.path)) m.maxDrawdown := by
  obtain ⟨s, hs⟩ := reportOf_ok h
  refine ⟨s, hs, ?_⟩
  obtain ⟨last, hlast, hrun, first, -, hreport⟩ := hs.run
  have hm := (reported_of_report hreport).1
  have hpos : 0 < s.equity := hm.endingEquity ▸ m.ending_pos
  have hwatermark := ((keeps_watermark args.startingEquity).simulate hs.warmup hlast rfl hrun).1
  rw [hm.maxDrawdown, hwatermark]
  refine Watermark.isGreatest_worst fun x hx => ?_
  rcases List.mem_cons.mp hx with rfl | hx
  · exact args.starting_pos
  · exact path_pos_of_simulate hrun hpos x hx

theorem max_drawdown_realised_underwater :
    ∃ m, simulatePositions (Underwater.args 10) Underwater.candles Underwater.long = .ok m ∧
      ∃ s, ReportOf (Underwater.args 10) Underwater.candles Underwater.long m s ∧
        IsGreatest (Watermark.declines (10000 :: s.path)) m.maxDrawdown := by
  have hreturns : (simulatePositions (Underwater.args 10) Underwater.candles
      Underwater.long).toOption.isSome = true := by decide +kernel
  cases hm : simulatePositions (Underwater.args 10) Underwater.candles Underwater.long with
  | error e =>
    rw [hm] at hreturns
    cases hreturns
  | ok m =>
    exact ⟨m, rfl, max_drawdown_realised (Underwater.args 10) Underwater.candles Underwater.long m
      hm⟩

/-- Half of it was gone while the position was held, and the drawdown is none. -/
theorem not_countsOpenLosses :
    ∃ m, simulatePositions (Underwater.args 0) Underwater.candles Underwater.long = .ok m ∧
      m.maxDrawdown = 0 ∧
      ¬CountsOpenLosses (Underwater.args 0) Underwater.candles Underwater.long m := by
  have hreturns : (simulatePositions (Underwater.args 0) Underwater.candles
      Underwater.long).toOption.map BacktestMetrics.maxDrawdown = some 0 := by decide +kernel
  have hmarked : [(10000 : ℚ), 5000].Sublist (10000 :: markedPath (Underwater.args 0)
      Underwater.long (Underwater.candles.take 1) (Underwater.candles.drop 1)
      (SimulationState.start 10000)) := by decide +kernel
  cases hm : simulatePositions (Underwater.args 0) Underwater.candles Underwater.long with
  | error e =>
    rw [hm] at hreturns
    cases hreturns
  | ok m =>
    rw [hm] at hreturns
    have hzero : m.maxDrawdown = 0 := Option.some.inj hreturns
    refine ⟨m, rfl, hzero, fun hcounts => ?_⟩
    have hhalf := hcounts (1 - 5000 / 10000) (.inr ⟨_, _, hmarked, rfl⟩)
    rw [hzero] at hhalf
    norm_num at hhalf

end TraderStack
